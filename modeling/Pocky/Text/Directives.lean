import Pocky.Text.FormatEnds

/-! Conversions with a flag, a width and a length, and the characters they are made of. -/

namespace Pocky

/-- The number that digits stand for. -/
def decimal (digits : List UInt8) : Nat :=
  digits.foldl (fun number digit => number * 10 + (digit.toNat - (ascii '0').toNat)) 0

/-- A conversion and what stands behind it. -/
def directive (leftJustify : Bool) (digits length : List UInt8) (conversion : UInt8)
    (rest : List UInt8) : List UInt8 :=
  ascii '%' :: ((if leftJustify then [ascii '-'] else []) ++ digits ++ length ++
    conversion :: rest)

/-- A character that may stand in front of that of a conversion. -/
def isFrontChar (char : UInt8) : Bool :=
  isDigit char ∨ char = ascii '-' ∨ char = ascii '.' ∨ char = ascii 'z' ∨ char = ascii 'l'

/-- A character that stands for a conversion. -/
def isConversion (char : UInt8) : Bool :=
  char = ascii 'f' ∨ char = ascii 'd' ∨ char = ascii 'u' ∨ char = ascii 'x' ∨ char = ascii 'p' ∨
    char = ascii 's' ∨ char = ascii '%' ∨ char = ascii 'c'

/-- What stands behind the percent sign of a conversion without any flag. -/
def plainSpec : Spec := ⟨false, false, 0, none, false, false, false⟩

/-- Nothing is passed over if a format does not start with the character. -/
theorem takeFlag_skip {flag : UInt8} {format : List UInt8}
    (skip : ∀ char ∈ format.head?, char ≠ flag) :
    takeFlag flag format = (false, format) := by
  cases format with
  | nil => rfl
  | cons char format => exact takeFlag_other (skip char rfl) format

/-- Digits are read to the character behind them. -/
theorem readNumber_append {digits rest : List UInt8} (number : Nat)
    (all : ∀ digit ∈ digits, isDigit digit = true)
    (stop : ∀ char ∈ rest.head?, isDigit char = false) :
    readNumber number (digits ++ rest) =
      (digits.foldl (fun number digit => number * 10 + (digit.toNat - (ascii '0').toNat)) number,
        rest) := by
  induction digits generalizing number with
  | nil =>
    cases rest with
    | nil => rfl
    | cons char rest => simp [readNumber, stop char rfl]
  | cons digit digits ih =>
    rw [List.cons_append, readNumber, if_pos (all digit List.mem_cons_self),
      ih _ fun other inside => all other (List.mem_cons_of_mem _ inside), List.foldl_cons]

/-- A zero in front of digits does not change their number. -/
theorem decimal_zero (digits : List UInt8) : decimal (ascii '0' :: digits) = decimal digits := rfl

/-- A character that none may stand in front of is that of the conversion. -/
theorem parseSpec_plain {char : UInt8} (plain : isFrontChar char = false) (rest : List UInt8) :
    parseSpec (char :: rest) = (plainSpec, char :: rest) := by
  simp only [isFrontChar, decide_eq_false_iff_not, not_or] at plain
  obtain ⟨noDigit, noJustify, noPoint, noSize, noLong⟩ := plain
  have noZero : char ≠ ascii '0' := by
    rintro rfl
    exact noDigit (by decide)
  simp [parseSpec, takeFlag, readNumber, plainSpec, *]

/-- Digits may stand in front of a conversion. -/
theorem isFrontChar_digits {digits : List UInt8} (all : ∀ digit ∈ digits, isDigit digit = true) :
    ∀ digit ∈ digits, isFrontChar digit = true := by
  intro digit inside
  simp [isFrontChar, all digit inside]

/-- The characters of a length may stand there. -/
theorem IsLength.chars {front : List UInt8} (length : IsLength front) :
    ∀ char ∈ front, isFrontChar char = true := by
  cases length <;> exact List.all_eq_true.mp (by decide)

/-- So may those of a size. -/
theorem IsSize.chars {front : List UInt8} (size : IsSize front) :
    ∀ char ∈ front, isFrontChar char = true := by
  cases size with
  | absent length => exact length.chars
  | present length => exact List.forall_mem_cons.mpr ⟨by decide, length.chars⟩

/-- So may those of a precision. -/
theorem IsPrecision.chars {front : List UInt8} (precision : IsPrecision front) :
    ∀ char ∈ front, isFrontChar char = true := by
  cases precision with
  | absent size => exact size.chars
  | present all size =>
    exact List.forall_mem_cons.mpr
      ⟨by decide, List.forall_mem_append.mpr ⟨isFrontChar_digits all, size.chars⟩⟩

/-- So may those of a width. -/
theorem IsWidth.chars {front : List UInt8} (width : IsWidth front) :
    ∀ char ∈ front, isFrontChar char = true := by
  cases width with
  | digits all precision =>
    exact List.forall_mem_append.mpr ⟨isFrontChar_digits all, precision.chars⟩

/-- The characters in front of a conversion are such that may stand there. -/
theorem IsFront.chars {front : List UInt8} (allowed : IsFront front) :
    ∀ char ∈ front, isFrontChar char = true := by
  cases allowed with
  | right width => exact width.chars
  | left width => exact List.forall_mem_cons.mpr ⟨by decide, width.chars⟩

/-- A character that may stand in front of a conversion may stand there alone. -/
theorem isFront_char {char : UInt8} (isFront : isFrontChar char = true) : IsFront [char] := by
  simp only [isFrontChar, decide_eq_true_eq] at isFront
  have behind {front : List UInt8} (precision : IsPrecision front) : IsFront front :=
    .right (@IsWidth.digits [] _ (by simp) precision)
  rcases isFront with digit | rfl | rfl | rfl | rfl
  · exact .right (@IsWidth.digits [char] [] (by simpa using digit) (.absent (.absent .usual)))
  · exact .left (@IsWidth.digits [] [] (by simp) (.absent (.absent .usual)))
  · exact behind (@IsPrecision.present [] [] (by simp) (.absent .usual))
  · exact behind (.absent (.present .usual))
  · exact behind (.absent (.absent .long))

/-- A character that is left to the conversion may not stand in front of it. -/
theorem parseSpec_stop {char : UInt8} {format rest : List UInt8} {spec : Spec}
    (parsed : parseSpec format = (spec, char :: rest)) (whole : format = char :: rest) :
    isFrontChar char = false := by
  by_contra isFront
  have passed := (isFront_char (by simpa using isFront)).passed rest
  rw [List.singleton_append, ← whole, parsed, List.length_cons] at passed
  omega

/-- What stands behind the digits of a width: no digit, nor a flag that would be passed over. -/
def StopsWidth (behind : List UInt8) : Prop :=
  ∀ char ∈ behind.head?,
    isDigit char = false ∧ char ≠ ascii '-' ∧ char ≠ ascii '.' ∧ char ≠ ascii 'z'

/-- A length and the character of a conversion stop the width. -/
theorem IsLength.stopsWidth {length : List UInt8} (isLength : IsLength length) {conversion : UInt8}
    (plain : isFrontChar conversion = false) (rest : List UInt8) :
    StopsWidth (length ++ conversion :: rest) := by
  unfold StopsWidth
  cases isLength with
  | usual =>
    simp only [isFrontChar, decide_eq_false_iff_not, not_or] at plain
    simpa using ⟨Bool.not_eq_true _ ▸ plain.1, plain.2.1, plain.2.2.1, plain.2.2.2.1⟩
  | long => simp; decide
  | longer => simp; decide

/-- The flag in front of a width is read as it is written. -/
theorem takeFlag_justify (leftJustify : Bool) {digits behind : List UInt8}
    (all : ∀ digit ∈ digits, isDigit digit = true) (stop : StopsWidth behind) :
    takeFlag (ascii '-') ((if leftJustify then [ascii '-'] else []) ++ (digits ++ behind)) =
      (leftJustify, digits ++ behind) := by
  cases leftJustify with
  | true => exact takeFlag_self _ _
  | false =>
    refine takeFlag_skip ?_
    cases digits with
    | nil => exact fun char first => (stop char first).2.1
    | cons digit digits =>
      rintro _ ⟨⟩ rfl
      exact absurd (all _ List.mem_cons_self) (by decide)

/-- A zero in front of a width is taken for a flag, which leaves digits of the same number. -/
theorem takeFlag_zero {digits behind : List UInt8} (all : ∀ digit ∈ digits, isDigit digit = true)
    (stop : StopsWidth behind) :
    ∃ others, takeFlag (ascii '0') (digits ++ behind) =
      (decide (digits.head? = some (ascii '0')), others ++ behind) ∧
      (∀ digit ∈ others, isDigit digit = true) ∧ decimal others = decimal digits := by
  cases digits with
  | nil =>
    refine ⟨[], ?_, by simp, rfl⟩
    rw [takeFlag_skip]
    · rfl
    · rintro char first rfl
      exact absurd (stop _ first).1 (by decide)
  | cons digit digits =>
    by_cases zero : digit = ascii '0'
    · subst zero
      exact ⟨digits, by simp [takeFlag_self], fun other inside =>
        all other (List.mem_cons_of_mem _ inside), (decimal_zero digits).symm⟩
    · exact ⟨digit :: digits, by simp [takeFlag_other zero, zero], all, rfl⟩

/-- The parts of a conversion are read as they are written. -/
theorem parseSpec_directive {leftJustify : Bool} {digits length : List UInt8} {conversion : UInt8}
    (rest : List UInt8) (all : ∀ digit ∈ digits, isDigit digit = true) (isLength : IsLength length)
    (plain : isFrontChar conversion = false) :
    parseSpec ((if leftJustify then [ascii '-'] else []) ++ digits ++ length ++
        conversion :: rest) =
      (⟨leftJustify, digits.head? = some (ascii '0'), decimal digits, none, false,
        length = [ascii 'l'], length = [ascii 'l', ascii 'l']⟩, conversion :: rest) := by
  have stop := isLength.stopsWidth plain rest
  have notLong : conversion ≠ ascii 'l' := by
    rintro rfl
    exact absurd plain (by decide)
  -- Up to the length, all that matters of what follows is that it stops the width.
  generalize tail : length ++ conversion :: rest = behind at stop
  have justified := takeFlag_justify leftJustify all stop
  obtain ⟨others, zeroed, digitsLeft, same⟩ := takeFlag_zero all stop
  have read : readNumber 0 (others ++ behind) = (decimal digits, behind) := by
    rw [← same]
    exact readNumber_append 0 digitsLeft fun char first => (stop char first).1
  have noPoint := takeFlag_skip fun char first => (stop char first).2.2.1
  have noSize := takeFlag_skip fun char first => (stop char first).2.2.2
  rw [List.append_assoc, List.append_assoc, tail]
  simp only [parseSpec, justified, zeroed, read, noPoint, noSize, Bool.false_eq_true, if_false]
  subst tail
  cases isLength <;> simp [takeFlag, notLong]

end Pocky
