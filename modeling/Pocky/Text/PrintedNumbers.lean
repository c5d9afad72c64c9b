import Mathlib.Tactic.IntervalCases
import Pocky.Text.Directives

/-! Signed numbers that are printed, and which of them come out with their value. -/

namespace Pocky

/-- The decimal digits of a number. -/
def numerals (number : Nat) : List UInt8 := (Nat.toDigits 10 number).map ascii

/-- A number in decimal digits with its sign, padded to a width. -/
def paddedNumber (leftJustify padZero : Bool) (width : Nat) (value : Int) : List UInt8 :=
  let sign := if value < 0 then [ascii '-'] else []
  let digits := numerals value.natAbs
  let fill := width - (digits.length + sign.length)
  if leftJustify then sign ++ digits ++ List.replicate fill (ascii ' ')
  else if padZero then sign ++ List.replicate fill (ascii '0') ++ digits
  else List.replicate fill (ascii ' ') ++ sign ++ digits

/-- The value of an argument whose length is given: a word, or its lower half. -/
def signedValue (length : List UInt8) (value : BitVec 64) : Int :=
  if length = [] then (lowHalf value).toInt else value.toInt

/-- The character of a decimal digit. -/
theorem digitChar_eq {digit : Nat} (small : digit < 10) :
    digitChar digit = ascii (Nat.digitChar digit) := by
  interval_cases digit <;> rfl

/-- Nothing is left of zero. -/
theorem digitLoop_zero (base room : Nat) : digitLoop base room 0 = [] := by
  cases room <;> simp [digitLoop]

/-- The digits come out, the last one first, if there is room. -/
theorem digitLoop_digits {room number : Nat} (positive : 0 < number)
    (small : number < 10 ^ room) : (digitLoop 10 room number).reverse = numerals number := by
  induction room generalizing number with
  | zero => omega
  | succ room ih =>
    rw [digitLoop, if_neg positive.ne', List.reverse_cons]
    -- The digit that is put first is the last one, and its quotient has one fewer.
    by_cases last : number < 10
    · rw [Nat.div_eq_of_lt last, digitLoop_zero, Nat.mod_eq_of_lt last, digitChar_eq last,
        numerals, Nat.toDigits_of_lt_base last]
      rfl
    · have tail := ih (Nat.div_pos (not_lt.mp last) (by decide))
        (Nat.div_lt_of_lt_mul (by rwa [pow_succ, mul_comm] at small))
      rw [tail, digitChar_eq (Nat.mod_lt _ (by decide)), numerals, numerals,
        Nat.toDigits_of_base_le (b := 10) (by decide) (not_lt.mp last), List.map_append]
      rfl

/-- The buffer of a number holds its digits. -/
theorem numberBuffer_digits {number : Nat} (small : number < 10 ^ (printBufferSize - 1)) :
    (numberBuffer 10 number).reverse = numerals number := by
  rw [numberBuffer]
  split
  · next zero => rw [zero]; rfl
  · next nonzero => exact digitLoop_digits (Nat.pos_of_ne_zero nonzero) small

/-- One digit more. -/
theorem decimal_append (digits : List UInt8) (digit : UInt8) :
    decimal (digits ++ [digit]) = decimal digits * 10 + (digit.toNat - (ascii '0').toNat) := by
  simp [decimal]

/-- Zeros in front of digits do not change their number. -/
theorem decimal_zeros (count : Nat) (digits : List UInt8) :
    decimal (List.replicate count (ascii '0') ++ digits) = decimal digits := by
  induction count with
  | zero => rfl
  | succ count ih => rw [List.replicate_succ, List.cons_append, decimal_zero, ih]

/-- The digits of a number are digits. -/
theorem isDigit_numerals (number : Nat) : ∀ digit ∈ numerals number, isDigit digit = true := by
  intro digit inside
  obtain ⟨char, digits, rfl⟩ := List.mem_map.mp inside
  have range : 48 ≤ char.toNat ∧ char.toNat ≤ 57 := by
    simpa [Char.isDigit, UInt32.le_iff_toNat_le] using
      Nat.isDigit_of_mem_toDigits (by decide) (by decide) digits
  simp only [isDigit, ascii, decide_eq_true_eq, UInt8.le_iff_toNat_le, UInt8.toNat_ofNat']
  change 48 % 2 ^ 8 ≤ char.toNat % 2 ^ 8 ∧ char.toNat % 2 ^ 8 ≤ 57 % 2 ^ 8
  omega

/-- The digits of a number stand for it. -/
theorem decimal_numerals (number : Nat) : decimal (numerals number) = number := by
  induction number using Nat.strongRecOn with
  | ind number ih =>
    by_cases last : number < 10
    · rw [numerals, Nat.toDigits_of_lt_base last]
      interval_cases number <;> rfl
    · rw [numerals, Nat.toDigits_of_base_le (b := 10) (by decide) (not_lt.mp last), List.map_append,
        List.map_singleton, decimal_append, ← numerals, ih _ (by omega),
        ← digitChar_eq (Nat.mod_lt _ (by decide))]
      have digit : (digitChar (number % 10)).toNat - (ascii '0').toNat = number % 10 := by
        have small : number % 10 < 10 := Nat.mod_lt _ (by decide)
        generalize number % 10 = digit at small
        interval_cases digit <;> rfl
      omega

/-- The digits of a padded number stand for its absolute value. -/
theorem decimal_paddedNumber (leftJustify padZero : Bool) (width : Nat) (value : Int) :
    decimal ((paddedNumber leftJustify padZero width value).filter isDigit) = value.natAbs := by
  have digits := List.filter_eq_self.mpr (isDigit_numerals value.natAbs)
  have sign : (if value < 0 then [ascii '-'] else []).filter isDigit = [] := by
    split <;> rfl
  have space : ¬ isDigit (ascii ' ') = true := by decide
  have zero : isDigit (ascii '0') = true := by decide
  simp only [paddedNumber]
  generalize (if value < 0 then [ascii '-'] else []) = signText at sign ⊢
  cases leftJustify <;> cases padZero <;>
    simp [List.filter_append, sign, digits, space, zero, decimal_zeros, decimal_numerals]

/-- The sign of a padded number is there just when it is negative. -/
theorem sign_paddedNumber (leftJustify padZero : Bool) (width : Nat) (value : Int) :
    ascii '-' ∈ paddedNumber leftJustify padZero width value ↔ value < 0 := by
  have digits : ascii '-' ∉ numerals value.natAbs := fun inside =>
    absurd (isDigit_numerals _ _ inside) (by decide)
  have space : ascii '-' ≠ ascii ' ' := by decide
  have zero : ascii '-' ≠ ascii '0' := by decide
  simp only [paddedNumber]
  split_ifs <;> simp_all [List.mem_replicate]

/-- Two numbers that are padded to the same characters are the same. -/
theorem paddedNumber_injective (leftJustify padZero : Bool) (width : Nat) :
    Function.Injective (paddedNumber leftJustify padZero width) := by
  intro value other same
  have magnitude := decimal_paddedNumber leftJustify padZero width value
  have sign := sign_paddedNumber leftJustify padZero width value
  rw [same, decimal_paddedNumber] at magnitude
  rw [same, sign_paddedNumber] at sign
  omega

/-- A word of 32 bits is a number of that many. -/
theorem wrapInt_range (number : Int) : -intRange ≤ wrapInt number ∧ wrapInt number < intRange := by
  unfold wrapInt Int.bmod intRange
  dsimp only
  split <;> omega

/-- A number of 32 bits is not cut. -/
theorem wrapInt_of_range {number : Int} (low : -(intRange : Int) ≤ number)
    (high : number < intRange) : wrapInt number = number := by
  unfold wrapInt Int.bmod intRange at *
  dsimp only
  split <;> omega

/-- The number that is printed is the one that is left when it is cut to 32 bits. -/
theorem printNumber_eq (num : Int) (width : Nat) (padZero leftJustify : Bool)
    (notLeast : wrapInt num ≠ -intRange) :
    printNumber num 10 width padZero leftJustify =
      .conversion (paddedNumber leftJustify padZero width (wrapInt num)) := by
  obtain ⟨low, high⟩ := wrapInt_range num
  generalize cut : wrapInt num = value at low high notLeast
  have magnitude : (if value < 0 then wrapInt (-value) else value) = (value.natAbs : Int) := by
    split
    · rw [wrapInt_of_range (by simp only [intRange] at *; omega) (by omega)]
      omega
    · omega
  have digits : (numberBuffer 10 value.natAbs).reverse = numerals value.natAbs := by
    refine numberBuffer_digits ?_
    simp only [printBufferSize, intRange] at *
    omega
  have length : (numberBuffer 10 value.natAbs).length = (numerals value.natAbs).length := by
    rw [← digits, List.length_reverse]
  have fill (length : Nat) (char : UInt8) :
      padding ((width : Int) - length) char = List.replicate (width - length) char := by
    rw [padding]
    congr 1
    omega
  have notNegative : ¬ ((value.natAbs : Int) < 0) := by omega
  simp only [printNumber, cut, decide_eq_true_eq, magnitude, notNegative, if_false,
    Int.toNat_natCast, digits, length, fill, notLeast, decide_false]
  rfl

/-- The smallest number of 32 bits has no negative. -/
theorem printNumber_least (num : Int) (base width : Nat) (padZero leftJustify : Bool) :
    (printNumber num base width padZero leftJustify).undefined = decide (wrapInt num = -intRange) :=
  rfl

/-- Printing a signed number behind its conversion. -/
theorem vprintf_directive_signed {leftJustify : Bool} {digits length : List UInt8}
    (all : ∀ digit ∈ digits, isDigit digit = true) (isLength : IsLength length)
    (rest : List UInt8) (value : BitVec 64) (args : List Arg) :
    vprintf (directive leftJustify digits length (ascii 'd') rest) (.word value :: args) =
      { printNumber (signedValue length value) 10 (decimal digits)
          (decide (digits.head? = some (ascii '0'))) leftJustify with
        undefined := decide (wrapInt (signedValue length value) = -intRange) ||
          decide (intRange ≤ decimal digits) }.andThen (vprintf rest args) := by
  have others : ascii 'd' ≠ ascii 'f' := by decide
  have one : ascii 'l' ≠ ascii 'f' := by decide
  rw [directive, vprintf_conversion (parseSpec_directive rest all isLength (by decide))]
  cases isLength <;>
    simp [convertAt, argsBehind, convert, withWord, others, Spec.overflows, signedValue,
      printNumber_least]

/--
A signed conversion prints its argument just when that has a negative in 32 bits and the width
fits in 31.
-/
theorem vprintf_signed_iff {leftJustify : Bool} {digits length : List UInt8}
    (all : ∀ digit ∈ digits, isDigit digit = true) (isLength : IsLength length)
    (value : BitVec 64) :
    (∀ rest args,
      vprintf (directive leftJustify digits length (ascii 'd') rest) (.word value :: args) =
        (Printed.conversion (paddedNumber leftJustify (decide (digits.head? = some (ascii '0')))
          (decimal digits) (signedValue length value))).andThen (vprintf rest args)) ↔
      (-intRange < signedValue length value ∧ signedValue length value < intRange) ∧
        decimal digits < intRange := by
  simp only [vprintf_directive_signed all isLength]
  constructor
  · intro same
    have alone := same [] []
    simp only [vprintf_nil, Printed.andThen_nothing] at alone
    have quiet := congrArg Printed.undefined alone
    simp only [Printed.conversion, Bool.or_eq_false_iff, decide_eq_false_iff_not, not_le] at quiet
    obtain ⟨notLeast, small⟩ := quiet
    rw [printNumber_eq _ _ _ _ notLeast] at alone
    -- The characters tell the number, whatever the width and the padding are.
    have uncut := paddedNumber_injective _ _ _ (congrArg Printed.output alone)
    -- What is printed is within range, and it is the argument itself.
    obtain ⟨low, high⟩ := wrapInt_range (signedValue length value)
    rw [uncut] at low high notLeast
    exact ⟨⟨lt_of_le_of_ne low (Ne.symm notLeast), high⟩, small⟩
  · rintro ⟨⟨low, high⟩, small⟩ rest args
    have uncut := wrapInt_of_range low.le high
    have notLeast : wrapInt (signedValue length value) ≠ -intRange := by
      rw [uncut]
      exact low.ne'
    have fitting : decide (intRange ≤ decimal digits) = false := by simpa using small
    rw [printNumber_eq _ _ _ _ notLeast, uncut, fitting, decide_eq_false low.ne']
    rfl

/-- A negative number is printed with zeros behind its sign. -/
theorem vprintf_signed_negative :
    vprintf (directive false [ascii '0', ascii '5'] [ascii 'l'] (ascii 'd') []) [.word (-42)] =
      (Printed.conversion (paddedNumber false (decide ([ascii '0', ascii '5'].head? =
        some (ascii '0'))) (decimal [ascii '0', ascii '5'])
        (signedValue [ascii 'l'] (-42)))).andThen (vprintf [] []) :=
  (vprintf_signed_iff (List.all_eq_true.mp (by decide)) .long (-42)).mpr ⟨by decide, by decide⟩
    [] []

/-- A long number of 33 bits is printed as zero. -/
theorem vprintf_signed_long :
    ¬ ∀ (leftJustify : Bool) (digits length rest : List UInt8) (value : BitVec 64)
      (args : List Arg), (∀ digit ∈ digits, isDigit digit = true) → IsLength length →
      vprintf (directive leftJustify digits length (ascii 'd') rest) (.word value :: args) =
        (Printed.conversion (paddedNumber leftJustify (decide (digits.head? = some (ascii '0')))
          (decimal digits) (signedValue length value))).andThen (vprintf rest args) := by
  intro same
  have here := same false [] [ascii 'l'] [] (2 ^ 32) [] (by simp) .long
  rw [vprintf_directive_signed (by simp) .long] at here
  have output := congrArg Printed.output here
  simp only [vprintf_nil, Printed.andThen_nothing] at output
  exact absurd output (by decide)

end Pocky
