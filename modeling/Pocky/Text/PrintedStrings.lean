import Pocky.Text.Directives

/-! Strings that are printed through the formatter, and which of them come out as they are. -/

namespace Pocky

/-- A text with spaces up to a width, on the side that is asked for. -/
def padded (leftJustify : Bool) (width : Nat) (text : List UInt8) : List UInt8 :=
  let spaces := List.replicate (width - text.length) (ascii ' ')
  if leftJustify then text ++ spaces else spaces ++ text

/-- Every percent sign of a text is followed by a character that means nothing behind it. -/
def Verbatim (text : List UInt8) : Prop :=
  ∀ before behind, text = before ++ ascii '%' :: behind →
    ∃ char rest, behind = char :: rest ∧ isFrontChar char = false ∧ isConversion char = false

/-- The first character of a text, and those behind it. -/
theorem verbatim_cons {char : UInt8} {text : List UInt8} :
    Verbatim (char :: text) ↔
      (char = ascii '%' → ∃ next rest, text = next :: rest ∧ isFrontChar next = false ∧
        isConversion next = false) ∧ Verbatim text := by
  constructor
  · intro verbatim
    refine ⟨fun percent => verbatim [] text (by rw [percent]; rfl), ?_⟩
    rintro before behind rfl
    exact verbatim (char :: before) behind rfl
  · rintro ⟨first, later⟩ before behind split
    cases before with
    | nil =>
      obtain ⟨percent, rfl⟩ := List.cons.inj split
      exact first percent
    | cons other before => exact later before behind (List.cons.inj split).2

/-- A text without a percent sign. -/
theorem verbatim_of_no_percent {text : List UInt8} (none : ascii '%' ∉ text) : Verbatim text := by
  rintro before behind rfl
  exact absurd (by simp) none

/-- A character that stands for no conversion is printed behind a percent sign. -/
theorem convertAt_other {char : UInt8} (plain : isConversion char = false) (spec : Spec)
    (args : List Arg) :
    convertAt spec char args =
      { Printed.conversion [ascii '%', char] with undefined := spec.overflows } ∧
      argsBehind spec char args = args := by
  simp only [isConversion, decide_eq_false_iff_not, not_or] at plain
  obtain ⟨noFloat, noSigned, noUnsigned, noHex, noPointer, noString, noPercent, noChar⟩ := plain
  simp [convertAt, argsBehind, convert, *, Printed.conversion]

/-- A percent sign is printed for two of them, whatever stands between. -/
theorem convertAt_percent (spec : Spec) (args : List Arg) :
    convertAt spec (ascii '%') args =
      { Printed.conversion [ascii '%'] with undefined := spec.overflows } ∧
      argsBehind spec (ascii '%') args = args := by
  have others : ascii '%' ≠ ascii 'f' ∧ ascii '%' ≠ ascii 'd' ∧ ascii '%' ≠ ascii 'u' ∧
      ascii '%' ≠ ascii 'x' ∧ ascii '%' ≠ ascii 'p' ∧ ascii '%' ≠ ascii 's' := by decide
  simp [convertAt, argsBehind, convert, others, Printed.conversion]

/-- Without arguments every conversion but that of a percent sign lacks its own. -/
theorem convertAt_missing {spec : Spec} {conversion : UInt8}
    (isConversion : isConversion conversion = true) (noPercent : conversion ≠ ascii '%') :
    (convertAt spec conversion []).undefined = true := by
  simp only [Pocky.isConversion, decide_eq_true_eq, noPercent, false_or] at isConversion
  rcases isConversion with rfl | rfl | rfl | rfl | rfl | rfl | rfl <;> rfl

/-- A text in which no percent sign means anything is printed as it is. -/
theorem vprintf_verbatim {text : List UInt8} (verbatim : Verbatim text) (args : List Arg) :
    (vprintf text args).output = text ∧ (vprintf text args).undefined = false ∧
      (vprintf text args).past = false := by
  induction text using formatInduction with
  | nil => simp [Printed.nothing]
  | plain char text plain ih =>
    obtain ⟨output, quiet, within⟩ := ih (verbatim_cons.mp verbatim).2
    rw [vprintf_plain plain]
    simp [Printed.andThen, Printed.conversion, output, quiet, within]
  | short text short =>
    -- A percent sign that nothing follows is none of a text like this.
    obtain ⟨next, rest, rfl, isPlain, -⟩ := (verbatim_cons.mp verbatim).1 rfl
    rw [parseSpec_plain isPlain rest] at short
    cases short
  | conversion text spec conversion rest parsed ih =>
    obtain ⟨first, later⟩ := verbatim_cons.mp verbatim
    obtain ⟨next, behind, rfl, isPlain, isOther⟩ := first rfl
    rw [parseSpec_plain isPlain behind] at parsed
    cases parsed
    obtain ⟨printed, left⟩ := convertAt_other isOther plainSpec args
    obtain ⟨output, quiet, within⟩ := ih (verbatim_cons.mp later).2
    rw [vprintf_conversion (parseSpec_plain isPlain _), printed, left]
    simp [Printed.andThen, Printed.conversion, output, quiet, within, Spec.overflows, plainSpec,
      intRange]

/-- Characters are lost from a text, but no space. -/
structure Loses (output text : List UInt8) : Prop where
  /-- The characters that are left are in order. -/
  sublist : output.Sublist text
  /-- No space is lost. -/
  spaces : output.count (ascii ' ') = text.count (ascii ' ')

namespace Loses

/-- A character that is kept. -/
theorem cons {output text : List UInt8} (char : UInt8) (loses : Loses output text) :
    Loses (char :: output) (char :: text) :=
  ⟨loses.sublist.cons_cons char, by rw [List.count_cons, List.count_cons, loses.spaces]⟩

/-- What may stand in front of a conversion is lost. -/
theorem behind {output text front : List UInt8} (allowed : IsFront front)
    (loses : Loses output text) : Loses output (front ++ text) where
  sublist := loses.sublist.trans (List.sublist_append_right front text)
  spaces := by
    have noSpace : front.count (ascii ' ') = 0 :=
      List.count_eq_zero.mpr fun inside => absurd (allowed.chars _ inside) (by decide)
    rw [List.count_append, noSpace, loses.spaces, Nat.zero_add]

/-- A percent sign in front of another one is lost. -/
theorem percent {output text : List UInt8} (loses : Loses output text) :
    Loses output (ascii '%' :: text) where
  sublist := loses.sublist.trans (List.sublist_cons_self _ _)
  spaces := by rw [List.count_cons_of_ne (by decide), loses.spaces]

/-- Spaces that are added make up for nothing that is lost. -/
theorem eq_of_padded {output text : List UInt8} (loses : Loses output text)
    {leftJustify : Bool} {more spaces : Nat}
    (same : (if leftJustify then output ++ List.replicate more (ascii ' ')
      else List.replicate more (ascii ' ') ++ output) =
      if leftJustify then text ++ List.replicate spaces (ascii ' ')
      else List.replicate spaces (ascii ' ') ++ text) : output = text ∧ more = spaces := by
  have counts := congrArg (List.count (ascii ' ')) same
  have lengths := congrArg List.length same
  have bound := loses.sublist.length_le
  have kept := loses.spaces
  cases leftJustify <;>
    simp only [Bool.false_eq_true, if_false, if_true, List.count_append, List.count_replicate_self,
      List.length_append, List.length_replicate] at counts lengths <;>
    exact ⟨loses.sublist.eq_of_length (by omega), by omega⟩

end Loses

/-- A text that is printed as a format without arguments loses characters, but no space. -/
theorem vprintf_loses {text : List UInt8} (quiet : (vprintf text []).undefined = false)
    (within : (vprintf text []).past = false) : Loses (vprintf text []).output text := by
  induction text using formatInduction with
  | nil => exact ⟨by simp [Printed.nothing], by simp [Printed.nothing]⟩
  | plain char text plain ih =>
    rw [vprintf_plain plain] at quiet within ⊢
    simp only [Printed.andThen, Bool.or_eq_false_iff] at quiet within
    exact (ih quiet.2 within.2).cons char
  | short text short =>
    rw [vprintf_short short] at within
    cases within
  | conversion text spec conversion rest parsed ih =>
    obtain ⟨front, allowed, split⟩ := parseSpec_front text
    rw [parsed] at split
    rw [vprintf_conversion parsed] at quiet within ⊢
    simp only [Printed.andThen, Bool.or_eq_false_iff] at quiet within
    -- Only a percent sign can be the character of a conversion, else its argument is missing.
    by_cases isConversion : isConversion conversion = true
    · by_cases second : conversion = ascii '%'
      · subst second
        obtain ⟨printed, behind⟩ := convertAt_percent spec []
        rw [behind] at quiet within ⊢
        rw [printed, split]
        exact ((ih quiet.2 within.2).percent.behind allowed).cons _
      · rw [convertAt_missing isConversion second] at quiet
        cases quiet.1
    · obtain ⟨printed, behind⟩ := convertAt_other (by simpa using isConversion) spec []
      rw [behind] at quiet within ⊢
      rw [printed, split]
      exact (((ih quiet.2 within.2).cons conversion).behind allowed).cons _

/-- A text that is printed as it is has no percent sign that means anything. -/
theorem verbatim_of_vprintf {text : List UInt8} (quiet : (vprintf text []).undefined = false)
    (within : (vprintf text []).past = false) (same : (vprintf text []).output = text) :
    Verbatim text := by
  induction text using formatInduction with
  | nil => exact verbatim_of_no_percent (by simp)
  | plain char text plain ih =>
    rw [vprintf_plain plain] at quiet within same
    simp only [Printed.andThen, Bool.or_eq_false_iff] at quiet within same
    have tail : (vprintf text []).output = text := by simpa [Printed.conversion] using same
    exact verbatim_cons.mpr ⟨fun percent => absurd percent plain, ih quiet.2 within.2 tail⟩
  | short text short =>
    rw [vprintf_short short] at within
    cases within
  | conversion text spec conversion rest parsed ih =>
    obtain ⟨front, -, split⟩ := parseSpec_front text
    rw [parsed] at split
    rw [vprintf_conversion parsed] at quiet within same
    have lengths := congrArg List.length split
    have kept := congrArg List.length same
    simp only [Printed.andThen, Bool.or_eq_false_iff] at quiet within same
    simp only [Printed.andThen, List.length_append, List.length_cons] at lengths kept
    by_cases isConversion : isConversion conversion = true
    · by_cases second : conversion = ascii '%'
      · -- One of the two percent signs is missing.
        subst second
        obtain ⟨printed, behind⟩ := convertAt_percent spec []
        rw [behind] at quiet within kept
        have loses := (vprintf_loses quiet.2 within.2).sublist.length_le
        rw [printed] at kept
        simp only [Printed.conversion, List.length_singleton] at kept
        omega
      · rw [convertAt_missing isConversion second] at quiet
        cases quiet.1
    · rw [Bool.not_eq_true] at isConversion
      obtain ⟨printed, behind⟩ := convertAt_other isConversion spec []
      rw [behind] at quiet within same kept
      have loses := (vprintf_loses quiet.2 within.2).sublist.length_le
      rw [printed] at same kept
      simp only [Printed.conversion, List.length_cons, List.length_nil] at kept
      -- Nothing is lost, so that nothing stands in front of the character.
      have none : front = [] := List.eq_nil_of_length_eq_zero (by omega)
      have whole : text = conversion :: rest := by rw [split, none, List.nil_append]
      have isPlain := parseSpec_stop parsed whole
      have noPercent : conversion ≠ ascii '%' := by
        rintro rfl
        exact absurd isConversion (by decide)
      subst whole
      have tail : (vprintf rest []).output = rest := by simpa [Printed.conversion] using same
      have later := ih quiet.2 within.2 tail
      exact verbatim_cons.mpr ⟨fun _ => ⟨_, _, rfl, isPlain, isConversion⟩,
        verbatim_cons.mpr ⟨fun percent => absurd percent noPercent, later⟩⟩

/-- The spaces of a string that is longer than its width come to none unless 32 bits are short. -/
theorem wrapInt_sub (width length : Nat) (small : width < intRange) :
    (wrapInt (width - length)).toNat = width - length ∧ wrapInt (width - length) ≠ -intRange ↔
      (length - width) % 2 ^ 32 < intRange := by
  unfold wrapInt Int.bmod intRange at *
  dsimp only
  split <;> omega

/-- The padding of a string, which is none without a width. -/
def stringPadding (width length : Nat) : Int := if 0 < width then wrapInt (width - length) else 0

/-- The padding is right just when the excess of the string fits in 31 bits or is not counted. -/
theorem stringPadding_iff (width length : Nat) (small : width < intRange) :
    (stringPadding width length).toNat = width - length ∧
        stringPadding width length ≠ -intRange ↔
      (0 < width → (length - width) % 2 ^ 32 < intRange) := by
  unfold stringPadding
  split
  · next positive => rw [wrapInt_sub width length small, imp_iff_right positive]
  · next none =>
    simp only [none, false_imp_iff, iff_true, intRange]
    omega

/-- Printing a string behind its conversion. -/
theorem vprintf_directive_string {leftJustify : Bool} {digits : List UInt8}
    (all : ∀ digit ∈ digits, isDigit digit = true) (rest str : List UInt8) (args : List Arg) :
    vprintf (directive leftJustify digits [] (ascii 's') rest) (.text (some str) :: args) =
      (Printed.mk
        (if leftJustify then (vprintf str []).output ++
            padding (stringPadding (decimal digits) str.length) (ascii ' ')
          else padding (stringPadding (decimal digits) str.length) (ascii ' ') ++
            (vprintf str []).output) 1
        (((vprintf str []).undefined || (vprintf str []).past ||
          stringPadding (decimal digits) str.length == -intRange) ||
          decide (intRange ≤ decimal digits)) false).andThen (vprintf rest args) := by
  have others : ascii 's' ≠ ascii 'f' ∧ ascii 's' ≠ ascii 'd' ∧ ascii 's' ≠ ascii 'u' ∧
      ascii 's' ≠ ascii 'x' ∧ ascii 's' ≠ ascii 'p' := by decide
  rw [directive, vprintf_conversion (parseSpec_directive rest all .usual (by decide))]
  simp [convertAt, argsBehind, convert, others, printString, stringPadding, Spec.overflows,
    Printed.conversion]

/--
A conversion of strings prints its argument as it is, with spaces up to the width, just when no
percent sign in it means anything and neither the width nor the excess over it leaves 31 bits.
-/
theorem vprintf_string_iff {leftJustify : Bool} {digits : List UInt8}
    (all : ∀ digit ∈ digits, isDigit digit = true) (str : List UInt8) :
    (∀ rest args,
      vprintf (directive leftJustify digits [] (ascii 's') rest) (.text (some str) :: args) =
        (Printed.conversion (padded leftJustify (decimal digits) str)).andThen
          (vprintf rest args)) ↔
      Verbatim str ∧ decimal digits < intRange ∧
        (0 < decimal digits → (str.length - decimal digits) % 2 ^ 32 < intRange) := by
  simp only [vprintf_directive_string all]
  constructor
  · intro same
    have alone := same [] []
    simp only [vprintf_nil, Printed.andThen_nothing, Printed.conversion, Printed.mk.injEq,
      Bool.or_eq_false_iff, decide_eq_false_iff_not, beq_eq_false_iff_ne, not_le, padded] at alone
    obtain ⟨output, -, ⟨⟨⟨quiet, within⟩, counted⟩, small⟩, -⟩ := alone
    obtain ⟨same, spaces⟩ := (vprintf_loses quiet within).eq_of_padded output
    exact ⟨verbatim_of_vprintf quiet within same, small,
      (stringPadding_iff _ _ small).mp ⟨spaces, counted⟩⟩
  · rintro ⟨verbatim, small, fits⟩ rest args
    obtain ⟨output, quiet, within⟩ := vprintf_verbatim verbatim []
    obtain ⟨spaces, counted⟩ := (stringPadding_iff _ _ small).mpr fits
    have uncounted := beq_eq_false_iff_ne.mpr counted
    have fitting : decide (intRange ≤ decimal digits) = false := by simpa using small
    simp [output, quiet, within, padding, spaces, uncounted, fitting, Printed.conversion, padded]

/-- A letter is printed to a width of five. -/
theorem vprintf_string_letter :
    vprintf (directive true [ascii '5'] [] (ascii 's') []) [.text (some [ascii 'a'])] =
      (Printed.conversion (padded true (decimal [ascii '5']) [ascii 'a'])).andThen
        (vprintf [] []) :=
  (vprintf_string_iff (List.all_eq_true.mp (by decide)) [ascii 'a']).mpr
    ⟨verbatim_of_no_percent (by decide), by decide, by decide⟩ [] []

/-- One of two percent signs in a string is lost. -/
theorem vprintf_string_percents :
    ¬ ∀ (leftJustify : Bool) (digits str rest : List UInt8) (args : List Arg),
      (∀ digit ∈ digits, isDigit digit = true) → 0 ∉ str →
      vprintf (directive leftJustify digits [] (ascii 's') rest) (.text (some str) :: args) =
        (Printed.conversion (padded leftJustify (decimal digits) str)).andThen
          (vprintf rest args) := by
  intro same
  have here := same false [] [ascii '%', ascii '%'] [] [] (by simp) (by decide)
  have parsed : parseSpec [ascii '%'] = (plainSpec, [ascii '%']) := by decide
  have printed := congrArg Printed.output (vprintf_conversion parsed [])
  rw [vprintf_directive_string (by simp)] at here
  have output := congrArg Printed.output here
  simp only [vprintf_nil, Printed.andThen_nothing] at output printed
  rw [printed] at output
  exact absurd output (by decide)

end Pocky
