import Pocky.Fs.Disk
import Pocky.Fs.Fat32
import Pocky.Lib.Glob

/-! Comparing names with patterns in which a star stands for any characters. -/

namespace Pocky

/-- The character that stands for any others. -/
def starChar : UInt8 := 0x2A

/-- Trying the rest of a string as long as it has a character. -/
def anyRest (decides : Name → Bool) : Name → Bool
  | [] => false
  | char :: str => decides (char :: str) || anyRest decides str

/--
The comparison of a pattern with a string.

Behind a star the rest of the pattern is tried on what is left of the string, the end left out.
-/
def matchFrom : Name → Name → Bool
  | [], str => str = []
  | first :: pattern, [] => (first :: pattern).all (· == starChar)
  | first :: pattern, char :: str =>
    if first = starChar then
      if pattern = [] then true else anyRest (matchFrom pattern) (char :: str)
    else if first ≠ char then false
    else matchFrom pattern str

/-- Comparing a pattern with a string; a pointer may be missing. -/
def matchWildcard (pattern str : Option Name) : Bool :=
  match pattern, str with
  | some pattern, some str => matchFrom pattern str
  | _, _ => false

/-- The rests that are tried are the suffixes that have a character. -/
theorem anyRest_iff {decides : Name → Bool} {str : Name} :
    anyRest decides str = true ↔ ∃ rest, rest <:+ str ∧ rest ≠ [] ∧ decides rest = true := by
  induction str with
  | nil => simp [anyRest, List.suffix_nil]
  | cons char str ih =>
    simp only [anyRest, Bool.or_eq_true, ih, List.suffix_cons_iff]
    constructor
    · rintro (here | ⟨rest, inside, some, told⟩)
      · exact ⟨_, Or.inl rfl, List.cons_ne_nil _ _, here⟩
      · exact ⟨rest, Or.inr inside, some, told⟩
    · rintro ⟨rest, rfl | inside, some, told⟩
      · exact Or.inl told
      · exact Or.inr ⟨rest, inside, some, told⟩

/-- The comparison answers whether the string is obtained from the pattern. -/
theorem matchFrom_iff (pattern str : Name) :
    matchFrom pattern str = true ↔ Expands starChar pattern str := by
  -- By induction on the pattern, from which every call and every round takes a character.
  induction pattern generalizing str with
  | nil => simp [matchFrom, Expands.nil_iff]
  | cons first pattern ih =>
    cases str with
    | nil => simp [matchFrom, Expands.empty_iff]
    | cons char str =>
      rw [matchFrom]
      by_cases isStar : first = starChar
      · rw [if_pos isStar, isStar, Expands.star_iff]
        by_cases last : pattern = []
        · rw [if_pos last, last]
          exact iff_of_true rfl ⟨[], List.nil_suffix, .nil⟩
        · rw [if_neg last, anyRest_iff]
          constructor
          · rintro ⟨rest, inside, -, told⟩
            exact ⟨rest, inside, (ih rest).mp told⟩
          · rintro ⟨rest, inside, expands⟩
            by_cases empty : rest = []
            · -- What is left of the pattern are stars, which the whole string is obtained from too.
              rw [empty, Expands.empty_iff] at expands
              exact ⟨char :: str, List.suffix_refl _, List.cons_ne_nil _ _,
                (ih _).mpr (Expands.of_stars expands last)⟩
            · exact ⟨rest, inside, empty, (ih rest).mpr expands⟩
      · rw [if_neg isStar, Expands.symbol_iff isStar]
        by_cases same : first = char
        · simp [same, ih]
        · simp [same, Ne.symm same]

/--
A string matches a pattern just when it can be obtained from the pattern by replacing each star.
-/
theorem matchWildcard_iff (pattern str : Name) :
    matchWildcard (some pattern) (some str) = true ↔ Expands starChar pattern str :=
  matchFrom_iff pattern str

end Pocky
