import Mathlib.Algebra.Order.Ring.Int
import Mathlib.Data.List.Infix

/-! Patterns in which one symbol stands for any text. -/

namespace Pocky

variable {α : Type}

/-- A text is obtained from a pattern by replacing each star by some text. -/
inductive Expands (star : α) : List α → List α → Prop where
  /-- The empty pattern is the empty text. -/
  | nil : Expands star [] []
  /-- A star is replaced. -/
  | star (part : List α) {pattern text : List α} (rest : Expands star pattern text) :
      Expands star (star :: pattern) (part ++ text)
  /-- Any other symbol stands for itself. -/
  | symbol {symbol : α} {pattern text : List α} (plain : symbol ≠ star)
      (rest : Expands star pattern text) : Expands star (symbol :: pattern) (symbol :: text)

namespace Expands

variable {star symbol : α} {pattern text : List α}

/-- Nothing but the empty text is obtained from the empty pattern. -/
theorem nil_iff : Expands star [] text ↔ text = [] := by
  constructor
  · intro expands
    cases expands
    rfl
  · rintro rfl
    exact .nil

/-- From a pattern with a star in front, all texts are obtained that end in one of the others. -/
theorem star_iff : Expands star (star :: pattern) text ↔
    ∃ rest, rest <:+ text ∧ Expands star pattern rest := by
  constructor
  · intro expands
    cases expands with
    | star part rest => exact ⟨_, List.suffix_append _ _, rest⟩
    | symbol plain _ => exact absurd rfl plain
  · rintro ⟨rest, ⟨part, rfl⟩, expands⟩
    exact .star part expands

/-- A symbol in front of a pattern stands in front of the text. -/
theorem symbol_iff (plain : symbol ≠ star) : Expands star (symbol :: pattern) text ↔
    ∃ rest, text = symbol :: rest ∧ Expands star pattern rest := by
  constructor
  · intro expands
    cases expands with
    | star => exact absurd rfl plain
    | symbol _ rest => exact ⟨_, rfl, rest⟩
  · rintro ⟨rest, rfl, expands⟩
    exact .symbol plain expands

/-- The empty text is obtained from patterns of stars. -/
theorem empty_iff : Expands star pattern [] ↔ ∀ symbol ∈ pattern, symbol = star := by
  -- By induction on the pattern, every symbol of which has to be replaced.
  induction pattern with
  | nil => simp [nil_iff]
  | cons symbol pattern ih =>
    rw [List.forall_mem_cons, ← ih]
    by_cases plain : symbol = star
    · rw [plain, star_iff]
      simp [List.suffix_nil]
    · simp [symbol_iff plain, plain]

/-- Every text is obtained from a pattern of stars, if there is one. -/
theorem of_stars (stars : ∀ symbol ∈ pattern, symbol = star) (some : pattern ≠ []) :
    Expands star pattern text := by
  cases pattern with
  | nil => exact absurd rfl some
  | cons symbol pattern =>
    obtain ⟨rfl, others⟩ := List.forall_mem_cons.mp stars
    -- The first star takes the whole text, and the others nothing.
    exact star_iff.mpr ⟨[], List.nil_suffix, empty_iff.mpr others⟩

end Expands

end Pocky
