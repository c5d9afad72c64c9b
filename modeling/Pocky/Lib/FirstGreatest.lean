import Mathlib.Algebra.Order.Ring.Int
import Mathlib.Data.List.Induction
import Mathlib.Order.OrderDual

/-! The first of the greatest items of a list, by a measure, and searches that find it. -/

namespace Pocky

variable {α β τ : Type} [LinearOrder β] {measure : α → β} {items : List α}

/-- No item has a greater measure, and each one in front has a smaller one. -/
def FirstGreatest (measure : α → β) (items : List α) (greatest : α) : Prop :=
  ∃ front back, items = front ++ greatest :: back ∧
    (∀ other ∈ front, measure other < measure greatest) ∧
    ∀ other ∈ back, measure other ≤ measure greatest

namespace FirstGreatest

/-- An item that is no greater, at the end, leaves the first greatest one. -/
theorem snoc {greatest item : α} (first : FirstGreatest measure items greatest)
    (smaller : measure item ≤ measure greatest) :
    FirstGreatest measure (items ++ [item]) greatest := by
  -- The items behind the greatest are one more.
  obtain ⟨front, back, parts, before, behind⟩ := first
  refine ⟨front, back ++ [item], by rw [parts, List.append_assoc, List.cons_append], before,
    fun other member => ?_⟩
  rcases List.mem_append.mp member with old | new
  · exact behind other old
  · rw [List.mem_singleton.mp new]
    exact smaller

/-- The greatest item is at least as great as every other. -/
theorem le {greatest : α} (first : FirstGreatest measure items greatest) :
    ∀ other ∈ items, measure other ≤ measure greatest := by
  obtain ⟨front, back, rfl, before, behind⟩ := first
  intro other member
  rcases List.mem_append.mp member with old | member
  · exact (before other old).le
  · rcases List.mem_cons.mp member with rfl | later
    · exact le_rfl
    · exact behind other later

/-- The greatest item is one of the items. -/
theorem mem {greatest : α} (first : FirstGreatest measure items greatest) : greatest ∈ items := by
  obtain ⟨front, back, rfl, -⟩ := first
  exact List.mem_append_right _ List.mem_cons_self

/-- An item greater than all others, at the end, is the first greatest one. -/
theorem last {item : α} (greater : ∀ other ∈ items, measure other < measure item) :
    FirstGreatest measure (items ++ [item]) item :=
  ⟨items, [], rfl, greater, fun _ member => absurd member List.not_mem_nil⟩

/-- If no item is greater than the first one, that is the first greatest. -/
theorem head {item : α} (smaller : ∀ other ∈ items, measure other ≤ measure item) :
    FirstGreatest measure (item :: items) item :=
  ⟨[], items, rfl, fun _ member => absurd member List.not_mem_nil, smaller⟩

/--
A search that keeps an item only if it is greater than what it has finds the first greatest one.

It finds none if no item is greater than what it starts with.
-/
theorem of_search {tag : α → τ} {best : List α → β × τ}
    (keeps : ∀ items item, best (items ++ [item]) =
      if (best items).1 < measure item then (measure item, tag item) else best items)
    (items : List α) :
    (∀ item ∈ items, measure item ≤ (best []).1) ∧ best items = best [] ∨
      ∃ greatest, FirstGreatest measure items greatest ∧
        best items = (measure greatest, tag greatest) := by
  -- By induction from the end, as the search goes.
  induction items using List.reverseRecOn with
  | nil => exact .inl ⟨fun _ member => absurd member List.not_mem_nil, rfl⟩
  | append_singleton items item ih =>
    rw [keeps]
    rcases ih with ⟨small, start⟩ | ⟨greatest, first, found⟩
    · rw [start]
      split_ifs with greater
      · exact .inr ⟨item, .last fun other member => (small other member).trans_lt greater, rfl⟩
      · refine .inl ⟨fun other member => ?_, rfl⟩
        rcases List.mem_append.mp member with old | new
        · exact small other old
        · rw [List.mem_singleton.mp new]
          exact not_lt.mp greater
    · rw [found]
      split_ifs with greater
      · exact .inr ⟨item, .last fun other member => (first.le other member).trans_lt greater, rfl⟩
      · exact .inr ⟨greatest, first.snoc (not_lt.mp greater), rfl⟩

end FirstGreatest

end Pocky
