import Mathlib.Algebra.Order.Ring.Int
import Mathlib.Data.List.Basic

/-! Growable arrays: removing an element by shifting, and changing the first that passes a test. -/

namespace Pocky

variable {α : Type}

/-- The shift loop: from `index` on, each element is overwritten by its successor. -/
def shiftDown (items : List α) : Nat → Nat → List α
  | 0, _ => items
  | remaining + 1, index =>
    let shifted := match items[index + 1]? with
      | some next => items.set index next
      | none => items
    shiftDown shifted remaining (index + 1)

/-- Removing the element at `index`: the loop stops before the last element, which is popped. -/
def removeAt (items : List α) (index : Nat) : List α :=
  (shiftDown items (items.length - 1 - index) index).dropLast

/-- The loop moves every later element down and leaves the last one twice. -/
theorem shiftDown_append (front : List α) (item : α) (rest : List α) :
    ∃ last, shiftDown (front ++ item :: rest) rest.length front.length = front ++ rest ++ [last] := by
  induction rest generalizing front item with
  | nil => exact ⟨item, by simp [shiftDown]⟩
  | cons next rest ih =>
    obtain ⟨last, shifted⟩ := ih (front ++ [next]) next
    refine ⟨last, ?_⟩
    have read : (front ++ item :: next :: rest)[front.length + 1]? = some next := by simp
    have write : (front ++ item :: next :: rest).set front.length next =
        front ++ [next] ++ next :: rest := by simp
    simp only [List.length_cons, shiftDown, read, write]
    rw [List.length_append, List.length_singleton] at shifted
    rw [shifted]
    simp

/-- The element is gone and every other element keeps its order. -/
theorem removeAt_append (front : List α) (item : α) (rest : List α) :
    removeAt (front ++ item :: rest) front.length = front ++ rest := by
  obtain ⟨last, shifted⟩ := shiftDown_append front item rest
  have steps : (front ++ item :: rest).length - 1 - front.length = rest.length := by
    simp only [List.length_append, List.length_cons]
    omega
  rw [removeAt, steps, shifted, List.dropLast_concat]

/-- Removing the first element leaves the tail. -/
theorem removeAt_zero (item : α) (rest : List α) : removeAt (item :: rest) 0 = rest :=
  removeAt_append [] item rest

/-- Removing an element that is there leaves what erasing it leaves. -/
theorem removeAt_idxOf [DecidableEq α] {items : List α} {item : α} (held : item ∈ items) :
    removeAt items (items.idxOf item) = items.erase item := by
  -- The index is that of the first occurrence, and nothing before it is the element.
  obtain ⟨front, rest, rfl, first⟩ := List.eq_append_cons_of_mem held
  rw [List.idxOf_append_of_notMem first, List.idxOf_cons_self, Nat.add_zero, removeAt_append,
    List.erase_append_right _ first, List.erase_cons_head]

/-- Removing the first element that passes a test leaves those before and behind it. -/
theorem removeAt_findIdx {test : α → Bool} {front : List α} {item : α} (rest : List α)
    (before : ∀ other ∈ front, test other = false) (passes : test item = true) :
    removeAt (front ++ item :: rest) ((front ++ item :: rest).findIdx test) = front ++ rest := by
  -- The index is the number of elements before it.
  have none : ¬ front.findIdx test < front.length := by
    rw [List.findIdx_lt_length]
    rintro ⟨other, member, passes'⟩
    rw [before other member] at passes'
    cases passes'
  rw [List.findIdx_append, if_neg none, List.findIdx_cons, passes, cond_true, Nat.zero_add,
    removeAt_append]

/-- Changing the first element that passes a test. -/
def modifyFirst (test : α → Bool) (change : α → α) : List α → List α
  | [] => []
  | item :: items =>
    if test item then change item :: items else item :: modifyFirst test change items

/-- Either no element passes and nothing changes, or the first one that passes is changed in place. -/
theorem modifyFirst_cases (test : α → Bool) (change : α → α) (items : List α) :
    (items.find? test = none ∧ modifyFirst test change items = items) ∨
    ∃ front item rest, items = front ++ item :: rest ∧ items.find? test = some item ∧
      modifyFirst test change items = front ++ change item :: rest := by
  induction items with
  | nil => exact Or.inl ⟨rfl, rfl⟩
  | cons head items ih =>
    by_cases passes : test head = true
    · refine Or.inr ⟨[], head, items, rfl, List.find?_cons_of_pos passes, ?_⟩
      simp only [modifyFirst, if_pos passes, List.nil_append]
    · rw [List.find?_cons_of_neg passes]
      simp only [modifyFirst, if_neg passes]
      -- Past a head that fails, the rest decides.
      rcases ih with ⟨none, same⟩ | ⟨front, item, rest, split, found, changed⟩
      · exact Or.inl ⟨none, by rw [same]⟩
      · exact Or.inr ⟨head :: front, item, rest, by rw [split]; rfl, found, by rw [changed]; rfl⟩

/-- The changed element is found again if it still passes the test. -/
theorem find?_modifyFirst {test : α → Bool} {change : α → α} {items : List α}
    (keeps : ∀ item, items.find? test = some item → test (change item) = true) :
    (modifyFirst test change items).find? test = (items.find? test).map change := by
  induction items with
  | nil => rfl
  | cons head items ih =>
    by_cases passes : test head = true
    · have changed := keeps head (List.find?_cons_of_pos passes)
      rw [List.find?_cons_of_pos passes, modifyFirst, if_pos passes, List.find?_cons_of_pos changed]
      rfl
    · rw [List.find?_cons_of_neg passes] at keeps ⊢
      rw [modifyFirst, if_neg passes, List.find?_cons_of_neg passes]
      exact ih keeps

/-- Another test does not notice the change of an element that fails it before and after. -/
theorem find?_modifyFirst_other {test other : α → Bool} {change : α → α}
    (fails : ∀ item, test item = true → other item = false ∧ other (change item) = false)
    (items : List α) : (modifyFirst test change items).find? other = items.find? other := by
  induction items with
  | nil => rfl
  | cons head items ih =>
    by_cases passes : test head = true
    · obtain ⟨before, after⟩ := fails head passes
      rw [modifyFirst, if_pos passes, List.find?_cons_of_neg (by simp [after]),
        List.find?_cons_of_neg (by simp [before])]
    · rw [modifyFirst, if_neg passes]
      by_cases found : other head = true
      · rw [List.find?_cons_of_pos found, List.find?_cons_of_pos found]
      · rw [List.find?_cons_of_neg found, List.find?_cons_of_neg found, ih]

/-- A property that the change keeps is the same for all elements. -/
theorem map_modifyFirst {β : Type} {test : α → Bool} {change : α → α} {items : List α} {view : α → β}
    (keeps : ∀ item, items.find? test = some item → view (change item) = view item) :
    (modifyFirst test change items).map view = items.map view := by
  rcases modifyFirst_cases test change items with
    ⟨-, same⟩ | ⟨front, item, rest, parts, found, changed⟩
  · rw [same]
  · rw [changed, parts, List.map_append, List.map_append, List.map_cons, List.map_cons,
      keeps item found]

/-- Every element afterwards was there before, or is the changed form of one that was. -/
theorem mem_modifyFirst {test : α → Bool} {change : α → α} {items : List α} {item : α}
    (member : item ∈ modifyFirst test change items) :
    item ∈ items ∨ ∃ old ∈ items, item = change old := by
  rcases modifyFirst_cases test change items with ⟨-, same⟩ | ⟨front, old, rest, rfl, -, changed⟩
  · rw [same] at member
    exact Or.inl member
  · rw [changed] at member
    simp only [List.mem_append, List.mem_cons] at member ⊢
    rcases member with inFront | rfl | inRest
    · exact Or.inl (Or.inl inFront)
    · exact Or.inr ⟨old, Or.inr (Or.inl rfl), rfl⟩
    · exact Or.inl (Or.inr (Or.inr inRest))

end Pocky
