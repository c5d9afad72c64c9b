import Mathlib.Algebra.Order.Ring.Int
import Mathlib.Data.List.Basic
import Mathlib.Data.List.Perm.Basic

/-! Taking the first elements that pass a test out of a list, up to a number. -/

namespace Pocky

variable {α : Type}

/-- The first elements that pass a test, at most as many as given, and the others in order. -/
def takeFirst (test : α → Bool) : List α → Nat → List α × List α
  | items, 0 => ([], items)
  | [], _ + 1 => ([], [])
  | item :: items, limit + 1 =>
    if test item then
      (item :: (takeFirst test items limit).1, (takeFirst test items limit).2)
    else
      ((takeFirst test items (limit + 1)).1, item :: (takeFirst test items (limit + 1)).2)

/-- What is taken are the first elements that pass. -/
theorem takeFirst_taken (test : α → Bool) (items : List α) (limit : Nat) :
    (takeFirst test items limit).1 = (items.filter test).take limit := by
  -- By induction on the list.
  induction items generalizing limit with
  | nil => cases limit <;> rfl
  | cons item items ih =>
    cases limit with
    | zero => rfl
    | succ limit =>
      by_cases passes : test item = true
      · rw [takeFirst, if_pos passes, List.filter_cons_of_pos passes, List.take_succ_cons, ih]
      · rw [takeFirst, if_neg passes, List.filter_cons_of_neg passes, ih]

/-- The others keep their order. -/
theorem takeFirst_left (test : α → Bool) (items : List α) (limit : Nat) :
    (takeFirst test items limit).2.Sublist items := by
  -- By induction on the list.
  induction items generalizing limit with
  | nil => cases limit <;> exact List.Sublist.refl _
  | cons item items ih =>
    cases limit with
    | zero => exact List.Sublist.refl _
    | succ limit =>
      rw [takeFirst]
      split
      · exact (ih limit).cons item
      · exact (ih (limit + 1)).cons_cons item

/-- No element is lost or doubled. -/
theorem takeFirst_perm (test : α → Bool) (items : List α) (limit : Nat) :
    ((takeFirst test items limit).1 ++ (takeFirst test items limit).2).Perm items := by
  -- By induction on the list.
  induction items generalizing limit with
  | nil => cases limit <;> exact List.Perm.refl _
  | cons item items ih =>
    cases limit with
    | zero => exact List.Perm.refl _
    | succ limit =>
      rw [takeFirst]
      split
      · exact (ih limit).cons item
      · exact List.perm_middle.trans ((ih (limit + 1)).cons item)

/-- Elements that fail the test all stay, in order. -/
theorem takeFirst_failing (test : α → Bool) (items : List α) (limit : Nat) :
    (takeFirst test items limit).2.filter (fun item => !test item) =
      items.filter fun item => !test item := by
  -- By induction on the list.
  induction items generalizing limit with
  | nil => cases limit <;> rfl
  | cons item items ih =>
    cases limit with
    | zero => rfl
    | succ limit =>
      by_cases passes : test item = true
      · rw [takeFirst, if_pos passes, List.filter_cons_of_neg (by simp [passes]), ih]
      · rw [takeFirst, if_neg passes, List.filter_cons_of_pos (by simp [passes]),
          List.filter_cons_of_pos (by simp [passes]), ih]

end Pocky
