import Mathlib.Data.List.Basic
import Mathlib.Data.List.Rotate

/-! Taking turns: a cursor goes round a list, and how many others it comes to before an item. -/

namespace Pocky.Turns

variable {α : Type}

/-- The items in the order in which a cursor comes to them: those behind it, and the others after them. -/
def order (items : List α) (cursor : Nat) : List α := items.drop (cursor + 1) ++ items.take (cursor + 1)

/-- Before the end of the list the order is a rotation. -/
theorem order_eq_rotate {items : List α} {cursor : Nat} (inside : cursor < items.length) :
    order items cursor = items.rotate (cursor + 1) :=
  (List.rotate_eq_drop_append_take inside).symm

/-- The order has as many items as the list. -/
theorem length_order (items : List α) (cursor : Nat) : (order items cursor).length = items.length := by
  rw [order, List.length_append, List.length_drop, List.length_take]
  omega

/-- It has the same items. -/
theorem mem_order {items : List α} {cursor : Nat} {item : α} :
    item ∈ order items cursor ↔ item ∈ items := by
  rw [order, List.mem_append, or_comm, ← List.mem_append, List.take_append_drop]

/-- What comes at some place of the order. -/
theorem getElem_order {items : List α} {cursor place : Nat} (inside : cursor < items.length)
    (within : place < (order items cursor).length) :
    (order items cursor)[place] =
      items.get ⟨(cursor + 1 + place) % items.length, Nat.mod_lt _ (Nat.zero_lt_of_lt inside)⟩ := by
  simp only [order_eq_rotate inside, List.getElem_rotate, List.get_eq_getElem]
  congr 2
  omega

/-- When the cursor has come to a place, that item is last, and those in front of it before it. -/
theorem order_moved {items : List α} {cursor place : Nat} (inside : cursor < items.length)
    (within : place < items.length) :
    order items ((cursor + 1 + place) % items.length) =
      (order items cursor).drop (place + 1) ++ (order items cursor).take (place + 1) := by
  have positive := Nat.zero_lt_of_lt inside
  rw [order_eq_rotate (Nat.mod_lt _ positive), order_eq_rotate inside,
    ← List.rotate_eq_drop_append_take (by rw [List.length_rotate]; omega), List.rotate_rotate,
    ← List.rotate_mod items (_ + 1), Nat.mod_add_mod, List.rotate_mod]
  congr 1

/-- A new item at the end comes before those that the cursor has passed. -/
theorem order_append {items : List α} {cursor : Nat} (inside : cursor < items.length) (new : α) :
    order (items ++ [new]) cursor = items.drop (cursor + 1) ++ new :: items.take (cursor + 1) := by
  rw [order, List.drop_append_of_le_length inside, List.take_append_of_le_length inside,
    List.append_assoc]
  rfl

/-- An item behind the cursor is taken out. -/
theorem order_remove_behind {front back : List α} {item : α} {cursor : Nat}
    (behind : cursor < front.length) :
    order (front ++ item :: back) cursor =
        front.drop (cursor + 1) ++ item :: (back ++ front.take (cursor + 1)) ∧
      order (front ++ back) cursor = front.drop (cursor + 1) ++ (back ++ front.take (cursor + 1)) := by
  constructor
  · rw [order, List.drop_append_of_le_length behind, List.take_append_of_le_length behind,
      List.append_assoc, List.cons_append]
  · rw [order, List.drop_append_of_le_length behind, List.take_append_of_le_length behind,
      List.append_assoc]

/-- An item that the cursor has passed is taken out, and the cursor goes back by one. -/
theorem order_remove_passed {front back : List α} {item : α} {cursor : Nat} (positive : 0 < cursor)
    (passed : front.length ≤ cursor) :
    order (front ++ item :: back) cursor = back.drop (cursor - front.length) ++ front ++
        item :: back.take (cursor - front.length) ∧
      order (front ++ back) (cursor - 1) =
        back.drop (cursor - front.length) ++ front ++ back.take (cursor - front.length) := by
  constructor
  · rw [order, List.drop_append, List.take_append, List.drop_of_length_le (by omega),
      List.take_of_length_le (by omega), show cursor + 1 - front.length = cursor - front.length + 1 by omega,
      List.drop_succ_cons, List.take_succ_cons, List.nil_append, List.append_assoc]
  · rw [order, Nat.sub_add_cancel positive, List.drop_append, List.take_append,
      List.drop_of_length_le passed, List.take_of_length_le passed, List.nil_append, List.append_assoc]

variable [DecidableEq α]

/-- How many items the cursor comes to before an item. -/
def turns (items : List α) (cursor : Nat) (item : α) : Nat := (order items cursor).idxOf item

/-- An item of the list is reached within one round. -/
theorem turns_lt {items : List α} {cursor : Nat} {item : α} (member : item ∈ items) :
    turns items cursor item < items.length := by
  rw [turns, ← length_order items cursor]
  exact List.idxOf_lt_length_of_mem (mem_order.mpr member)

/-- An item is first found no later than at a place where it is. -/
theorem idxOf_le {items : List α} {item : α} {place : Nat} (found : items[place]? = some item) :
    items.idxOf item ≤ place := by
  by_contra later
  obtain ⟨inside, equal⟩ := List.getElem?_eq_some_iff.mp found
  have differs := List.not_of_lt_findIdx (Nat.not_le.mp later)
  rw [equal, beq_self_eq_true] at differs
  cases differs

/-- One more item in between is one more turn at most. -/
theorem idxOf_insert_le {front back : List α} {item : α} (new : α) :
    (front ++ new :: back).idxOf item ≤ (front ++ back).idxOf item + 1 := by
  by_cases early : item ∈ front
  · rw [List.idxOf_append_of_mem early, List.idxOf_append_of_mem early]
    omega
  · rw [List.idxOf_append_of_notMem early, List.idxOf_append_of_notMem early]
    by_cases same : new = item
    · rw [same, List.idxOf_cons_self]
      omega
    · rw [List.idxOf_cons_ne _ same]
      omega

/-- Another item less is not a turn more. -/
theorem idxOf_remove_le {front back : List α} {item other : α} (differ : other ≠ item) :
    (front ++ back).idxOf item ≤ (front ++ other :: back).idxOf item := by
  by_cases early : item ∈ front
  · rw [List.idxOf_append_of_mem early, List.idxOf_append_of_mem early]
  · rw [List.idxOf_append_of_notMem early, List.idxOf_append_of_notMem early,
      List.idxOf_cons_ne _ differ]
    omega

/-- A new item at the end is one more turn at most. -/
theorem turns_append {items : List α} {cursor : Nat} (inside : cursor < items.length) (new item : α) :
    turns (items ++ [new]) cursor item ≤ turns items cursor item + 1 := by
  rw [turns, turns, order_append inside, order]
  exact idxOf_insert_le new

/-- When the cursor has come to a place in front of an item, it has that many turns less to go. -/
theorem turns_moved {items : List α} {cursor place : Nat} {item : α} (inside : cursor < items.length)
    (member : item ∈ items) (before : place < turns items cursor item) :
    turns items ((cursor + 1 + place) % items.length) item + place + 1 ≤ turns items cursor item := by
  have bound : turns items cursor item < items.length := turns_lt member
  have here : (order items cursor)[turns items cursor item]? = some item :=
    List.getElem?_idxOf (mem_order.mpr member)
  have there : ((order items cursor).drop (place + 1) ++
      (order items cursor).take (place + 1))[turns items cursor item - (place + 1)]? = some item := by
    rw [List.getElem?_append_left (by rw [List.length_drop, length_order]; omega), List.getElem?_drop,
      show place + 1 + (turns items cursor item - (place + 1)) = turns items cursor item by omega, here]
  have fewer := idxOf_le there
  rw [← order_moved inside (by omega)] at fewer
  rw [turns]
  omega

end Pocky.Turns
