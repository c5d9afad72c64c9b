import Pocky.Lib.Lines
import Pocky.Lib.Moves

/-! A text with a cursor in it, as the part before the cursor and the part behind it. -/

namespace Pocky

/-- A text that is cut in two at its cursor. -/
structure Zipper (α : Type) where
  /-- What stands before the cursor. -/
  left : List α
  /-- What stands behind the cursor. -/
  right : List α
  deriving DecidableEq

namespace Zipper

variable {α : Type}

/-- How much text there is. -/
def length (zipper : Zipper α) : Nat := zipper.left.length + zipper.right.length

/-- Putting an item before the cursor. -/
def insert (zipper : Zipper α) (item : α) : Zipper α :=
  { zipper with left := zipper.left ++ [item] }

/-- Taking away the last item before the cursor, if there is one. -/
def backspace (zipper : Zipper α) : Zipper α :=
  { zipper with left := zipper.left.dropLast }

/-- The row of the cursor: how many separators stand before it. -/
def row [DecidableEq α] (separator : α) (zipper : Zipper α) : Nat := zipper.left.count separator

/-- The column of the cursor: how much stands between the last separator before it and itself. -/
def col [DecidableEq α] (separator : α) (zipper : Zipper α) : Nat :=
  (zipper.left.reverse.takeWhile (· ≠ separator)).length

/-- The text in an array, cut at an offset. -/
def ofArray (text : Nat → α) (size cursor : Nat) : Zipper α where
  left := (List.range cursor).map text
  right := (List.range (size - cursor)).map fun index => text (cursor + index)

/-- The cursor stands behind as much text as its offset says. -/
@[simp] theorem length_left (text : Nat → α) (size cursor : Nat) :
    (ofArray text size cursor).left.length = cursor := by
  simp [ofArray]

/-- No text is lost by cutting it. -/
theorem length_ofArray {text : Nat → α} {size cursor : Nat} (inside : cursor ≤ size) :
    (ofArray text size cursor).length = size := by
  simp only [length, ofArray, List.length_map, List.length_range]
  omega

/-- The two parts are the text. -/
theorem left_append_right {text : Nat → α} {size cursor : Nat} (inside : cursor ≤ size) :
    (ofArray text size cursor).left ++ (ofArray text size cursor).right =
      (List.range size).map text := by
  -- The offsets up to the size are those before the cursor and those from it on.
  obtain ⟨rest, rfl⟩ := Nat.exists_eq_add_of_le inside
  simp only [ofArray, Nat.add_sub_cancel_left, List.range_add, List.map_append, List.map_map,
    Function.comp_def]

/-- Making room at the cursor and filling it puts an item before the cursor. -/
theorem ofArray_insert (text : Nat → α) (size cursor : Nat) (item : α) :
    ofArray (Function.update (Moves.memmove (cursor + 1) cursor (size - cursor) text) cursor item)
        (size + 1) (cursor + 1) = (ofArray text size cursor).insert item := by
  rw [insert, ofArray, ofArray, mk.injEq]
  constructor
  · -- Before the cursor nothing moves.
    rw [List.range_succ, List.map_append, List.map_singleton, Function.update_self]
    congr 1
    apply List.map_congr_left
    intro index member
    have before := List.mem_range.mp member
    rw [Function.update_of_ne (by omega), Moves.memmove_below (by omega)]
  · -- Behind the cursor everything moves up by one.
    rw [Nat.add_sub_add_right]
    apply List.map_congr_left
    intro index member
    have behind := List.mem_range.mp member
    have offset : cursor + (cursor + 1 + index - (cursor + 1)) = cursor + index := by omega
    rw [Function.update_of_ne (by omega), Moves.memmove_inside (by omega) (by omega), offset]

/-- Closing the gap before the cursor takes away the last item before it. -/
theorem ofArray_backspace (text : Nat → α) (size : Nat) {cursor : Nat} (positive : 0 < cursor) :
    ofArray (Moves.memmove (cursor - 1) cursor (size - cursor) text) (size - 1) (cursor - 1) =
      (ofArray text size cursor).backspace := by
  obtain ⟨before, rfl⟩ := Nat.exists_eq_add_of_le' positive
  rw [Nat.add_sub_cancel, backspace, ofArray, ofArray, mk.injEq]
  constructor
  · rw [List.range_succ, List.map_append, List.map_singleton, List.dropLast_concat]
    apply List.map_congr_left
    intro index member
    exact Moves.memmove_below (List.mem_range.mp member)
  · -- Behind the cursor everything moves down by one.
    have count : size - 1 - before = size - (before + 1) := by omega
    rw [count]
    apply List.map_congr_left
    intro index member
    have behind := List.mem_range.mp member
    rw [Moves.memmove_inside (by omega) (by omega), Nat.add_sub_cancel_left]

variable [DecidableEq α]

/-- The row of the cursor is that of its offset. -/
theorem row_ofArray (separator : α) (text : Nat → α) (size cursor : Nat) :
    (ofArray text size cursor).row separator = Lines.rowAt separator text cursor :=
  (Lines.rowAt_eq_count cursor).symm

/-- The column of the cursor is that of its offset. -/
theorem col_ofArray (separator : α) (text : Nat → α) (size cursor : Nat) :
    (ofArray text size cursor).col separator = Lines.colAt separator text cursor :=
  (Lines.colAt_eq_length cursor).symm

end Zipper

end Pocky
