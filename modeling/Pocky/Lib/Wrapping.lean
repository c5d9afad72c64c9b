import Mathlib.Algebra.Order.Ring.Int
import Mathlib.Data.List.Basic

/-! Lines of a text that are cut to a width. -/

namespace Pocky

variable {α : Type} {size : Nat}

/-- A list in parts of a given size, the last of which may be shorter. -/
def chunks (size : Nat) (items : List α) : List (List α) :=
  (List.range ((items.length + size - 1) / size)).map fun index =>
    (items.drop (index * size)).take size

/-- A whole part in front of a list is its first part. -/
theorem chunks_append {front : List α} (rest : List α) (positive : 0 < size)
    (whole : front.length = size) : chunks size (front ++ rest) = front :: chunks size rest := by
  have count : ((front ++ rest).length + size - 1) / size = (rest.length + size - 1) / size + 1 := by
    rw [List.length_append, whole, ← Nat.add_div_right _ positive]
    congr 1
    omega
  rw [chunks, count, List.range_succ_eq_map, List.map_cons, List.map_map, chunks]
  congr 1
  · rw [Nat.zero_mul, List.drop_zero, ← whole, List.take_left]
  · -- The other parts lie behind it.
    refine List.map_congr_left fun index _ => ?_
    rw [Function.comp_apply, Nat.succ_mul, Nat.add_comm, ← List.drop_drop, ← whole, List.drop_left]

/-- A list that is short enough is one part. -/
theorem chunks_short {items : List α} (filled : items ≠ []) (short : items.length ≤ size) :
    chunks size items = [items] := by
  have positive := List.length_pos_iff.mpr filled
  have count : (items.length + size - 1) / size = 1 := by
    rw [Nat.div_eq_iff (by omega)]
    omega
  rw [chunks, count]
  simp [List.take_of_length_le short]

/-- A line cut to a width; an empty line stays one line. -/
def wrapped (size : Nat) (line : List α) : List (List α) :=
  match line with
  | [] => [[]]
  | _ :: _ => chunks size line

/-- A line that is short enough is not cut. -/
theorem wrapped_short {line : List α} (short : line.length ≤ size) : wrapped size line = [line] := by
  cases line with
  | nil => rfl
  | cons item line => exact chunks_short (List.cons_ne_nil _ _) short

/-- A line goes on behind its first part. -/
theorem wrapped_append {front : List α} (item : α) (rest : List α) (positive : 0 < size)
    (whole : front.length = size) :
    wrapped size (front ++ item :: rest) = front :: wrapped size (item :: rest) := by
  cases front with
  | nil =>
    rw [List.length_nil] at whole
    omega
  | cons first front => exact chunks_append (item :: rest) positive whole

/-- Pieces without an empty one at the end. -/
def withoutLastEmpty (pieces : List (List α)) : List (List α) :=
  if pieces.getLast?.any List.isEmpty then pieces.dropLast else pieces

/-- A piece in front stays, unless it is the empty one at the end. -/
theorem withoutLastEmpty_cons {piece : List α} {others : List (List α)}
    (stays : piece ≠ [] ∨ others ≠ []) :
    withoutLastEmpty (piece :: others) = piece :: withoutLastEmpty others := by
  cases others with
  | nil => simpa [withoutLastEmpty] using stays
  | cons other others =>
    simp only [withoutLastEmpty, List.getLast?_cons_cons, List.dropLast_cons_cons]
    split <;> rfl

variable [BEq α]

/-- The lines of a text, each cut to a width. -/
def wrappedLines (separator : α) (size : Nat) (text : List α) : List (List α) :=
  (withoutLastEmpty (text.splitOn separator)).flatMap (wrapped size)

/-- The lines of a text, from the line collected so far on. -/
def linesFrom (separator : α) (size : Nat) : List α → List α → List (List α)
  | line, [] => if line.isEmpty then [] else [line]
  | line, item :: text =>
    if item == separator then line :: linesFrom separator size [] text
    else if line.length = size then line :: linesFrom separator size [item] text
    else linesFrom separator size (line ++ [item]) text

/-- Collecting lines item by item comes to the pieces between separators, each cut to the width. -/
theorem linesFrom_eq (separator : α) (positive : 0 < size) {line : List α} (short : line.length ≤ size)
    (text : List α) : linesFrom separator size line text =
      (withoutLastEmpty ((text.splitOn separator).modifyHead (line ++ ·))).flatMap (wrapped size) := by
  -- By induction on the text.
  induction text generalizing line with
  | nil =>
    rw [linesFrom, List.splitOn_nil]
    cases line with
    | nil => rfl
    | cons item line => simp [withoutLastEmpty, wrapped_short short]
  | cons item text ih =>
    rw [linesFrom, List.splitOn_cons_eq_if_modifyHead]
    obtain ⟨first, others, pieces⟩ := List.exists_cons_of_ne_nil (List.splitOn_ne_nil separator text)
    split
    · -- The separator ends the line.
      have empty : ([] : List α).length ≤ size := Nat.zero_le size
      rw [ih empty, List.modifyHead_cons, List.append_nil,
        withoutLastEmpty_cons (Or.inr (List.splitOn_ne_nil separator text)), List.flatMap_cons,
        wrapped_short short, List.singleton_append, pieces]
      rfl
    · rw [pieces] at ih ⊢
      simp only [List.modifyHead_cons] at ih ⊢
      rw [withoutLastEmpty_cons (Or.inl (by simp)), List.flatMap_cons]
      split
      · -- The line is full, and goes on as the next one.
        rename_i full
        have one : [item].length ≤ size := positive
        rw [ih one, withoutLastEmpty_cons (Or.inl (by simp)), List.flatMap_cons,
          wrapped_append item first positive full]
        rfl
      · have fits : (line ++ [item]).length ≤ size := by
          rw [List.length_append, List.length_singleton]
          omega
        rw [ih fits, withoutLastEmpty_cons (Or.inl (by simp)), List.flatMap_cons, List.append_assoc]
        rfl

/-- Collecting the lines of a text from its start. -/
theorem linesFrom_nil (separator : α) (positive : 0 < size) (text : List α) :
    linesFrom separator size [] text = wrappedLines separator size text := by
  have empty : ([] : List α).length ≤ size := Nat.zero_le size
  rw [linesFrom_eq separator positive empty, wrappedLines]
  cases text.splitOn separator <;> rfl

/-- The lines that are collected have no other items. -/
theorem linesFrom_subset {separator : α} {line text piece : List α}
    (member : piece ∈ linesFrom separator size line text) :
    ∀ item ∈ piece, item ∈ line ∨ item ∈ text := by
  -- By induction on the text, with the line collected so far.
  induction text generalizing line with
  | nil =>
    rw [linesFrom] at member
    split at member
    · cases member
    · rw [List.mem_singleton.mp member]
      exact fun item inside => Or.inl inside
  | cons first text ih =>
    intro item inside
    rw [linesFrom] at member
    split at member
    · cases List.mem_cons.mp member with
      | inl same => exact Or.inl (same ▸ inside)
      | inr later =>
        cases ih later item inside with
        | inl none => cases none
        | inr later => exact Or.inr (List.mem_cons_of_mem _ later)
    · split at member
      · cases List.mem_cons.mp member with
        | inl same => exact Or.inl (same ▸ inside)
        | inr later =>
          cases ih later item inside with
          | inl one => exact Or.inr (List.mem_singleton.mp one ▸ List.mem_cons_self)
          | inr later => exact Or.inr (List.mem_cons_of_mem _ later)
      · cases ih member item inside with
        | inl front =>
          cases List.mem_append.mp front with
          | inl front => exact Or.inl front
          | inr one => exact Or.inr (List.mem_singleton.mp one ▸ List.mem_cons_self)
        | inr later => exact Or.inr (List.mem_cons_of_mem _ later)

end Pocky
