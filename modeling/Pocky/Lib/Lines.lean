import Mathlib.Algebra.Order.Ring.Int
import Mathlib.Data.List.Basic
import Mathlib.Data.List.Count

/-! Rows and columns of the offsets of a text whose lines end at a separator. -/

namespace Pocky.Lines

variable {α : Type} [DecidableEq α] (separator : α) (text : Nat → α)

/-- The row of an offset: how many lines end before it. -/
def rowAt : Nat → Nat
  | 0 => 0
  | offset + 1 => if text offset = separator then rowAt offset + 1 else rowAt offset

/-- The column of an offset: how far it is from the start of its line. -/
def colAt : Nat → Nat
  | 0 => 0
  | offset + 1 => if text offset = separator then 0 else colAt offset + 1

variable {separator text}

/-- Behind a separator the next line starts. -/
theorem rowAt_succ_separator {offset : Nat} (ends : text offset = separator) :
    rowAt separator text (offset + 1) = rowAt separator text offset + 1 := by
  rw [rowAt, if_pos ends]

/-- Behind any other item the line goes on. -/
theorem rowAt_succ_other {offset : Nat} (other : text offset ≠ separator) :
    rowAt separator text (offset + 1) = rowAt separator text offset := by
  rw [rowAt, if_neg other]

/-- Behind a separator the column is zero. -/
theorem colAt_succ_separator {offset : Nat} (ends : text offset = separator) :
    colAt separator text (offset + 1) = 0 := by
  rw [colAt, if_pos ends]

/-- Behind any other item the column is one more. -/
theorem colAt_succ_other {offset : Nat} (other : text offset ≠ separator) :
    colAt separator text (offset + 1) = colAt separator text offset + 1 := by
  rw [colAt, if_neg other]

/-- The column counts items before the offset. -/
theorem colAt_le (offset : Nat) : colAt separator text offset ≤ offset := by
  induction offset with
  | zero => exact Nat.le_refl 0
  | succ offset ih =>
    rw [colAt]
    split <;> omega

/-- The row counts items before the offset. -/
theorem rowAt_le (offset : Nat) : rowAt separator text offset ≤ offset := by
  induction offset with
  | zero => exact Nat.le_refl 0
  | succ offset ih =>
    rw [rowAt]
    split <;> omega

/-- Rows depend on the text before the offset only. -/
theorem rowAt_congr {other : Nat → α} {offset : Nat}
    (same : ∀ index, index < offset → other index = text index) :
    rowAt separator other offset = rowAt separator text offset := by
  induction offset with
  | zero => rfl
  | succ offset ih =>
    rw [rowAt, rowAt, same offset (by omega), ih fun index before => same index (by omega)]

/-- Columns depend on the text before the offset only. -/
theorem colAt_congr {other : Nat → α} {offset : Nat}
    (same : ∀ index, index < offset → other index = text index) :
    colAt separator other offset = colAt separator text offset := by
  induction offset with
  | zero => rfl
  | succ offset ih =>
    rw [colAt, colAt, same offset (by omega), ih fun index before => same index (by omega)]

/-- Along a stretch without separators the row stays. -/
theorem rowAt_add {start count : Nat} (plain : ∀ index < count, text (start + index) ≠ separator) :
    rowAt separator text (start + count) = rowAt separator text start := by
  induction count with
  | zero => rfl
  | succ count ih =>
    rw [← Nat.add_assoc, rowAt_succ_other (plain count (by omega)),
      ih fun index before => plain index (by omega)]

/-- Along a stretch without separators the column grows with the offset. -/
theorem colAt_add {start count : Nat} (plain : ∀ index < count, text (start + index) ≠ separator) :
    colAt separator text (start + count) = colAt separator text start + count := by
  induction count with
  | zero => rfl
  | succ count ih =>
    rw [← Nat.add_assoc, colAt_succ_other (plain count (by omega)),
      ih fun index before => plain index (by omega), Nat.add_assoc]

/-- Rows never decrease. -/
theorem rowAt_mono {first second : Nat} (ordered : first ≤ second) :
    rowAt separator text first ≤ rowAt separator text second := by
  induction ordered with
  | refl => exact Nat.le_refl _
  | step _ ih =>
    rw [Nat.succ_eq_add_one, rowAt]
    split <;> omega

/-- A later offset lies on a later row, or further right on the same one. -/
theorem position_lt {first second : Nat} (before : first < second) :
    rowAt separator text first < rowAt separator text second ∨
      rowAt separator text first = rowAt separator text second ∧
        colAt separator text first < colAt separator text second := by
  -- By induction on the later offset: each item moves right or to the next row.
  induction before with
  | refl =>
    by_cases ends : text first = separator
    · rw [Nat.succ_eq_add_one, rowAt_succ_separator ends]
      exact .inl (Nat.lt_succ_self _)
    · rw [Nat.succ_eq_add_one, rowAt_succ_other ends, colAt_succ_other ends]
      exact .inr ⟨rfl, Nat.lt_succ_self _⟩
  | @step last _ ih =>
    by_cases ends : text last = separator
    · rw [Nat.succ_eq_add_one, rowAt_succ_separator ends]
      omega
    · rw [Nat.succ_eq_add_one, rowAt_succ_other ends, colAt_succ_other ends]
      omega

/-- Different offsets have different rows or different columns. -/
theorem position_inj {first second : Nat}
    (rows : rowAt separator text first = rowAt separator text second)
    (cols : colAt separator text first = colAt separator text second) : first = second := by
  rcases Nat.lt_trichotomy first second with before | same | behind
  · have later := @position_lt α _ separator text first second before
    omega
  · exact same
  · have later := @position_lt α _ separator text second first behind
    omega

/-- Column zero is found at the start of the text and behind separators. -/
theorem colAt_eq_zero {offset : Nat} :
    colAt separator text offset = 0 ↔ offset = 0 ∨ text (offset - 1) = separator := by
  cases offset with
  | zero => simp [colAt]
  | succ offset =>
    rw [colAt, Nat.add_sub_cancel]
    split <;> simp_all

/-- The row is how often the separator stands in the text before the offset. -/
theorem rowAt_eq_count (offset : Nat) :
    rowAt separator text offset = ((List.range offset).map text).count separator := by
  induction offset with
  | zero => rfl
  | succ offset ih =>
    rw [rowAt, List.range_succ, List.map_append, List.count_append, ← ih]
    by_cases ends : text offset = separator
    · simp [ends]
    · simp [ends]

/-- The column is how much text stands behind the last separator before the offset. -/
theorem colAt_eq_length (offset : Nat) :
    colAt separator text offset =
      (((List.range offset).map text).reverse.takeWhile (· ≠ separator)).length := by
  induction offset with
  | zero => rfl
  | succ offset ih =>
    rw [colAt, List.range_succ, List.map_append, List.reverse_append, List.map_singleton,
      List.reverse_singleton, List.singleton_append, List.takeWhile_cons]
    by_cases ends : text offset = separator
    · simp [ends]
    · simp only [ends, if_false, ne_eq, not_false_eq_true, decide_true, if_true, List.length_cons,
        ih]

/-- A text has one line more than separators. -/
theorem length_splitOn (separator : α) (items : List α) :
    (items.splitOn separator).length = items.count separator + 1 := by
  -- By induction on the text; each separator starts a new line.
  induction items with
  | nil => rfl
  | cons item items ih =>
    rw [List.splitOn_cons_eq_if_modifyHead]
    by_cases ends : item = separator
    · rw [if_pos (by simp [ends]), List.length_cons, ih, ends, List.count_cons_self]
    · rw [if_neg (by simp [ends]), List.length_modifyHead, ih, List.count_cons_of_ne ends]

/-- A line of a text is made of its items, none of which is the separator. -/
theorem mem_splitOn {separator : α} {items line : List α}
    (inside : line ∈ items.splitOn separator) : separator ∉ line ∧ line ⊆ items := by
  -- By induction on the text; an item that is no separator is put in front of the first line.
  induction items generalizing line with
  | nil =>
    rw [List.splitOn_nil, List.mem_singleton] at inside
    subst inside
    exact ⟨List.not_mem_nil, List.Subset.refl _⟩
  | cons item items ih =>
    rw [List.splitOn_cons_eq_if_modifyHead] at inside
    by_cases ends : item = separator
    · rw [if_pos (by simp [ends]), List.mem_cons] at inside
      rcases inside with rfl | later
      · exact ⟨List.not_mem_nil, List.nil_subset _⟩
      · exact ⟨(ih later).1, List.subset_cons_of_subset _ (ih later).2⟩
    · rw [if_neg (by simp [ends])] at inside
      obtain ⟨first, lines, same⟩ := List.exists_cons_of_ne_nil (List.splitOn_ne_nil separator items)
      rw [same, List.modifyHead_cons, List.mem_cons] at inside
      rcases inside with rfl | later
      · obtain ⟨without, within⟩ := ih (same ▸ List.mem_cons_self)
        refine ⟨?_, List.cons_subset_cons _ within⟩
        rw [List.mem_cons, not_or]
        exact ⟨Ne.symm ends, without⟩
      · obtain ⟨without, within⟩ := ih (same ▸ List.mem_cons_of_mem _ later)
        exact ⟨without, List.subset_cons_of_subset _ within⟩

/-- Behind whole lines, the lines of a text follow. -/
theorem splitOn_behind {separator : α} {front : List α}
    (whole : front = [] ∨ ∃ lines, front = lines ++ [separator]) :
    ∃ before : List (List α), before.length = front.count separator ∧
      ∀ items, (front ++ items).splitOn separator = before ++ items.splitOn separator := by
  rcases whole with rfl | ⟨lines, rfl⟩
  · exact ⟨[], rfl, fun _ => rfl⟩
  · refine ⟨lines.splitOn separator, ?_, fun items => ?_⟩
    · rw [length_splitOn, List.count_append, List.count_singleton_self]
    · rw [List.append_assoc, List.singleton_append, List.splitOn_append_cons_self]

/-- In front of whole lines, the lines of a text precede. -/
theorem splitOn_ahead {separator : α} {back : List α}
    (whole : back = [] ∨ ∃ lines, back = separator :: lines) :
    ∃ behind : List (List α), ∀ items, (items ++ back).splitOn separator =
      items.splitOn separator ++ behind := by
  rcases whole with rfl | ⟨lines, rfl⟩
  · exact ⟨[], fun items => by rw [List.append_nil, List.append_nil]⟩
  · exact ⟨lines.splitOn separator, fun items => List.splitOn_append_cons_self items lines⟩

/-- Taking whole lines out of a text leaves an empty line between the lines before and behind. -/
theorem splitOn_emptied {separator : α} {front middle back : List α}
    (start : front = [] ∨ ∃ lines, front = lines ++ [separator])
    (stop : back = [] ∨ ∃ lines, back = separator :: lines) :
    (front ++ back).splitOn separator =
      ((front ++ (middle ++ back)).splitOn separator).take (front.count separator) ++ [[]] ++
        ((front ++ (middle ++ back)).splitOn separator).drop
          ((front ++ middle).count separator + 1) := by
  obtain ⟨before, counted, ahead⟩ := splitOn_behind start
  obtain ⟨behind, follows⟩ := splitOn_ahead stop
  have whole : (front ++ (middle ++ back)).splitOn separator =
      before ++ (middle.splitOn separator ++ behind) := by rw [ahead, follows]
  have emptied : (front ++ back).splitOn separator = before ++ ([[]] ++ behind) := by
    have empty := follows []
    rw [List.nil_append, List.splitOn_nil] at empty
    rw [ahead, empty]
  have length := length_splitOn separator middle
  rw [whole, emptied, ← counted, List.take_left, List.count_append, Nat.add_assoc, ← counted,
    ← length, List.drop_append, List.drop_eq_nil_of_le (Nat.le_add_right _ _),
    Nat.add_sub_cancel_left, List.drop_left, List.nil_append, List.append_assoc]

end Pocky.Lines
