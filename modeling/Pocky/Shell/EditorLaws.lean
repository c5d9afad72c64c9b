import Pocky.Lib.Zipper
import Pocky.Memory.ByteMoves
import Pocky.Shell.Editor

/-! The cursor of the editor: what each of its scans finds, and which keys keep it in its place. -/

namespace Pocky.TextEditor

/-- The row of an offset of a buffer. -/
abbrev rowOf (buffer : Buffer) (pos : Nat) : Nat := Lines.rowAt newline buffer pos

/-- The column of an offset of a buffer. -/
abbrev colOf (buffer : Buffer) (pos : Nat) : Nat := Lines.colAt newline buffer pos

/-- A line of a text: where it starts, and how long it is. -/
structure LineAt (buffer : Buffer) (size row start length : Nat) : Prop where
  /-- It starts inside the text. -/
  inside : start < size
  /-- It ends inside the text. -/
  fits : start + length ≤ size
  /-- It is the row it is said to be. -/
  row : rowOf buffer start = row
  /-- It starts a row. -/
  col : colOf buffer start = 0
  /-- No newline stands in it. -/
  plain : ∀ index < length, buffer (start + index) ≠ newline

/-- The rest of a line ends at the first newline, or with the text. -/
theorem restOfLine_spec (buffer : Buffer) (remaining pos : Nat) :
    restOfLine buffer remaining pos ≤ remaining ∧
    ∀ index < restOfLine buffer remaining pos, buffer (pos + index) ≠ newline := by
  -- By induction on what is left of the text.
  induction remaining generalizing pos with
  | zero => exact ⟨Nat.le_refl 0, fun _ absurdly => absurd absurdly (Nat.not_lt_zero _)⟩
  | succ remaining ih =>
    obtain ⟨fits, plain⟩ := ih (pos + 1)
    rw [restOfLine]
    split
    · exact ⟨Nat.zero_le _, fun _ absurdly => absurd absurdly (Nat.not_lt_zero _)⟩
    · rename_i other
      constructor
      · omega
      · intro index before
        cases index with
        | zero => exact other
        | succ index =>
          rw [Nat.add_comm index, ← Nat.add_assoc]
          exact plain index (by omega)

/-- The scan for a row finds its first offset, or there is none. -/
theorem scanLines_cases (buffer : Buffer) (row remaining pos : Nat) :
    (scanLines buffer row remaining pos (rowOf buffer pos) = noLine ∧
      ∀ offset, pos ≤ offset → offset < pos + remaining → rowOf buffer offset ≠ row) ∨
    ∃ start, pos ≤ start ∧ start < pos + remaining ∧ rowOf buffer start = row ∧
      (start = pos ∨ colOf buffer start = 0) ∧
      scanLines buffer row remaining pos (rowOf buffer pos) =
        restOfLine buffer (pos + remaining - start) start := by
  -- By induction on what is left of the text; the row counter is the row of the offset.
  induction remaining generalizing pos with
  | zero =>
    left
    exact ⟨rfl, fun offset low high => by omega⟩
  | succ remaining ih =>
    rw [scanLines]
    by_cases here : rowOf buffer pos = row
    · right
      rw [if_pos here]
      exact ⟨pos, Nat.le_refl pos, by omega, here, .inl rfl, by rw [Nat.add_sub_cancel_left]⟩
    · have counter : (if buffer pos = newline then rowOf buffer pos + 1 else rowOf buffer pos) =
          rowOf buffer (pos + 1) := rfl
      rw [if_neg here, counter]
      rcases ih (pos + 1) with ⟨missing, none⟩ | ⟨start, low, high, isRow, starts, length⟩
      · left
        refine ⟨missing, fun offset low high => ?_⟩
        by_cases first : offset = pos
        · rw [first]
          exact here
        · exact none offset (by omega) (by omega)
      · right
        refine ⟨start, by omega, by omega, isRow, .inr ?_, ?_⟩
        · rcases starts with next | zero
          · -- The row changes here, so this character is a newline.
            by_cases ends : buffer pos = newline
            · rw [next]
              exact Lines.colAt_succ_separator ends
            · rw [next, rowOf, Lines.rowAt_succ_other ends] at isRow
              exact absurd isRow here
          · exact zero
        · rw [length, show pos + 1 + remaining = pos + (remaining + 1) by omega]

/-- A row that is found is a line, and any other has no offset in the text. -/
theorem getLineLength_cases (editor : TextEditor) (row : Nat) :
    (editor.getLineLength row = noLine ∧
      ∀ offset < editor.bufferSize, rowOf editor.buffer offset ≠ row) ∨
    ∃ start, LineAt editor.buffer editor.bufferSize row start (editor.getLineLength row) := by
  rcases scanLines_cases editor.buffer row editor.bufferSize 0 with
    ⟨missing, none⟩ | ⟨start, low, high, isRow, starts, length⟩
  · left
    exact ⟨missing, fun offset inside => none offset (Nat.zero_le _) (by omega)⟩
  · right
    obtain ⟨fits, plain⟩ := restOfLine_spec editor.buffer (0 + editor.bufferSize - start) start
    have found : editor.getLineLength row =
        restOfLine editor.buffer (0 + editor.bufferSize - start) start := length
    have zero : colOf editor.buffer start = 0 := by
      rcases starts with first | zero
      · rw [first]
        rfl
      · exact zero
    rw [found]
    exact ⟨start, by omega, by omega, isRow, zero, plain⟩

/-- Along a line the columns count from its start. -/
theorem LineAt.position {buffer : Buffer} {size row start length col : Nat}
    (line : LineAt buffer size row start length) (within : col ≤ length) :
    rowOf buffer (start + col) = row ∧ colOf buffer (start + col) = col := by
  have plain : ∀ index < col, buffer (start + index) ≠ newline :=
    fun index before => line.plain index (by omega)
  constructor
  · rw [rowOf, Lines.rowAt_add plain]
    exact line.row
  · rw [colOf, Lines.colAt_add plain, show Lines.colAt newline buffer start = 0 from line.col,
      Nat.zero_add]

/-- The scan for a position finds the offset that has it. -/
theorem scanPosition_eq {buffer : Buffer} {row col target : Nat} (isRow : rowOf buffer target = row)
    (isCol : colOf buffer target = col) (remaining pos : Nat) (low : pos ≤ target)
    (high : target ≤ pos + remaining) :
    scanPosition buffer row col remaining pos (rowOf buffer pos) (colOf buffer pos) = target := by
  -- By induction on what is left of the text; the counters are those of the offset.
  induction remaining generalizing pos with
  | zero =>
    rw [scanPosition]
    omega
  | succ remaining ih =>
    rw [scanPosition]
    by_cases here : rowOf buffer pos = row ∧ colOf buffer pos = col
    · rw [if_pos here]
      exact Lines.position_inj (here.1.trans isRow.symm) (here.2.trans isCol.symm)
    · rw [if_neg here]
      have further : pos ≠ target := by
        rintro rfl
        exact here ⟨isRow, isCol⟩
      have rest := ih (pos + 1) (by omega) (by omega)
      by_cases ends : buffer pos = newline
      · rw [rowOf, colOf, Lines.rowAt_succ_separator ends, Lines.colAt_succ_separator ends] at rest
        rw [if_pos ends]
        exact rest
      · rw [rowOf, colOf, Lines.rowAt_succ_other ends, Lines.colAt_succ_other ends] at rest
        rw [if_neg ends]
        exact rest

/-- The start of the line is as far back as the column says. -/
theorem lineStart_eq (buffer : Buffer) (pos : Nat) :
    lineStart buffer pos = pos - colOf buffer pos := by
  induction pos with
  | zero => rfl
  | succ pos ih =>
    rw [lineStart, colOf]
    by_cases ends : buffer pos = newline
    · rw [if_pos ends, Lines.colAt_succ_separator ends, Nat.sub_zero]
    · rw [if_neg ends, Lines.colAt_succ_other ends, ih, Nat.add_sub_add_right]

/-- The scan for the start of a row finds it, if the text has so many rows. -/
theorem scanRowStart_spec (buffer : Buffer) (row remaining pos : Nat)
    (low : rowOf buffer pos ≤ row) (high : row ≤ rowOf buffer (pos + remaining)) :
    ∃ start, scanRowStart buffer row remaining pos (rowOf buffer pos) = start ∧
      start ≤ pos + remaining ∧ rowOf buffer start = row ∧
      (start = pos ∨ colOf buffer start = 0) := by
  -- By induction on what is left of the text; the row is reached behind a newline.
  induction remaining generalizing pos with
  | zero => exact ⟨pos, rfl, Nat.le_refl _, Nat.le_antisymm low high, .inl rfl⟩
  | succ remaining ih =>
    rw [scanRowStart]
    by_cases before : rowOf buffer pos < row
    · have counter : (if buffer pos = newline then rowOf buffer pos + 1 else rowOf buffer pos) =
          rowOf buffer (pos + 1) := rfl
      have next : rowOf buffer (pos + 1) ≤ row := by
        rw [← counter]
        split <;> omega
      rw [if_pos before, counter]
      obtain ⟨start, found, inside, isRow, starts⟩ := ih (pos + 1) next
        (by rw [Nat.add_right_comm, Nat.add_assoc]; exact high)
      refine ⟨start, found, by omega, isRow, .inr ?_⟩
      rcases starts with first | zero
      · by_cases ends : buffer pos = newline
        · rw [first]
          exact Lines.colAt_succ_separator ends
        · rw [first, rowOf, Lines.rowAt_succ_other ends] at isRow
          exact absurd isRow (Nat.ne_of_lt before)
      · exact zero
    · rw [if_neg before]
      exact ⟨pos, rfl, by omega, by omega, .inl rfl⟩

/-- The scan for the end of a row stays inside the text. -/
theorem scanRowEnd_le (buffer : Buffer) (row remaining pos currentRow : Nat) :
    scanRowEnd buffer row remaining pos currentRow ≤ pos + remaining := by
  induction remaining generalizing pos currentRow with
  | zero => exact Nat.le_refl _
  | succ remaining ih =>
    rw [scanRowEnd]
    split
    · split
      · split
        · omega
        · exact (ih (pos + 1) (currentRow + 1)).trans (by omega)
      · exact (ih (pos + 1) currentRow).trans (by omega)
    · omega

/-- The cursor stands in the text, and its row and column are those of its offset. -/
structure Coherent (editor : TextEditor) : Prop where
  /-- The cursor is not behind the text. -/
  cursor_le : editor.cursorPos ≤ editor.bufferSize
  /-- One character of the buffer is never text. -/
  size_le : editor.bufferSize ≤ maxBufferSize - 1
  /-- The row is that of the offset. -/
  row : editor.cursorRow = rowOf editor.buffer editor.cursorPos
  /-- The column is that of the offset. -/
  col : editor.cursorCol = colOf editor.buffer editor.cursorPos

/-- While lines are selected, the selection was started at a row of the text. -/
def Selects (editor : TextEditor) : Prop :=
  editor.mode = .visual → editor.selectionStartRow ≤ rowOf editor.buffer editor.bufferSize

/-- Outside the mode for selecting nothing is asked of a selection. -/
theorem Selects.of_mode {editor : TextEditor} (other : editor.mode ≠ .visual) : editor.Selects :=
  fun mode => absurd mode other

/-- The text before the cursor and the text behind it. -/
def zipper (editor : TextEditor) : Zipper UInt8 :=
  .ofArray editor.buffer editor.bufferSize editor.cursorPos

/-- Coherence does not look at the mode, the screen, the selection or the file. -/
theorem Coherent.of_same {editor next : TextEditor} (coherent : editor.Coherent)
    (buffer : next.buffer = editor.buffer) (size : next.bufferSize = editor.bufferSize)
    (pos : next.cursorPos = editor.cursorPos) (row : next.cursorRow = editor.cursorRow)
    (col : next.cursorCol = editor.cursorCol) : next.Coherent where
  cursor_le := by
    rw [pos, size]
    exact coherent.cursor_le
  size_le := by
    rw [size]
    exact coherent.size_le
  row := by
    rw [row, buffer, pos]
    exact coherent.row
  col := by
    rw [col, buffer, pos]
    exact coherent.col

/-- Scrolling up moves nothing but the screen. -/
theorem scrollUp_eq (editor : TextEditor) :
    ∃ screenRow, editor.scrollUp = { editor with screenRow := screenRow } := by
  rw [scrollUp]
  split
  · exact ⟨_, rfl⟩
  · exact ⟨editor.screenRow, rfl⟩

/-- Scrolling down moves nothing but the screen. -/
theorem scrollDown_eq (editor : TextEditor) :
    ∃ screenRow, editor.scrollDown = { editor with screenRow := screenRow } := by
  rw [scrollDown]
  split
  · exact ⟨_, rfl⟩
  · exact ⟨editor.screenRow, rfl⟩

/-- Going to a line puts the cursor on it. -/
theorem Coherent.goToRow {editor : TextEditor} (coherent : editor.Coherent) {row start length : Nat}
    (line : LineAt editor.buffer editor.bufferSize row start length) :
    (editor.goToRow row length).Coherent := by
  -- The column is cut to the length, and the scan finds the offset there.
  have within : (if length < editor.cursorCol then length else editor.cursorCol) ≤ length := by
    split <;> omega
  obtain ⟨isRow, isCol⟩ := line.position within
  have fits := line.fits
  have found := scanPosition_eq isRow isCol editor.bufferSize 0 (Nat.zero_le _) (by omega)
  have pos : (editor.goToRow row length).cursorPos =
      start + if length < editor.cursorCol then length else editor.cursorCol := found
  refine ⟨?_, coherent.size_le, ?_, ?_⟩
  · rw [pos]
    show _ ≤ editor.bufferSize
    omega
  · rw [pos]
    exact isRow.symm
  · rw [pos]
    exact isCol.symm

/-- Moving up or down leaves the text as it is and the cursor coherent. -/
theorem Coherent.moveRow {editor : TextEditor} (coherent : editor.Coherent) (row : Nat)
    (there : editor.getLineLength row ≠ noLine) :
    (editor.goToRow row (editor.getLineLength row)).Coherent := by
  rcases editor.getLineLength_cases row with ⟨missing, -⟩ | ⟨start, line⟩
  · exact absurd missing there
  · exact coherent.goToRow line

/-- The row above is gone to with a coherent cursor. -/
theorem Coherent.rowUp {editor above : TextEditor} (coherent : editor.Coherent)
    (moves : editor.rowUp = some above) :
    ∃ row length, above = editor.goToRow row length ∧ above.Coherent := by
  rw [TextEditor.rowUp] at moves
  split at moves
  · rw [Option.ite_none_left_eq_some] at moves
    obtain ⟨there, moved⟩ := moves
    refine ⟨_, _, (Option.some.inj moved).symm, ?_⟩
    rw [← Option.some.inj moved]
    exact coherent.moveRow _ there
  · cases moves

/-- The row below is gone to with a coherent cursor. -/
theorem Coherent.rowDown {editor below : TextEditor} (coherent : editor.Coherent)
    (moves : editor.rowDown = some below) :
    ∃ row length, below = editor.goToRow row length ∧ below.Coherent := by
  rw [TextEditor.rowDown, Option.ite_none_left_eq_some] at moves
  obtain ⟨there, moved⟩ := moves
  refine ⟨_, _, (Option.some.inj moved).symm, ?_⟩
  rw [← Option.some.inj moved]
  exact coherent.moveRow _ there

/-- Subtraction that does not wrap. -/
theorem wrapSub_eq {first second : Nat} (ordered : second ≤ first) (small : first < 2 ^ 64) :
    wrapSub first second = first - second := by
  rw [wrapSub]
  omega

/-- What a key of the mode for text has to do: the text it leaves, and a coherent cursor. -/
structure Types (editor next : TextEditor) (text : Zipper UInt8) : Prop where
  /-- The cursor is where the text is cut. -/
  zipper : next.zipper = text
  /-- Its row and column are right. -/
  coherent : next.Coherent
  /-- The mode stays. -/
  mode : next.mode = editor.mode
  /-- The editor stays active. -/
  active : next.active = editor.active

/-- Memory holds the buffer of the editor from an address on. -/
def InBytes (editor : TextEditor) (memory : ByteMemory) (base : BitVec 64) : Prop :=
  memory.Holds base maxBufferSize fun index => (editor.buffer index).toBitVec

/-- Moving characters within the buffer is moving their bytes in memory. -/
theorem InBytes.moveChars {editor after : TextEditor} {memory : ByteMemory} {base : BitVec 64}
    (bytes : editor.InBytes memory base) (room : ByteMemory.InMemory base maxBufferSize) {dest src count : Nat}
    (moved : editor.moveChars dest src count = .ok after) :
    after.InBytes (memory.memmove (base + BitVec.ofNat 64 dest) (base + BitVec.ofNat 64 src)
      (BitVec.ofNat 64 count)).2 base := by
  rw [TextEditor.moveChars] at moved
  by_cases beyond : maxBufferSize < dest + count ∨ maxBufferSize < src + count
  · rw [if_pos beyond] at moved
    cases moved
  · rw [if_neg beyond] at moved
    cases moved
    rw [not_or] at beyond
    -- The bytes are moved like the characters they stand for.
    intro index inside
    have there := (bytes.memmove room (by decide) (Nat.le_of_not_lt beyond.1)
      (Nat.le_of_not_lt beyond.2)).1 index inside
    rw [Moves.memmove_map] at there
    exact there

/-- A coherent cursor has the row and the column of the zipper. -/
theorem Coherent.zipper {editor : TextEditor} (coherent : editor.Coherent) :
    editor.cursorRow = editor.zipper.row newline ∧ editor.cursorCol = editor.zipper.col newline := by
  rw [TextEditor.zipper, Zipper.row_ofArray, Zipper.col_ofArray]
  exact ⟨coherent.row, coherent.col⟩

/-- The characters behind the cursor can be moved down by one, and the one before it is gone. -/
theorem Coherent.deleteBefore {editor : TextEditor} (coherent : editor.Coherent)
    (behind : 0 < editor.cursorPos) :
    ∃ next, editor.deleteBefore = .ok next ∧ Types editor next editor.zipper.backspace := by
  have inside := coherent.cursor_le
  have small := coherent.size_le
  have limit : maxBufferSize = 32768 := rfl
  have count : wrapSub editor.bufferSize editor.cursorPos = editor.bufferSize - editor.cursorPos :=
    wrapSub_eq inside (by omega)
  have size : wrapSub editor.bufferSize 1 = editor.bufferSize - 1 := wrapSub_eq (by omega) (by omega)
  have room : ¬ (maxBufferSize < editor.cursorPos - 1 + (editor.bufferSize - editor.cursorPos) ∨
      maxBufferSize < editor.cursorPos + (editor.bufferSize - editor.cursorPos)) := by omega
  rw [TextEditor.deleteBefore, moveChars, count, if_neg room, Run.ok_bind]
  -- The characters before the deleted one are where they were.
  have same : ∀ index, index < editor.cursorPos - 1 →
      Moves.memmove (editor.cursorPos - 1) editor.cursorPos (editor.bufferSize - editor.cursorPos)
        editor.buffer index = editor.buffer index := fun index before => Moves.memmove_below before
  have text := Zipper.ofArray_backspace editor.buffer editor.bufferSize behind
  obtain ⟨pos, position⟩ := Nat.exists_eq_add_of_le' behind
  have previous : editor.cursorPos - 1 = pos := by omega
  by_cases ends : editor.buffer (editor.cursorPos - 1) = newline
  · -- The lines are joined: the row is the one before, and the column is found by a scan.
    have row := coherent.row
    rw [previous] at ends
    rw [position, rowOf, Lines.rowAt_succ_separator ends] at row
    have bound : Lines.rowAt newline editor.buffer pos ≤ pos := Lines.rowAt_le pos
    rw [if_pos (by rw [previous]; exact ends)]
    refine ⟨_, rfl, ⟨?_, ⟨?_, ?_, ?_, ?_⟩, rfl, rfl⟩⟩
    · simp only [TextEditor.zipper, size]
      exact text
    · simp only [size]
      omega
    · simp only [size]
      omega
    · simp only
      rw [row, wrapSub_eq (Nat.le_add_left 1 _) (by omega), Nat.add_sub_cancel, rowOf,
        Lines.rowAt_congr same, previous]
    · simp only
      rw [lineStart_eq, Nat.sub_sub_self (Lines.colAt_le _)]
  · -- Within a line only the column changes.
    have row := coherent.row
    have col := coherent.col
    rw [previous] at ends
    rw [position, rowOf, Lines.rowAt_succ_other ends] at row
    rw [position, colOf, Lines.colAt_succ_other ends] at col
    rw [if_neg (by rw [previous]; exact ends)]
    refine ⟨_, rfl, ⟨?_, ⟨?_, ?_, ?_, ?_⟩, rfl, rfl⟩⟩
    · simp only [TextEditor.zipper, size]
      exact text
    · simp only [size]
      omega
    · simp only [size]
      omega
    · simp only
      rw [row, rowOf, Lines.rowAt_congr same, previous]
    · simp only
      rw [col, colOf, Lines.colAt_congr same, previous, Nat.add_sub_cancel]

/-- The editor with a character put before the cursor, and the row and column not yet changed. -/
def withInserted (editor : TextEditor) (c : UInt8) : TextEditor :=
  { editor with
    buffer := Function.update (Moves.memmove (editor.cursorPos + 1) editor.cursorPos
      (editor.bufferSize - editor.cursorPos) editor.buffer) editor.cursorPos c
    bufferSize := editor.bufferSize + 1
    cursorPos := editor.cursorPos + 1
    modified := true }

/-- While the text is short enough, the characters behind the cursor can be moved up by one. -/
theorem Coherent.insertAt {editor : TextEditor} (coherent : editor.Coherent)
    (room : editor.bufferSize < maxBufferSize - 1) (c : UInt8) :
    editor.insertAt c = .ok (editor.withInserted c) := by
  have inside := coherent.cursor_le
  have limit : maxBufferSize = 32768 := rfl
  have count : wrapSub editor.bufferSize editor.cursorPos = editor.bufferSize - editor.cursorPos :=
    wrapSub_eq inside (by omega)
  have fits : ¬ (maxBufferSize < editor.cursorPos + 1 + (editor.bufferSize - editor.cursorPos) ∨
      maxBufferSize < editor.cursorPos + (editor.bufferSize - editor.cursorPos)) := by omega
  rw [TextEditor.insertAt, moveChars, count, if_neg fits]
  rfl

/-- Behind the new character the row and the column follow from those before it. -/
theorem withInserted_position (editor : TextEditor) (c : UInt8) :
    rowOf (editor.withInserted c).buffer (editor.cursorPos + 1) =
      (if c = newline then rowOf editor.buffer editor.cursorPos + 1
        else rowOf editor.buffer editor.cursorPos) ∧
    colOf (editor.withInserted c).buffer (editor.cursorPos + 1) =
      (if c = newline then 0 else colOf editor.buffer editor.cursorPos + 1) := by
  -- Before the cursor the text is the old one, and at the cursor stands the character.
  have same : ∀ index, index < editor.cursorPos →
      (editor.withInserted c).buffer index = editor.buffer index := by
    intro index before
    simp only [withInserted]
    rw [Function.update_of_ne (by omega), Moves.memmove_below (by omega)]
  have here : (editor.withInserted c).buffer editor.cursorPos = c := by
    simp only [withInserted, Function.update_self]
  rw [rowOf, colOf, Lines.rowAt, Lines.colAt, here, Lines.rowAt_congr same, Lines.colAt_congr same]
  exact ⟨rfl, rfl⟩

/-- A character that is no newline goes into the line. -/
theorem Coherent.insertChar {editor : TextEditor} (coherent : editor.Coherent) {c : UInt8}
    (room : editor.bufferSize < maxBufferSize - 1) (other : c ≠ newline) :
    Types editor { editor.withInserted c with cursorCol := editor.cursorCol + 1 }
      (editor.zipper.insert c) := by
  have inside := coherent.cursor_le
  obtain ⟨row, col⟩ := editor.withInserted_position c
  rw [if_neg other] at row col
  refine ⟨Zipper.ofArray_insert _ _ _ _, ⟨Nat.succ_le_succ inside, ?_, ?_, ?_⟩, rfl, rfl⟩
  · show editor.bufferSize + 1 ≤ _
    omega
  · exact coherent.row.trans row.symm
  · exact (congrArg (· + 1) coherent.col).trans col.symm

/-- A newline starts a new line at the cursor. -/
theorem Coherent.insertNewline {editor : TextEditor} (coherent : editor.Coherent)
    (room : editor.bufferSize < maxBufferSize - 1) :
    Types editor { editor.withInserted newline with
      cursorRow := editor.cursorRow + 1
      cursorCol := 0 }.scrollDown (editor.zipper.insert newline) := by
  have inside := coherent.cursor_le
  obtain ⟨row, col⟩ := editor.withInserted_position newline
  rw [if_pos rfl] at row col
  obtain ⟨screenRow, scrolled⟩ := scrollDown_eq { editor.withInserted newline with
      cursorRow := editor.cursorRow + 1
      cursorCol := 0 }
  rw [scrolled]
  refine ⟨Zipper.ofArray_insert _ _ _ _, ⟨Nat.succ_le_succ inside, ?_, ?_, ?_⟩, rfl, rfl⟩
  · show editor.bufferSize + 1 ≤ _
    omega
  · exact (congrArg (· + 1) coherent.row).trans row.symm
  · exact col.symm

end Pocky.TextEditor
