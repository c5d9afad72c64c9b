import Pocky.Shell.EditorRuns

/-! Deleting selected lines leaves the lines before them, an empty one, and the lines behind them. -/

namespace Pocky.TextEditor

/-- The text as a list of characters. -/
def text (editor : TextEditor) : List UInt8 := (List.range editor.bufferSize).map editor.buffer

/-- The lines of the text, without the newlines between them. -/
def lines (editor : TextEditor) : List (List UInt8) := editor.text.splitOn newline

/-- The scan for the end of a row finds the newline behind it, or the end of the text. -/
theorem scanRowEnd_spec (buffer : Buffer) (row remaining pos : Nat) (low : rowOf buffer pos ≤ row)
    (high : row ≤ rowOf buffer (pos + remaining)) :
    ∃ stop, scanRowEnd buffer row remaining pos (rowOf buffer pos) = stop ∧ pos ≤ stop ∧
      stop ≤ pos + remaining ∧ rowOf buffer stop = row ∧
      (stop = pos + remaining ∨ buffer stop = newline) := by
  -- By induction on what is left of the text.
  induction remaining generalizing pos with
  | zero => exact ⟨pos, rfl, le_rfl, le_rfl, Nat.le_antisymm low high, .inl rfl⟩
  | succ remaining ih =>
    have further : pos + (remaining + 1) = pos + 1 + remaining := by omega
    rw [further] at high ⊢
    rw [scanRowEnd, if_pos low]
    by_cases ends : buffer pos = newline
    · rw [if_pos ends]
      -- A newline ends the row looked for, or one of the rows before it.
      by_cases last : row < rowOf buffer pos + 1
      · rw [if_pos last]
        exact ⟨pos, rfl, le_rfl, by omega, by omega, .inr ends⟩
      · have next : rowOf buffer (pos + 1) = rowOf buffer pos + 1 := Lines.rowAt_succ_separator ends
        obtain ⟨stop, found, after, inside, isRow, ending⟩ := ih (pos + 1) (by omega) high
        rw [next] at found
        rw [if_neg last]
        exact ⟨stop, found, by omega, inside, isRow, ending⟩
    · have next : rowOf buffer (pos + 1) = rowOf buffer pos := Lines.rowAt_succ_other ends
      obtain ⟨stop, found, after, inside, isRow, ending⟩ := ih (pos + 1) (by omega) high
      rw [next] at found
      rw [if_neg ends]
      exact ⟨stop, found, by omega, inside, isRow, ending⟩

section Text

variable {editor : TextEditor}

/-- The text before an offset. -/
theorem text_take {pos : Nat} (inside : pos ≤ editor.bufferSize) :
    editor.text.take pos = (List.range pos).map editor.buffer := by
  rw [text, ← List.map_take, List.take_range, Nat.min_eq_left inside]

/-- As many newlines stand before an offset as its row says. -/
theorem count_text_take {pos : Nat} (inside : pos ≤ editor.bufferSize) :
    (editor.text.take pos).count newline = rowOf editor.buffer pos := by
  rw [text_take inside, rowOf, Lines.rowAt_eq_count]

/-- The text has one line more than the row of its end says. -/
theorem length_lines (editor : TextEditor) :
    editor.lines.length = rowOf editor.buffer editor.bufferSize + 1 := by
  rw [lines, Lines.length_splitOn, text, rowOf, Lines.rowAt_eq_count]

/-- Before the start of a row stand whole lines. -/
theorem text_take_whole {pos : Nat} (inside : pos ≤ editor.bufferSize)
    (starts : colOf editor.buffer pos = 0) :
    editor.text.take pos = [] ∨ ∃ lines, editor.text.take pos = lines ++ [newline] := by
  rw [text_take inside]
  rcases Lines.colAt_eq_zero.mp starts with rfl | ends
  · exact .inl rfl
  · cases pos with
    | zero => exact .inl rfl
    | succ pos =>
      rw [Nat.add_sub_cancel] at ends
      refine .inr ⟨(List.range pos).map editor.buffer, ?_⟩
      -- The last character before the start is a newline.
      rw [List.range_succ, List.map_append, List.map_singleton, ends]

/-- Behind the end of a row stand whole lines. -/
theorem text_drop_whole {pos : Nat} (inside : pos ≤ editor.bufferSize)
    (ends : pos = editor.bufferSize ∨ editor.buffer pos = newline) :
    editor.text.drop pos = [] ∨ ∃ lines, editor.text.drop pos = newline :: lines := by
  have length : editor.text.length = editor.bufferSize := by simp [text]
  by_cases last : pos = editor.bufferSize
  · exact .inl (List.drop_eq_nil_of_le (by omega))
  · refine .inr ⟨editor.text.drop (pos + 1), ?_⟩
    -- The first character behind the end is a newline.
    rw [List.drop_eq_getElem_cons (by omega)]
    simp only [text, List.getElem_map, List.getElem_range]
    rw [ends.resolve_left last]

/-- Text that is moved down over other text takes its place. -/
theorem text_removed {start stop : Nat} (ordered : start ≤ stop) (inside : stop ≤ editor.bufferSize) :
    (List.range (editor.bufferSize - (stop - start))).map
        (Moves.memmove start stop (editor.bufferSize - stop) editor.buffer) =
      editor.text.take start ++ editor.text.drop stop := by
  have length : editor.text.length = editor.bufferSize := by simp [text]
  -- Character by character: those before the gap stay, the others are read from behind it.
  apply List.ext_getElem
  · simp only [List.length_map, List.length_range, List.length_append, List.length_take,
      List.length_drop, length]
    omega
  · intro index before _
    rw [List.length_map, List.length_range] at before
    rw [List.getElem_append, List.getElem_map, List.getElem_range]
    split
    · rename_i early
      rw [List.length_take] at early
      rw [Moves.memmove_below (by omega)]
      simp [text]
    · rename_i late
      rw [List.length_take, length] at late
      rw [Moves.memmove_inside (by omega) (by omega)]
      simp only [text, List.getElem_drop, List.getElem_map, List.getElem_range, List.length_take,
        List.length_map, List.length_range]
      rw [Nat.min_eq_left (by omega)]

end Text

/-- The first of the selected rows. -/
def firstSelected (editor : TextEditor) : Nat :=
  min editor.selectionStartRow editor.selectionEndRow

/-- The last of the selected rows. -/
def lastSelected (editor : TextEditor) : Nat :=
  max editor.selectionStartRow editor.selectionEndRow

/-- The lines before the selection, an empty one, and the lines behind the selection. -/
def linesEmptied (editor : TextEditor) : List (List UInt8) :=
  editor.lines.take editor.firstSelected ++ [[]] ++ editor.lines.drop (editor.lastSelected + 1)

/-- Deleting the selected rows, of which the row of the cursor is the last one gone to. -/
theorem Coherent.deleteSelection_lines {editor : TextEditor} (coherent : editor.Coherent)
    (start : editor.selectionStartRow ≤ rowOf editor.buffer editor.bufferSize)
    (stop : editor.selectionEndRow = editor.cursorRow) :
    ∃ next, editor.deleteSelection = .ok next ∧ next.Coherent ∧ next.active = editor.active ∧
      next.lines = editor.linesEmptied ∧ next.cursorRow = editor.firstSelected ∧
      next.cursorCol = 0 := by
  obtain ⟨next, deleted, after⟩ := coherent.deleteSelection start
  refine ⟨next, deleted, after, ?_⟩
  have inText : editor.selectionEndRow ≤ rowOf editor.buffer editor.bufferSize := by
    rw [stop, coherent.row]
    exact Lines.rowAt_mono coherent.cursor_le
  -- The two scans find the start of the first row and the end of the last one.
  obtain ⟨startPos, found, inside, isFirst, starts⟩ := scanRowStart_spec editor.buffer
    editor.firstSelected editor.bufferSize 0 (Nat.zero_le _)
    (by rw [Nat.zero_add]; exact (Nat.min_le_left _ _).trans start)
  rw [Nat.zero_add] at inside
  have column : colOf editor.buffer startPos = 0 := by
    rcases starts with rfl | zero
    · rfl
    · exact zero
  have back : lineStart editor.buffer startPos = startPos := by
    rw [lineStart_eq, column, Nat.sub_zero]
  have counter : scanRowStart editor.buffer (min editor.selectionStartRow editor.selectionEndRow)
      editor.bufferSize 0 0 = startPos := found
  have rest : startPos + (editor.bufferSize - startPos) = editor.bufferSize := by omega
  obtain ⟨endPos, reached, behind, within, isLast, ends⟩ := scanRowEnd_spec editor.buffer
    editor.lastSelected (editor.bufferSize - startPos) startPos
    (by rw [isFirst]; exact (Nat.min_le_left _ _).trans (Nat.le_max_left _ _))
    (by rw [rest]; exact Nat.max_le.mpr ⟨start, inText⟩)
  rw [rest] at within ends
  have limit : scanRowEnd editor.buffer (max editor.selectionStartRow editor.selectionEndRow)
      (editor.bufferSize - startPos) startPos
      (min editor.selectionStartRow editor.selectionEndRow) = endPos := by
    rw [← reached, isFirst]
    rfl
  -- Between them stand the selected lines.
  have emptied : (editor.text.take startPos ++ editor.text.drop endPos).splitOn newline =
      editor.linesEmptied := by
    have split : editor.text = editor.text.take startPos ++
        ((editor.text.take endPos).drop startPos ++ editor.text.drop endPos) := by
      rw [← List.append_assoc, ← Nat.min_eq_left behind, ← List.take_take, Nat.min_eq_left behind,
        List.take_append_drop, List.take_append_drop]
    have front : editor.text.take startPos ++ (editor.text.take endPos).drop startPos =
        editor.text.take endPos := by
      rw [← Nat.min_eq_left behind, ← List.take_take, Nat.min_eq_left behind, List.take_append_drop]
    have whole := @Lines.splitOn_emptied _ _ newline _ ((editor.text.take endPos).drop startPos) _
      (text_take_whole inside column) (text_drop_whole within ends)
    rw [← split, front, count_text_take inside, count_text_take within, isFirst, isLast] at whole
    exact whole
  rw [TextEditor.deleteSelection] at deleted
  simp only [counter, back, limit] at deleted
  -- Whether the text is moved at all.
  by_cases any : startPos < endPos
  · have small := coherent.size_le
    have room : maxBufferSize = 32768 := rfl
    rw [if_pos any, moveChars, if_neg (by omega), Run.ok_bind] at deleted
    cases deleted
    refine ⟨rfl, ?_, rfl, ?_⟩
    · rw [lines, text]
      exact (congrArg (List.splitOn newline) (text_removed behind within)).trans emptied
    · have same : ∀ index, index < startPos →
          Moves.memmove startPos endPos (editor.bufferSize - endPos) editor.buffer index =
            editor.buffer index := fun index before => Moves.memmove_below before
      have zero : Lines.colAt newline editor.buffer startPos = 0 := column
      show startPos - lineStart _ startPos = 0
      rw [lineStart_eq, colOf, Lines.colAt_congr same, zero]
      omega
  · -- Just one empty row is selected, and the cursor stands on it.
    rw [if_neg any] at deleted
    cases deleted
    obtain rfl : startPos = endPos := by omega
    have one : editor.firstSelected = editor.lastSelected := isFirst.symm.trans isLast
    have cursor : editor.cursorRow = editor.firstSelected := by
      simp only [firstSelected, lastSelected] at one ⊢
      omega
    refine ⟨rfl, ?_, cursor, ?_⟩
    · rw [List.take_append_drop] at emptied
      exact emptied
    · -- No character stands between the start of the row and the cursor.
      have rows : rowOf editor.buffer editor.cursorPos = rowOf editor.buffer startPos := by
        rw [isFirst, ← coherent.row, cursor]
      by_contra right
      rw [coherent.col] at right
      have before : startPos < editor.cursorPos := by
        by_contra late
        -- A cursor before the start of its row would stand in an earlier row.
        rcases Nat.lt_or_eq_of_le (Nat.le_of_not_lt late) with earlier | same
        · have order := @Lines.position_lt _ _ newline editor.buffer _ _ earlier
          simp only [rowOf, colOf] at rows column
          omega
        · rw [same] at right
          exact right column
      have ended := ends.resolve_left (by have := coherent.cursor_le; omega)
      have later := @Lines.rowAt_mono _ _ newline editor.buffer _ _ before
      rw [Nat.succ_eq_add_one, Lines.rowAt_succ_separator ended] at later
      simp only [rowOf] at rows
      omega

/-- What is left of an editor while lines are selected: the text, and where the selection goes. -/
structure Selecting (editor next : TextEditor) : Prop where
  /-- The cursor is coherent. -/
  coherent : next.Coherent
  /-- The text stays. -/
  buffer : next.buffer = editor.buffer
  /-- Its size stays. -/
  size : next.bufferSize = editor.bufferSize
  /-- A file is edited. -/
  active : next.active = true
  /-- Keys select lines. -/
  mode : next.mode = .visual
  /-- The selection starts at the row the cursor was on. -/
  start : next.selectionStartRow = editor.cursorRow
  /-- It ends at the row the cursor is on. -/
  stop : next.selectionEndRow = next.cursorRow

/-- The keys that start a selection and carry it on. -/
def SelectsLines (c : UInt8) : Prop := c = 0x4A ∨ c = 0x4B

/-- A row that is gone to becomes the end of the selection. -/
theorem Selecting.goToRow {editor next : TextEditor} (selecting : Selecting editor next)
    {row length screenRow : Nat} (coherent : (next.goToRow row length).Coherent) :
    Selecting editor { (next.goToRow row length).extendSelection with screenRow := screenRow } :=
  ⟨coherent.of_same rfl rfl rfl rfl rfl, selecting.buffer, selecting.size, selecting.active,
    selecting.mode, selecting.start, rfl⟩

/-- Another such key carries the selection on. -/
theorem Selecting.press {editor next : TextEditor} (selecting : Selecting editor next)
    (fs : FileSystem) {c : UInt8} (selects : SelectsLines c) :
    ∃ after, TextEditor.press (next, fs) c = some (after, fs) ∧ Selecting editor after := by
  have stays : c ≠ 0x1B := by rcases selects with rfl | rfl <;> decide
  have pressed : TextEditor.press (next, fs) c =
      ((next.processVisualMode c).toOption.map fun after => (after, fs)) := by
    rw [TextEditor.press, processKeypress, selecting.active, Bool.not_true, if_neg Bool.false_ne_true,
      if_neg stays, selecting.mode]
    cases next.processVisualMode c <;> rfl
  rw [pressed, processVisualMode]
  rcases selects with rfl | rfl
  · -- Shift-J goes down, if there is a row.
    rw [if_neg (by decide), if_neg (by decide), if_pos rfl]
    refine ⟨_, rfl, ?_⟩
    cases down : next.rowDown with
    | none => exact selecting
    | some below =>
      obtain ⟨row, length, rfl, moved⟩ := selecting.coherent.rowDown down
      obtain ⟨screenRow, scrolled⟩ := scrollDown_eq (next.goToRow row length).extendSelection
      rw [Option.map_some, Option.getD_some, scrolled]
      exact selecting.goToRow moved
  · -- Shift-K goes up, if there is a row.
    rw [if_neg (by decide), if_neg (by decide), if_neg (by decide), if_pos rfl]
    refine ⟨_, rfl, ?_⟩
    cases up : next.rowUp with
    | none => exact selecting
    | some above =>
      obtain ⟨row, length, rfl, moved⟩ := selecting.coherent.rowUp up
      obtain ⟨screenRow, scrolled⟩ := scrollUp_eq (next.goToRow row length).extendSelection
      rw [Option.map_some, Option.getD_some, scrolled]
      exact selecting.goToRow moved

/-- So do several of them. -/
theorem Selecting.run {editor : TextEditor} (fs : FileSystem) (keys : List UInt8)
    (selects : ∀ c ∈ keys, SelectsLines c) : ∀ {next : TextEditor}, Selecting editor next →
    ∃ last, Calls.run TextEditor.press (next, fs) keys = some (last, fs) ∧ Selecting editor last := by
  -- By induction on the keys.
  induction keys with
  | nil => exact fun selecting => ⟨_, rfl, selecting⟩
  | cons c keys ih =>
    intro next selecting
    obtain ⟨after, pressed, selecting'⟩ := selecting.press fs (selects c List.mem_cons_self)
    obtain ⟨last, ran, selected⟩ :=
      ih (fun other member => selects other (List.mem_cons_of_mem _ member)) selecting'
    exact ⟨last, Calls.run_cons.mpr ⟨_, pressed, ran⟩, selected⟩

/-- Such a key starts a selection in the mode for commands. -/
theorem Coherent.press_selects {editor : TextEditor} (coherent : editor.Coherent)
    (active : editor.active = true) (mode : editor.mode = .normal) (fs : FileSystem) {c : UInt8}
    (selects : SelectsLines c) :
    ∃ next, TextEditor.press (editor, fs) c = some (next, fs) ∧ Selecting editor next := by
  -- Escape is the only key that is looked at in every mode.
  have stays : c ≠ 0x1B := by rcases selects with rfl | rfl <;> decide
  refine ⟨editor.switchToVisualMode, ?_, coherent.of_same rfl rfl rfl rfl rfl, rfl, rfl, active, rfl,
    rfl, rfl⟩
  rw [TextEditor.press, Run.toOption_eq_some, processKeypress, active, Bool.not_true,
    if_neg Bool.false_ne_true, if_neg stays, mode]
  dsimp only
  rw [processNormalMode, if_neg (by rcases selects with rfl | rfl <;> decide),
    if_neg (by rcases selects with rfl | rfl <;> decide),
    if_pos (show c = 0x4A ∨ c = 0x4B from selects)]

/--
Selecting lines and deleting them leaves the lines before them, an empty one, and the lines behind.

The selection goes from the row the cursor was on to the row it has come to, in either direction, and
the cursor ends up on the empty line while keys are text.
-/
theorem visual_deletes_lines {editor : TextEditor} (active : editor.active = true)
    (mode : editor.mode = .normal) (coherent : editor.Coherent) (fs : FileSystem) (enter : UInt8)
    (moves : List UInt8) (entering : SelectsLines enter) (moving : ∀ c ∈ moves, SelectsLines c) :
    ∃ selected last, Calls.run press (editor, fs) (enter :: moves) = some (selected, fs) ∧
      selected.mode = .visual ∧ selected.text = editor.text ∧
      selected.selectionStartRow = editor.cursorRow ∧
      selected.selectionEndRow = selected.cursorRow ∧
      selected.lastSelected < editor.lines.length ∧
      press (selected, fs) 0x73 = some (last, fs) ∧ last.active = true ∧ last.mode = .insert ∧
      last.lines = editor.lines.take selected.firstSelected ++ [[]] ++
        editor.lines.drop (selected.lastSelected + 1) ∧
      last.Coherent ∧ last.cursorRow = selected.firstSelected ∧ last.cursorCol = 0 := by
  obtain ⟨first, entered, selecting⟩ := coherent.press_selects active mode fs entering
  obtain ⟨selected, ran, selects⟩ := selecting.run fs moves moving
  have text : selected.text = editor.text := by
    rw [TextEditor.text, TextEditor.text, selects.buffer, selects.size]
  have lines : selected.lines = editor.lines := by rw [TextEditor.lines, TextEditor.lines, text]
  -- Both ends of the selection are rows of the text, as the cursor has been there.
  have start : selected.selectionStartRow ≤ rowOf selected.buffer selected.bufferSize := by
    rw [selects.start, selects.buffer, selects.size, coherent.row]
    exact Lines.rowAt_mono coherent.cursor_le
  have stop : selected.selectionEndRow ≤ rowOf selected.buffer selected.bufferSize := by
    rw [selects.stop, selects.coherent.row]
    exact Lines.rowAt_mono selects.coherent.cursor_le
  obtain ⟨next, deleted, after, still, left, row, col⟩ :=
    selects.coherent.deleteSelection_lines start selects.stop
  refine ⟨selected, next.switchToInsertMode, Calls.run_cons.mpr ⟨_, entered, ran⟩, selects.mode, text,
    selects.start, selects.stop, ?_, ?_, still.trans selects.active, rfl, ?_,
    after.of_same rfl rfl rfl rfl rfl, row, col⟩
  · rw [← lines, length_lines, lastSelected]
    exact Nat.lt_succ_of_le (Nat.max_le.mpr ⟨start, stop⟩)
  · rw [press, Run.toOption_eq_some, processKeypress, selects.active, Bool.not_true,
      if_neg Bool.false_ne_true, if_neg (by decide), selects.mode]
    dsimp only
    rw [processVisualMode, if_neg (by decide), if_pos rfl, deleted]
    rfl
  · rw [← lines]
    exact left

/-- Two lines are selected upwards and deleted. -/
theorem visual_deletes_lines_twoLines :
    ∃ selected last, Calls.run press
        ({ twoLines with mode := .normal }, FileSystem.smallVolume (fun _ => 0) 2) [0x4A, 0x4B] =
          some (selected, FileSystem.smallVolume (fun _ => 0) 2) ∧
      press (selected, FileSystem.smallVolume (fun _ => 0) 2) 0x73 =
        some (last, FileSystem.smallVolume (fun _ => 0) 2) ∧
      last.lines = twoLines.lines.take selected.firstSelected ++ [[]] ++
        twoLines.lines.drop (selected.lastSelected + 1) ∧ last.cursorCol = 0 := by
  obtain ⟨selected, last, ran, -, -, -, -, -, pressed, -, -, lines, -, -, col⟩ :=
    @visual_deletes_lines { twoLines with mode := .normal } rfl rfl
      ⟨Nat.le_refl 3, show 3 ≤ 32767 by omega, rfl, rfl⟩ (FileSystem.smallVolume (fun _ => 0) 2) 0x4A
      [0x4B] (.inl rfl) (fun c member => .inr (List.mem_singleton.mp member))
  exact ⟨selected, last, ran, pressed, lines, col⟩

end Pocky.TextEditor
