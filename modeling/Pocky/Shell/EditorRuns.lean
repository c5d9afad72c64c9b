import Pocky.Fs.ChainLaws
import Pocky.Fs.SoundVolume
import Pocky.Lib.Calls
import Pocky.Shell.EditorLaws

/-! Whole editing sessions: the text as a zipper while typing, and the cursor in every mode. -/

namespace Pocky.TextEditor

/-- Whether a key is a character that can be seen. -/
def Printable (c : UInt8) : Prop := 32 ≤ c ∧ c < 127

instance (c : UInt8) : Decidable (Printable c) := inferInstanceAs (Decidable (_ ∧ _))

/-- Whether a key ends a line. -/
def EndsLine (c : UInt8) : Prop := c = 0x0D ∨ c = newline

instance (c : UInt8) : Decidable (EndsLine c) := inferInstanceAs (Decidable (_ ∨ _))

/-- What a key means for a text of limited length: characters are put in, a backspace takes one. -/
def typeKey (text : Zipper UInt8) (c : UInt8) : Zipper UInt8 :=
  if c = 0x08 then text.backspace
  else if text.length < maxBufferSize - 1 then
    if Printable c then text.insert c
    else if EndsLine c then text.insert newline
    else text
  else text

/-- A key that leaves the editor as it is leaves the text as it is. -/
theorem Coherent.types_self {editor : TextEditor} (coherent : editor.Coherent) :
    Types editor editor editor.zipper := ⟨rfl, coherent, rfl, rfl⟩

/-- In the mode for text every key returns, and does to the text what it means. -/
theorem Coherent.processInsertMode {editor : TextEditor} (coherent : editor.Coherent) (c : UInt8) :
    ∃ next, editor.processInsertMode c = .ok next ∧ Types editor next (typeKey editor.zipper c) := by
  have inside := coherent.cursor_le
  have length : editor.zipper.length = editor.bufferSize := Zipper.length_ofArray inside
  rw [TextEditor.processInsertMode, typeKey, length]
  -- The two control keys are no characters.
  by_cases control : c = ctrlKey 0x53 ∨ c = ctrlKey 0x51
  · have nothing : c ≠ 0x08 ∧ ¬ Printable c ∧ ¬ EndsLine c := by
      rcases control with rfl | rfl <;> decide
    rw [if_pos control, if_neg nothing.1, if_neg nothing.2.1, if_neg nothing.2.2, ite_self]
    exact ⟨editor, rfl, coherent.types_self⟩
  rw [if_neg control]
  by_cases back : c = 0x08
  · rw [if_pos back]
    by_cases behind : 0 < editor.cursorPos
    · rw [if_pos ⟨back, behind⟩]
      exact coherent.deleteBefore behind
    · -- There is nothing before the cursor.
      have empty : editor.zipper.backspace = editor.zipper := by
        have none : editor.cursorPos = 0 := by omega
        simp [TextEditor.zipper, Zipper.backspace, Zipper.ofArray, none]
      have nothing : ¬ Printable c ∧ ¬ EndsLine c := by
        rw [back]
        decide
      rw [if_neg fun both => behind both.2, if_neg fun both => nothing.1 both.1,
        if_neg fun both => nothing.2 both.1, empty]
      exact ⟨editor, rfl, coherent.types_self⟩
  rw [if_neg fun both => back both.1, if_neg back]
  by_cases room : editor.bufferSize < maxBufferSize - 1
  · rw [if_pos room]
    by_cases printable : Printable c
    · have other : c ≠ newline := by
        rintro rfl
        exact absurd printable (by decide)
      rw [if_pos ⟨printable, room⟩, if_pos printable, coherent.insertAt room, Run.ok_bind]
      exact ⟨_, rfl, coherent.insertChar room other⟩
    · rw [if_neg fun both => printable both.1, if_neg printable]
      by_cases ends : EndsLine c
      · rw [if_pos ⟨ends, room⟩, if_pos ends, coherent.insertAt room, Run.ok_bind]
        exact ⟨_, rfl, coherent.insertNewline room⟩
      · rw [if_neg fun both => ends both.1, if_neg ends]
        exact ⟨editor, rfl, coherent.types_self⟩
  · -- The buffer is full.
    rw [if_neg fun both => room both.2, if_neg fun both => room both.2, if_neg room]
    exact ⟨editor, rfl, coherent.types_self⟩

/-- A key is pressed while a file system is there to save to. -/
def press (session : TextEditor × FileSystem) (c : UInt8) : Option (TextEditor × FileSystem) :=
  (session.1.processKeypress session.2 c).toOption

/-- Typing one character does to the text what it means. -/
theorem Coherent.press_insert {editor : TextEditor} (coherent : editor.Coherent)
    (active : editor.active = true) (typing : editor.mode = .insert) (fs : FileSystem) {c : UInt8}
    (stays : c ≠ 0x1B) :
    ∃ next, press (editor, fs) c = some (next, fs) ∧ Types editor next (typeKey editor.zipper c) := by
  obtain ⟨next, returned, types⟩ := coherent.processInsertMode c
  refine ⟨next, ?_, types⟩
  rw [press, Run.toOption_eq_some, processKeypress, active, Bool.not_true, if_neg Bool.false_ne_true,
    if_neg stays, typing]
  simp only [returned, Run.ok_bind, Run.pure_eq]

/-- A key that is no character and no backspace changes nothing at all. -/
theorem press_other {editor : TextEditor} (active : editor.active = true)
    (typing : editor.mode = .insert) (fs : FileSystem) {c : UInt8} (stays : c ≠ 0x1B)
    (back : c ≠ 0x08) (printable : ¬ Printable c) (ends : ¬ EndsLine c) :
    press (editor, fs) c = some (editor, fs) := by
  have nothing : editor.processInsertMode c = .ok editor := by
    rw [TextEditor.processInsertMode]
    split
    · rfl
    · rw [if_neg fun both => back both.1, if_neg fun both => printable both.1,
        if_neg fun both => ends both.1]
  rw [press, Run.toOption_eq_some, processKeypress, active, Bool.not_true, if_neg Bool.false_ne_true,
    if_neg stays, typing]
  simp only [nothing, Run.ok_bind, Run.pure_eq]

/-- Typing a sequence of characters does to the text what they mean, one after the other. -/
theorem Coherent.run_insert (fs : FileSystem) (keys : List UInt8) (stay : ∀ c ∈ keys, c ≠ 0x1B) :
    ∀ {editor : TextEditor}, editor.Coherent → editor.active = true → editor.mode = .insert →
    ∃ last, Calls.run press (editor, fs) keys = some (last, fs) ∧
      Types editor last (keys.foldl typeKey editor.zipper) := by
  -- By induction on the keys, each one typed into the text that the ones before have left.
  induction keys with
  | nil => exact fun coherent _ _ => ⟨_, rfl, coherent.types_self⟩
  | cons c keys ih =>
    intro editor coherent active typing
    obtain ⟨next, pressed, types⟩ := coherent.press_insert active typing fs (stay c List.mem_cons_self)
    obtain ⟨last, ran, rest⟩ := ih (fun other member => stay other (List.mem_cons_of_mem c member))
      types.coherent (types.active.trans active) (types.mode.trans typing)
    refine ⟨last, Calls.run_cons.mpr ⟨_, pressed, ran⟩, ?_, rest.coherent,
      rest.mode.trans types.mode, rest.active.trans types.active⟩
    rw [rest.zipper, types.zipper, List.foldl_cons]

/--
While typing, the editor is a text with a cursor in it.

The text, the offset, the row and the column are those the typed characters lead to, and any other
key changes nothing.
-/
theorem insertMode_refines_zipper {editor : TextEditor} (active : editor.active = true)
    (typing : editor.mode = .insert) (coherent : editor.Coherent) (fs : FileSystem)
    (keys : List UInt8) (stay : ∀ c ∈ keys, c ≠ 0x1B) :
    ∃ last, Calls.run press (editor, fs) keys = some (last, fs) ∧
      last.active = true ∧ last.mode = .insert ∧ last.bufferSize ≤ maxBufferSize - 1 ∧
      (List.range last.bufferSize).map last.buffer =
        (keys.foldl typeKey editor.zipper).left ++ (keys.foldl typeKey editor.zipper).right ∧
      last.cursorPos = (keys.foldl typeKey editor.zipper).left.length ∧
      last.cursorRow = (keys.foldl typeKey editor.zipper).left.count newline ∧
      last.cursorCol =
        ((keys.foldl typeKey editor.zipper).left.reverse.takeWhile (· ≠ newline)).length ∧
      ∀ c, c ≠ 0x1B → c ≠ 0x08 → ¬ Printable c → ¬ EndsLine c →
        press (last, fs) c = some (last, fs) := by
  obtain ⟨last, ran, types⟩ := Coherent.run_insert fs keys stay coherent active typing
  obtain ⟨row, col⟩ := types.coherent.zipper
  rw [types.zipper] at row col
  refine ⟨last, ran, types.active.trans active, types.mode.trans typing, types.coherent.size_le,
    ?_, ?_, row, col, fun c => press_other (types.active.trans active) (types.mode.trans typing) fs⟩
  · rw [← types.zipper]
    exact (Zipper.left_append_right types.coherent.cursor_le).symm
  · rw [← types.zipper]
    exact (Zipper.length_left _ _ _).symm

/-- An editor with the text "a", a line end and "b", and the cursor at its end. -/
def twoLines : TextEditor where
  buffer := fun index => [0x61, newline, 0x62].getD index 0
  filename := [0x61]
  bufferSize := 3
  cursorPos := 3
  cursorRow := 1
  cursorCol := 1
  screenRow := 0
  active := true
  modified := false
  mode := .insert
  hasSelection := false
  selectionStartRow := 0
  selectionEndRow := 0

/-- Two backspaces join its lines, and a carriage return starts a new one. -/
theorem insertMode_refines_zipper_twoLines :
    ∃ last, Calls.run press (twoLines, FileSystem.smallVolume (fun _ => 0) 2) [0x08, 0x08, 0x0D] =
        some (last, FileSystem.smallVolume (fun _ => 0) 2) ∧
      last.active = true ∧ last.mode = .insert ∧ last.bufferSize ≤ maxBufferSize - 1 ∧
      (List.range last.bufferSize).map last.buffer = [0x61, newline] ++ [] ∧
      last.cursorPos = 2 ∧ last.cursorRow = 1 ∧ last.cursorCol = 0 ∧
      ∀ c, c ≠ 0x1B → c ≠ 0x08 → ¬ Printable c → ¬ EndsLine c →
        press (last, FileSystem.smallVolume (fun _ => 0) 2) c =
          some (last, FileSystem.smallVolume (fun _ => 0) 2) :=
  @insertMode_refines_zipper twoLines rfl rfl ⟨Nat.le_refl 3, show 3 ≤ 32767 by omega, rfl, rfl⟩
    (FileSystem.smallVolume (fun _ => 0) 2) [0x08, 0x08, 0x0D] (by decide +kernel)

/-- What holds between two keys: a coherent cursor, and a selection inside the text. -/
structure Steady (editor : TextEditor) : Prop where
  /-- The three numbers of the cursor agree. -/
  coherent : editor.Coherent
  /-- The selection is inside the text. -/
  selects : editor.Selects

/-- Keys that leave the cursor where it belongs. -/
structure KeepsCursor (editor : TextEditor) (c : UInt8) : Prop where
  /-- The cursor is not moved right at the end of a text whose last line is empty. -/
  right : editor.active = true → editor.mode = .normal → c = 0x6C →
    ¬ (editor.cursorPos = editor.bufferSize ∧ editor.cursorCol = 0)
  /-- When the text is saved, the cursor is not behind the newlines that are given up. -/
  saved : editor.active = true → editor.mode = .normal → c = ctrlKey 0x53 → editor.cursorPos = 0 ∨
    ∃ index, editor.cursorPos ≤ index + 1 ∧ index < editor.bufferSize ∧
      editor.buffer index ≠ newline

/-- Going to the mode for commands keeps the cursor. -/
theorem Coherent.switchToNormalMode {editor : TextEditor} (coherent : editor.Coherent) :
    editor.switchToNormalMode.Steady :=
  ⟨coherent.of_same rfl rfl rfl rfl rfl, Selects.of_mode EditorMode.noConfusion⟩

/-- Going to the mode for text keeps the cursor. -/
theorem Coherent.switchToInsertMode {editor : TextEditor} (coherent : editor.Coherent) :
    editor.switchToInsertMode.Steady :=
  ⟨coherent.of_same rfl rfl rfl rfl rfl, Selects.of_mode EditorMode.noConfusion⟩

/-- Selecting lines starts at the row of the cursor, which is one of the text. -/
theorem Coherent.switchToVisualMode {editor : TextEditor} (coherent : editor.Coherent) :
    editor.switchToVisualMode.Steady := by
  have inside : editor.cursorRow ≤ rowOf editor.buffer editor.bufferSize := by
    rw [coherent.row]
    exact Lines.rowAt_mono coherent.cursor_le
  exact ⟨coherent.of_same rfl rfl rfl rfl rfl, fun _ => inside⟩

/-- Deleting the character at the cursor leaves the text before the cursor. -/
theorem Coherent.deleteChar {editor : TextEditor} (coherent : editor.Coherent) :
    ∃ next, editor.deleteChar = .ok next ∧ next.Coherent := by
  have inside := coherent.cursor_le
  have small := coherent.size_le
  have limit : maxBufferSize = 32768 := rfl
  rw [TextEditor.deleteChar]
  split
  · exact ⟨editor, rfl, coherent⟩
  · rename_i before
    rw [moveChars, if_neg (by omega), Run.ok_bind]
    have same : ∀ index, index < editor.cursorPos →
        Moves.memmove editor.cursorPos (editor.cursorPos + 1) (editor.bufferSize - editor.cursorPos)
          editor.buffer index = editor.buffer index := fun index before => Moves.memmove_below before
    refine ⟨_, rfl, ?_, ?_, ?_, ?_⟩
    · show editor.cursorPos ≤ editor.bufferSize - 1
      omega
    · show editor.bufferSize - 1 ≤ _
      omega
    · exact coherent.row.trans (Lines.rowAt_congr same).symm
    · exact coherent.col.trans (Lines.colAt_congr same).symm

/-- Stripping takes nothing before a character that is no newline. -/
theorem lt_strippedSize {buffer : Buffer} {size index : Nat} (inside : index < size)
    (other : buffer index ≠ newline) : index < strippedSize buffer size := by
  induction size with
  | zero => omega
  | succ size ih =>
    rw [strippedSize]
    by_cases last : index = size
    · rw [last] at other
      rw [if_neg other]
      omega
    · split
      · exact ih (by omega)
      · omega

/-- Stripping makes the text no longer. -/
theorem strippedSize_le (buffer : Buffer) (size : Nat) : strippedSize buffer size ≤ size := by
  induction size with
  | zero => exact Nat.le_refl 0
  | succ size ih =>
    rw [strippedSize]
    split <;> omega

/-- What a save leaves: the stripped text, and the cursor where it was or at the end. -/
theorem save_cases {editor next : TextEditor} {fs after : FileSystem} {told : Bool}
    (active : editor.active = true) (returned : editor.save fs = .ok (told, next, after)) :
    let size := strippedSize editor.buffer editor.bufferSize
    next.buffer = editor.buffer ∧ next.bufferSize = size ∧ next.cursorRow = editor.cursorRow ∧
    next.cursorCol = editor.cursorCol ∧ next.mode = editor.mode ∧
    (next.cursorPos = editor.cursorPos ∨ size < editor.cursorPos) := by
  rw [save, active, Bool.not_true, if_neg Bool.false_ne_true, Run.bind_eq_ok] at returned
  obtain ⟨⟨written, state⟩, -, rest⟩ := returned
  cases written with
  | false =>
    cases rest
    exact ⟨rfl, rfl, rfl, rfl, rfl, .inl rfl⟩
  | true =>
    simp only at rest
    split at rest
    · rename_i behind
      cases rest
      exact ⟨rfl, rfl, rfl, rfl, rfl, .inr behind⟩
    · cases rest
      exact ⟨rfl, rfl, rfl, rfl, rfl, .inl rfl⟩

/-- A save keeps the cursor that is not behind the newlines that are given up. -/
theorem Coherent.save {editor next : TextEditor} {fs after : FileSystem} {told : Bool}
    (coherent : editor.Coherent) (active : editor.active = true)
    (before : editor.cursorPos = 0 ∨ ∃ index, editor.cursorPos ≤ index + 1 ∧
      index < editor.bufferSize ∧ editor.buffer index ≠ newline)
    (returned : editor.save fs = .ok (told, next, after)) : next.Coherent := by
  have stays : editor.cursorPos ≤ strippedSize editor.buffer editor.bufferSize := by
    rcases before with zero | ⟨index, reaches, inside, other⟩
    · omega
    · have kept := lt_strippedSize inside other
      omega
  have shorter := strippedSize_le editor.buffer editor.bufferSize
  obtain ⟨buffer, size, row, col, -, pos⟩ := save_cases active returned
  have same : next.cursorPos = editor.cursorPos := by
    rcases pos with same | behind
    · exact same
    · exact absurd behind (by omega)
  have small := coherent.size_le
  refine ⟨?_, ?_, ?_, ?_⟩
  · rw [same, size]
    exact stays
  · omega
  · rw [row, buffer, same]
    exact coherent.row
  · rw [col, buffer, same]
    exact coherent.col

/-- Leaving the editor puts everything at zero. -/
theorem Coherent.close {editor : TextEditor} (coherent : editor.Coherent)
    (mode : editor.mode ≠ .visual) : editor.close.Steady := by
  rw [TextEditor.close]
  split
  · exact ⟨coherent, Selects.of_mode mode⟩
  · exact ⟨⟨Nat.le_refl 0, Nat.zero_le _, rfl, rfl⟩, Selects.of_mode EditorMode.noConfusion⟩

/-- Moving left inside a line. -/
theorem Coherent.left {editor : TextEditor} (coherent : editor.Coherent)
    (inside : 0 < editor.cursorCol) :
    Coherent { editor with
      cursorCol := editor.cursorCol - 1
      cursorPos := wrapSub editor.cursorPos 1 } := by
  have cursor := coherent.cursor_le
  have small := coherent.size_le
  have limit : maxBufferSize = 32768 := rfl
  have col := coherent.col
  have row := coherent.row
  -- The column is not zero, so there is a character before the cursor, and it is no newline.
  obtain ⟨pos, position⟩ : ∃ pos, editor.cursorPos = pos + 1 := by
    have reach : colOf editor.buffer editor.cursorPos ≤ editor.cursorPos := Lines.colAt_le _
    exact Nat.exists_eq_add_of_le' (by omega)
  have other : editor.buffer pos ≠ newline := by
    intro ends
    rw [position, colOf, Lines.colAt_succ_separator ends] at col
    omega
  rw [position, rowOf, Lines.rowAt_succ_other other] at row
  rw [position, colOf, Lines.colAt_succ_other other] at col
  have previous : wrapSub editor.cursorPos 1 = pos := by
    rw [wrapSub_eq (by omega) (by omega)]
    omega
  rw [previous]
  refine ⟨?_, small, row, ?_⟩
  · show pos ≤ editor.bufferSize
    omega
  · show editor.cursorCol - 1 = _
    rw [col, Nat.add_sub_cancel]

/-- Moving right inside a line, when it does not only seem to have characters left. -/
theorem Coherent.right {editor : TextEditor} (coherent : editor.Coherent)
    (inside : editor.cursorCol < editor.getLineLength editor.cursorRow)
    (line : ¬ (editor.cursorPos = editor.bufferSize ∧ editor.cursorCol = 0)) :
    Coherent { editor with
      cursorCol := editor.cursorCol + 1
      cursorPos := editor.cursorPos + 1 } := by
  have cursor := coherent.cursor_le
  have col := coherent.col
  have row := coherent.row
  rcases editor.getLineLength_cases editor.cursorRow with ⟨-, none⟩ | ⟨start, found⟩
  · -- The cursor is at the end, and the character before it would be on its row.
    exfalso
    have atEnd : editor.cursorPos = editor.bufferSize := by
      by_contra before
      exact none editor.cursorPos (by omega) row.symm
    obtain ⟨pos, position⟩ : ∃ pos, editor.cursorPos = pos + 1 := by
      have reach : colOf editor.buffer editor.cursorPos ≤ editor.cursorPos := Lines.colAt_le _
      exact Nat.exists_eq_add_of_le' (by omega)
    by_cases ends : editor.buffer pos = newline
    · rw [position, colOf, Lines.colAt_succ_separator ends] at col
      exact line ⟨atEnd, col⟩
    · rw [position, rowOf, Lines.rowAt_succ_other ends] at row
      exact none pos (by omega) row.symm
  · -- The offset is the one of its column on the line.
    obtain ⟨isRow, isCol⟩ := found.position (Nat.le_of_lt inside)
    have offset : start + editor.cursorCol = editor.cursorPos :=
      Lines.position_inj (isRow.trans row) (isCol.trans col)
    have other : editor.buffer editor.cursorPos ≠ newline := by
      rw [← offset]
      exact found.plain editor.cursorCol inside
    have fits := found.fits
    refine ⟨?_, coherent.size_le, ?_, ?_⟩
    · show editor.cursorPos + 1 ≤ editor.bufferSize
      omega
    · exact row.trans (Lines.rowAt_succ_other other).symm
    · exact (congrArg (· + 1) col).trans (Lines.colAt_succ_other other).symm

/-- What moving to another row leaves: the text, the mode and the start of the selection. -/
structure ChangesRow (editor next : TextEditor) : Prop where
  /-- The cursor is coherent. -/
  coherent : next.Coherent
  /-- The text stays. -/
  buffer : next.buffer = editor.buffer
  /-- Its size stays. -/
  size : next.bufferSize = editor.bufferSize
  /-- The mode stays. -/
  mode : next.mode = editor.mode
  /-- The start of the selection stays. -/
  start : next.selectionStartRow = editor.selectionStartRow

/-- The row above is gone to without touching the text. -/
theorem Coherent.moves_up {editor above : TextEditor} (coherent : editor.Coherent)
    (up : editor.rowUp = some above) : ChangesRow editor above := by
  obtain ⟨row, length, rfl, moved⟩ := coherent.rowUp up
  exact ⟨moved, rfl, rfl, rfl, rfl⟩

/-- The row below is gone to without touching the text. -/
theorem Coherent.moves_down {editor below : TextEditor} (coherent : editor.Coherent)
    (down : editor.rowDown = some below) : ChangesRow editor below := by
  obtain ⟨row, length, rfl, moved⟩ := coherent.rowDown down
  exact ⟨moved, rfl, rfl, rfl, rfl⟩

/-- Showing another part of the text keeps the cursor. -/
theorem Coherent.screen {editor : TextEditor} (coherent : editor.Coherent) (screenRow : Nat) :
    Coherent { editor with screenRow := screenRow } := coherent.of_same rfl rfl rfl rfl rfl

/-- A row that is gone to in the mode for commands. -/
theorem ChangesRow.steady {editor next shown : TextEditor} (moves : ChangesRow editor next)
    (mode : editor.mode ≠ .visual) (scrolled : ∃ screenRow, shown = { next with screenRow := screenRow }) :
    shown.Steady := by
  obtain ⟨screenRow, rfl⟩ := scrolled
  refine ⟨moves.coherent.screen screenRow, Selects.of_mode ?_⟩
  show next.mode ≠ .visual
  rw [moves.mode]
  exact mode

/-- A row that is gone to while lines are selected becomes the end of the selection. -/
theorem ChangesRow.selects {editor next shown : TextEditor} (moves : ChangesRow editor next)
    (selects : editor.Selects)
    (scrolled : ∃ screenRow, shown = { next.extendSelection with screenRow := screenRow }) :
    shown.Steady := by
  obtain ⟨screenRow, rfl⟩ := scrolled
  have coherent := moves.coherent
  refine ⟨coherent.of_same rfl rfl rfl rfl rfl, ?_⟩
  show next.mode = .visual → next.selectionStartRow ≤ rowOf next.buffer next.bufferSize
  rw [moves.mode, moves.start, moves.buffer, moves.size]
  exact selects

/-- Deleting selected rows leaves the cursor at the start of the first one. -/
theorem Coherent.deleteSelection {editor : TextEditor} (coherent : editor.Coherent)
    (start : editor.selectionStartRow ≤ rowOf editor.buffer editor.bufferSize) :
    ∃ next, editor.deleteSelection = .ok next ∧ next.Coherent := by
  have small := coherent.size_le
  have limit : maxBufferSize = 32768 := rfl
  -- The first selected row is one of the text, and its start is found.
  obtain ⟨startPos, found, inside, isRow, starts⟩ := scanRowStart_spec editor.buffer
    (min editor.selectionStartRow editor.selectionEndRow) editor.bufferSize 0 (Nat.zero_le _)
    (by rw [Nat.zero_add]; exact (Nat.min_le_left _ _).trans start)
  have isCol : colOf editor.buffer startPos = 0 := by
    rcases starts with first | zero
    · rw [first]
      rfl
    · exact zero
  have back : lineStart editor.buffer startPos = startPos := by
    rw [lineStart_eq, isCol, Nat.sub_zero]
  have counter : scanRowStart editor.buffer (min editor.selectionStartRow editor.selectionEndRow)
      editor.bufferSize 0 0 = startPos := found
  rw [TextEditor.deleteSelection]
  simp only [counter, back]
  have reach := scanRowEnd_le editor.buffer
    (max editor.selectionStartRow editor.selectionEndRow) (editor.bufferSize - startPos) startPos
    (min editor.selectionStartRow editor.selectionEndRow)
  revert reach
  generalize scanRowEnd editor.buffer _ _ _ _ = endPos
  intro reach
  by_cases any : startPos < endPos
  · rw [if_pos any, moveChars, if_neg (by omega), Run.ok_bind]
    -- The text before the first selected row is where it was.
    have same : ∀ index, index < startPos →
        Moves.memmove startPos endPos (editor.bufferSize - endPos) editor.buffer index =
          editor.buffer index := fun index before => Moves.memmove_below before
    refine ⟨_, rfl, ?_, ?_, ?_, ?_⟩
    · show startPos ≤ editor.bufferSize - (endPos - startPos)
      omega
    · show editor.bufferSize - (endPos - startPos) ≤ _
      omega
    · exact isRow.symm.trans (Lines.rowAt_congr same).symm
    · show startPos - lineStart _ startPos = _
      rw [lineStart_eq, Nat.sub_sub_self (Lines.colAt_le _)]
  · rw [if_neg any]
    exact ⟨editor, rfl, coherent⟩

/-- While lines are selected every key returns and keeps the cursor. -/
theorem Steady.processVisualMode {editor : TextEditor} (steady : editor.Steady)
    (mode : editor.mode = .visual) (c : UInt8) :
    ∃ next, editor.processVisualMode c = .ok next ∧ next.Steady := by
  have coherent := steady.coherent
  rw [TextEditor.processVisualMode]
  split
  · exact ⟨_, rfl, coherent.switchToInsertMode⟩
  split
  · obtain ⟨next, deleted, after⟩ := coherent.deleteSelection (steady.selects mode)
    rw [deleted, Run.ok_bind]
    exact ⟨_, rfl, after.switchToInsertMode⟩
  split
  · -- Shift-J goes down, if there is a row.
    refine ⟨_, rfl, ?_⟩
    cases down : editor.rowDown with
    | none => exact steady
    | some below =>
      exact (coherent.moves_down down).selects steady.selects (scrollDown_eq below.extendSelection)
  split
  · -- Shift-K goes up, if there is a row.
    refine ⟨_, rfl, ?_⟩
    cases up : editor.rowUp with
    | none => exact steady
    | some above =>
      exact (coherent.moves_up up).selects steady.selects (scrollUp_eq above.extendSelection)
  · exact ⟨editor, rfl, steady⟩

/-- Every command but the one that saves returns, and keeps the cursor unless it loses it. -/
theorem Steady.processNormalMode {editor : TextEditor} (steady : editor.Steady)
    (active : editor.active = true) (mode : editor.mode = .normal) (fs : FileSystem) {c : UInt8}
    (other : c ≠ ctrlKey 0x53) :
    ∃ next, editor.processNormalMode fs c = .ok (next, fs) ∧ (editor.KeepsCursor c → next.Steady) := by
  have coherent := steady.coherent
  have visual : editor.mode ≠ .visual := by
    rw [mode]
    exact EditorMode.noConfusion
  rw [TextEditor.processNormalMode, if_neg other]
  split
  · exact ⟨_, rfl, fun _ => coherent.switchToInsertMode⟩
  split
  · -- The character at the cursor is deleted, if there is one.
    obtain ⟨next, deleted, after⟩ := coherent.deleteChar
    split
    · rw [deleted]
      refine ⟨_, rfl, fun _ => Coherent.switchToInsertMode ?_⟩
      exact after.of_same rfl rfl rfl rfl rfl
    · exact ⟨_, rfl, fun _ => coherent.switchToInsertMode⟩
  split
  · exact ⟨_, rfl, fun _ => coherent.switchToVisualMode⟩
  split
  · exact ⟨_, rfl, fun _ => coherent.close visual⟩
  split
  · rename_i left
    exact ⟨_, rfl, fun _ => ⟨coherent.left left.2, Selects.of_mode visual⟩⟩
  split
  · rename_i right
    exact ⟨_, rfl, fun keeps =>
      ⟨coherent.right right.2 (keeps.right active mode right.1), Selects.of_mode visual⟩⟩
  split
  · refine ⟨_, rfl, fun _ => ?_⟩
    cases up : editor.rowUp with
    | none => exact steady
    | some above => exact (coherent.moves_up up).steady visual (scrollUp_eq above)
  split
  · refine ⟨_, rfl, fun _ => ?_⟩
    cases down : editor.rowDown with
    | none => exact steady
    | some below => exact (coherent.moves_down down).steady visual (scrollDown_eq below)
  · exact ⟨editor, rfl, fun _ => steady⟩

/-- A key that makes the editor write to the disk. -/
def Saves (editor : TextEditor) (c : UInt8) : Prop :=
  editor.active = true ∧ editor.mode = .normal ∧ c = ctrlKey 0x53

/-- No key that does not save moves characters outside the buffer, or fails in another way. -/
theorem Steady.press_returns {editor : TextEditor} (steady : editor.Steady) (fs : FileSystem)
    {c : UInt8} (saves : ¬ editor.Saves c) :
    ∃ next, press (editor, fs) c = some (next, fs) ∧ (editor.KeepsCursor c → next.Steady) := by
  have coherent := steady.coherent
  simp only [press, Run.toOption_eq_some, processKeypress]
  by_cases active : editor.active = true
  · rw [active, Bool.not_true, if_neg Bool.false_ne_true]
    split
    · exact ⟨_, rfl, fun _ => coherent.switchToNormalMode⟩
    split
    · rename_i mode
      exact steady.processNormalMode active mode fs fun save => saves ⟨active, mode, save⟩
    · rename_i mode
      obtain ⟨next, returned, types⟩ := coherent.processInsertMode c
      rw [returned, Run.ok_bind]
      refine ⟨next, rfl, fun _ => ⟨types.coherent, Selects.of_mode ?_⟩⟩
      rw [types.mode, mode]
      exact EditorMode.noConfusion
    · rename_i mode
      obtain ⟨next, returned, after⟩ := steady.processVisualMode mode c
      rw [returned, Run.ok_bind]
      exact ⟨next, rfl, fun _ => after⟩
  · rw [Bool.not_eq_true] at active
    rw [active, Bool.not_false, if_pos rfl]
    exact ⟨editor, rfl, fun _ => steady⟩

/-- One key after which the cursor is where it belongs. -/
theorem Steady.press {editor next : TextEditor} {fs after : FileSystem} (steady : editor.Steady)
    {c : UInt8} (keeps : editor.KeepsCursor c)
    (pressed : TextEditor.press (editor, fs) c = some (next, after)) : next.Steady := by
  by_cases saves : editor.Saves c
  · -- The text is saved, and the cursor is not behind what is given up.
    obtain ⟨active, mode, rfl⟩ := saves
    rw [TextEditor.press, Run.toOption_eq_some, processKeypress, active, Bool.not_true,
      if_neg Bool.false_ne_true, if_neg (by decide), mode] at pressed
    simp only at pressed
    rw [TextEditor.processNormalMode, if_neg (by decide), if_neg (by decide), if_neg (by decide),
      if_pos rfl, Run.bind_eq_ok] at pressed
    obtain ⟨⟨told, saved, stored⟩, returned, rest⟩ := pressed
    cases rest
    refine ⟨steady.coherent.save active (keeps.saved active mode rfl) returned,
      Selects.of_mode ?_⟩
    rw [(save_cases active returned).2.2.2.2.1, mode]
    exact EditorMode.noConfusion
  · obtain ⟨other, returned, after⟩ := steady.press_returns fs saves
    rw [returned] at pressed
    cases pressed
    exact after keeps

/-- Where stripping stops there is a character of the text, or none was stripped. -/
theorem strippedSize_newline {buffer : Buffer} {size : Nat}
    (stripped : strippedSize buffer size < size) : buffer (strippedSize buffer size) = newline := by
  induction size with
  | zero => omega
  | succ size ih =>
    rw [strippedSize] at stripped ⊢
    split at stripped
    · rename_i ends
      rw [if_pos ends]
      by_cases more : strippedSize buffer size < size
      · exact ih more
      · have all : strippedSize buffer size = size := by
          have shorter := strippedSize_le buffer size
          omega
        rw [all]
        exact ends
    · omega

/-- The text that is left ends in a character that is no newline. -/
theorem strippedSize_other {buffer : Buffer} {size last : Nat}
    (left : strippedSize buffer size = last + 1) : last < size ∧ buffer last ≠ newline := by
  induction size with
  | zero => cases left
  | succ size ih =>
    rw [strippedSize] at left
    split at left
    · obtain ⟨inside, other⟩ := ih left
      exact ⟨by omega, other⟩
    · rename_i other
      obtain rfl : size = last := by omega
      exact ⟨Nat.lt_succ_self _, other⟩

/-- Moving right from an empty last line leaves the text. -/
theorem Coherent.right_loses {editor next : TextEditor} {fs after : FileSystem}
    (coherent : editor.Coherent) (active : editor.active = true) (mode : editor.mode = .normal)
    (atEnd : editor.cursorPos = editor.bufferSize) (first : editor.cursorCol = 0)
    (pressed : TextEditor.press (editor, fs) 0x6C = some (next, after)) :
    next.bufferSize < next.cursorPos := by
  -- The last line has no character, so its row is not found.
  have missing : editor.getLineLength editor.cursorRow = noLine := by
    rcases editor.getLineLength_cases editor.cursorRow with ⟨missing, -⟩ | ⟨start, line⟩
    · exact missing
    · have same : start = editor.cursorPos := Lines.position_inj (line.row.trans coherent.row)
        (line.col.trans (first.symm.trans coherent.col))
      have inside := line.inside
      omega
  have further : editor.cursorCol < editor.getLineLength editor.cursorRow := by
    rw [missing, first]
    decide
  rw [TextEditor.press, Run.toOption_eq_some, processKeypress, active, Bool.not_true,
    if_neg Bool.false_ne_true, if_neg (by decide), mode] at pressed
  simp only at pressed
  rw [TextEditor.processNormalMode, if_neg (by decide), if_neg (by decide), if_neg (by decide),
    if_neg (by decide), if_neg (by decide), if_neg (fun both => absurd both.1 (by decide)),
    if_pos ⟨rfl, further⟩] at pressed
  cases pressed
  show editor.bufferSize < editor.cursorPos + 1
  omega

/-- After a key the cursor is where it belongs just when the key is one that keeps it. -/
theorem Steady.press_iff {editor next : TextEditor} {fs after : FileSystem} (steady : editor.Steady)
    {c : UInt8} (pressed : TextEditor.press (editor, fs) c = some (next, after)) :
    next.Coherent ↔ editor.KeepsCursor c := by
  have coherent := steady.coherent
  constructor
  · intro kept
    refine ⟨?_, ?_⟩
    · rintro active mode rfl ⟨atEnd, first⟩
      have lost := coherent.right_loses active mode atEnd first pressed
      have inside := kept.cursor_le
      omega
    · rintro active mode rfl
      rw [TextEditor.press, Run.toOption_eq_some, processKeypress, active, Bool.not_true,
        if_neg Bool.false_ne_true, if_neg (by decide), mode] at pressed
      simp only at pressed
      rw [TextEditor.processNormalMode, if_neg (by decide), if_neg (by decide), if_neg (by decide),
        if_pos rfl, Run.bind_eq_ok] at pressed
      obtain ⟨⟨told, saved, stored⟩, returned, rest⟩ := pressed
      cases rest
      obtain ⟨buffer, size, row, -⟩ := save_cases active returned
      by_cases behind : strippedSize editor.buffer editor.bufferSize < editor.cursorPos
      · -- The row of the cursor is one of those that were given up.
        exfalso
        have inside := coherent.cursor_le
        have ends := strippedSize_newline (Nat.lt_of_lt_of_le behind inside)
        have given := Lines.rowAt_succ_separator ends
        have above : rowOf editor.buffer (strippedSize editor.buffer editor.bufferSize + 1) ≤
            rowOf editor.buffer editor.cursorPos := Lines.rowAt_mono behind
        have below : rowOf editor.buffer next.cursorPos ≤
            rowOf editor.buffer (strippedSize editor.buffer editor.bufferSize) :=
          Lines.rowAt_mono (by rw [← size]; exact kept.cursor_le)
        have same : rowOf editor.buffer next.cursorPos = rowOf editor.buffer editor.cursorPos := by
          rw [← coherent.row, ← row, kept.row, buffer]
        rw [same] at below
        have both := above.trans below
        rw [rowOf, given] at both
        exact absurd both (Nat.not_succ_le_self _)
      · cases left : strippedSize editor.buffer editor.bufferSize with
        | zero =>
          left
          omega
        | succ last =>
          right
          obtain ⟨inside, other⟩ := strippedSize_other left
          exact ⟨last, by omega, inside, other⟩
  · intro keeps
    exact (steady.press keeps pressed).coherent

/-- A file that has been opened is shown from its start. -/
theorem Steady.openFile {editor opened : TextEditor} {fs : FileSystem} {filename : Name}
    {fresh : Buffer} (opens : editor.openFile fs filename fresh = .ok (true, opened)) :
    opened.Steady := by
  have limit : maxBufferSize = 32768 := rfl
  rw [TextEditor.openFile] at opens
  split at opens
  · cases opens
  · rw [Run.bind_eq_ok] at opens
    obtain ⟨found, -, rest⟩ := opens
    cases found with
    | none =>
      cases rest
      exact ⟨⟨Nat.le_refl 0, Nat.zero_le _, rfl, rfl⟩, Selects.of_mode EditorMode.noConfusion⟩
    | some found =>
      simp only at rest
      split at rest
      · cases rest
      split at rest
      · cases rest
      · rename_i short
        cases rest
        refine ⟨⟨Nat.zero_le _, ?_, rfl, rfl⟩, Selects.of_mode EditorMode.noConfusion⟩
        show found.size ≤ _
        omega

/--
From the opening of a file on, the three numbers of the cursor agree after every key.

No key except one that saves can then fail, so no count of characters to move has wrapped.
-/
theorem cursor_run {editor opened : TextEditor} {fs : FileSystem} {filename : Name} {fresh : Buffer}
    (opens : editor.openFile fs filename fresh = .ok (true, opened)) {keys : List UInt8}
    (keep : Calls.AllMeet TextEditor.press (fun session c => session.1.KeepsCursor c) (opened, fs) keys)
    {last : TextEditor} {after : FileSystem}
    (ran : Calls.run TextEditor.press (opened, fs) keys = some (last, after)) :
    last.cursorPos ≤ last.bufferSize ∧ last.bufferSize ≤ maxBufferSize - 1 ∧
    last.cursorRow = Lines.rowAt newline last.buffer last.cursorPos ∧
    last.cursorCol = Lines.colAt newline last.buffer last.cursorPos ∧
    ∀ c, ¬ last.Saves c → ∃ next, TextEditor.press (last, after) c = some (next, after) := by
  have steady : last.Steady := Calls.run_invariant (fun session => session.1.Steady)
    (fun session c next steady keeps pressed => steady.press keeps pressed) keys (opened, fs)
    (last, after) (Steady.openFile opens) keep ran
  refine ⟨steady.coherent.cursor_le, steady.coherent.size_le, steady.coherent.row,
    steady.coherent.col, fun c saves => ?_⟩
  obtain ⟨next, returned, -⟩ := steady.press_returns after saves
  exact ⟨next, returned⟩

/-- The editor before any file has been opened. -/
def idle : TextEditor where
  buffer := fun _ => 0
  filename := []
  bufferSize := 0
  cursorPos := 0
  cursorRow := 0
  cursorCol := 0
  screenRow := 0
  active := false
  modified := false
  mode := .normal
  hasSelection := false
  selectionStartRow := 0
  selectionEndRow := 0

/-- A volume with an empty file "a" of one cluster in its root directory. -/
def emptyFile : Buffer :=
  FileSystem.withEntry 2 0 [0x61] 0x20 3 <| FileSystem.withLink 2 endMark <|
    FileSystem.withLink 3 endMark fun _ => 0

/-- The empty file is opened, and a character is typed into it. -/
theorem cursor_run_typing :
    ∃ opened last after,
      idle.openFile (FileSystem.smallVolume emptyFile 2) [0x61] (fun _ => 0) = .ok (true, opened) ∧
      Calls.run TextEditor.press (opened, FileSystem.smallVolume emptyFile 2) [0x69, 0x78, 0x1B] =
        some (last, after) ∧
      last.cursorPos ≤ last.bufferSize ∧ last.bufferSize ≤ maxBufferSize - 1 ∧
      last.cursorRow = Lines.rowAt newline last.buffer last.cursorPos ∧
      last.cursorCol = Lines.colAt newline last.buffer last.cursorPos ∧
      ∀ c, ¬ last.Saves c → ∃ next, TextEditor.press (last, after) c = some (next, after) := by
  have accepted : Run.accepts (idle.openFile (FileSystem.smallVolume emptyFile 2) [0x61] fun _ => 0)
      (fun opened => (Calls.run TextEditor.press (opened, FileSystem.smallVolume emptyFile 2)
        [0x69, 0x78, 0x1B]).isSome) = true := by decide +kernel
  obtain ⟨opened, opens, some⟩ := Run.exists_of_accepts accepted
  obtain ⟨⟨last, after⟩, ran⟩ := Option.isSome_iff_exists.mp some
  -- None of the keys moves right or saves.
  have keeps : ∀ (editor : TextEditor) (c : UInt8), c ≠ 0x6C → c ≠ ctrlKey 0x53 →
      editor.KeepsCursor c :=
    fun _ _ right save => ⟨fun _ _ key => absurd key right, fun _ _ key => absurd key save⟩
  have meets : Calls.AllMeet TextEditor.press (fun session c => session.1.KeepsCursor c)
      (opened, FileSystem.smallVolume emptyFile 2) [0x69, 0x78, 0x1B] :=
    ⟨keeps _ _ (by decide) (by decide), fun _ _ => ⟨keeps _ _ (by decide) (by decide), fun _ _ =>
      ⟨keeps _ _ (by decide) (by decide), fun _ _ => trivial⟩⟩⟩
  exact ⟨opened, last, after, opens, ran, cursor_run opens meets ran⟩

/-- The empty file is opened, and moving right puts the cursor behind the end of the text. -/
theorem cursor_leaves_empty_file :
    ∃ opened last after,
      idle.openFile (FileSystem.smallVolume emptyFile 2) [0x61] (fun _ => 0) = .ok (true, opened) ∧
      Calls.run TextEditor.press (opened, FileSystem.smallVolume emptyFile 2) [0x6C] =
        some (last, after) ∧
      ¬ last.cursorPos ≤ last.bufferSize := by
  have accepted : Run.accepts (idle.openFile (FileSystem.smallVolume emptyFile 2) [0x61] fun _ => 0)
      (fun opened => (Calls.run TextEditor.press (opened, FileSystem.smallVolume emptyFile 2)
        [0x6C]).any fun session => session.1.bufferSize < session.1.cursorPos) = true := by
    decide +kernel
  obtain ⟨opened, opens, some⟩ := Run.exists_of_accepts accepted
  obtain ⟨⟨last, after⟩, ran, lost⟩ := (Option.any_eq_true _ _).mp some
  exact ⟨opened, last, after, opens, ran, Nat.not_le_of_lt (of_decide_eq_true lost)⟩

end Pocky.TextEditor
