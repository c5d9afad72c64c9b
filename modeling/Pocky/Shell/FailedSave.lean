import Pocky.Shell.EditorRuns

/-! A save that fails has already given up the newlines at the end of the text. -/

namespace Pocky.TextEditor

/-- The text and the cursor are as before, and the cursor is inside the text. -/
structure Untouched (editor next : TextEditor) : Prop where
  /-- The buffer is the same. -/
  buffer : next.buffer = editor.buffer
  /-- So is the size of the text. -/
  size : next.bufferSize = editor.bufferSize
  /-- So is the offset of the cursor. -/
  pos : next.cursorPos = editor.cursorPos
  /-- So is its row. -/
  row : next.cursorRow = editor.cursorRow
  /-- So is its column. -/
  col : next.cursorCol = editor.cursorCol
  /-- The cursor is inside the text. -/
  inside : next.cursorPos ≤ next.bufferSize

/-- The text ends in a newline. -/
def EndsInNewline (editor : TextEditor) : Prop :=
  0 < editor.bufferSize ∧ editor.buffer (editor.bufferSize - 1) = newline

/-- Nothing is stripped just if the text does not end in a newline. -/
theorem strippedSize_eq_iff (editor : TextEditor) :
    strippedSize editor.buffer editor.bufferSize = editor.bufferSize ↔ ¬ editor.EndsInNewline := by
  rw [EndsInNewline]
  cases editor.bufferSize with
  | zero => exact ⟨fun _ both => absurd both.1 (Nat.lt_irrefl 0), fun _ => rfl⟩
  | succ size =>
    -- One character less is left if the text ends in a newline, and no other case strips any.
    have shorter := strippedSize_le editor.buffer size
    rw [strippedSize, Nat.add_sub_cancel]
    by_cases ends : editor.buffer size = newline
    · rw [if_pos ends]
      exact ⟨fun same => by omega, fun other => absurd ⟨Nat.succ_pos _, ends⟩ other⟩
    · rw [if_neg ends]
      exact ⟨fun _ both => ends both.2, fun _ => rfl⟩

/-- A save that fails strips the text of a file that is edited, and does nothing else. -/
theorem save_failed {editor next : TextEditor} {fs after : FileSystem}
    (returned : editor.save fs = .ok (false, next, after)) :
    next = if editor.active then
        { editor with bufferSize := strippedSize editor.buffer editor.bufferSize }
      else editor := by
  rw [save] at returned
  cases active : editor.active with
  | false =>
    rw [active, Bool.not_false, if_pos rfl] at returned
    cases returned
    rfl
  | true =>
    rw [active, Bool.not_true, if_neg Bool.false_ne_true, Run.bind_eq_ok] at returned
    obtain ⟨⟨written, state⟩, -, rest⟩ := returned
    -- Only an answer of false returns here, and it keeps what was stripped.
    cases written with
    | false =>
      cases rest
      rw [if_pos rfl]
    | true =>
      dsimp only at rest
      split at rest
      · cases rest
      · cases rest

/-- A save that fails leaves text and cursor as they were just if it had nothing to strip. -/
theorem failed_save_iff {editor next : TextEditor} {fs after : FileSystem}
    (coherent : editor.Coherent) (returned : editor.save fs = .ok (false, next, after)) :
    Untouched editor next ↔ (editor.active = true → ¬ editor.EndsInNewline) := by
  -- The size is the only field that can differ.
  rw [save_failed returned, ← strippedSize_eq_iff]
  cases active : editor.active with
  | false =>
    rw [if_neg Bool.false_ne_true]
    exact ⟨fun _ wrong => absurd wrong Bool.false_ne_true,
      fun _ => ⟨rfl, rfl, rfl, rfl, rfl, coherent.cursor_le⟩⟩
  | true =>
    rw [if_pos rfl]
    constructor
    · exact fun untouched _ => untouched.size
    · intro whole
      exact ⟨rfl, whole rfl, rfl, rfl, rfl, (whole rfl).symm ▸ coherent.cursor_le⟩

/-- A file in a directory that is not there, edited with the cursor at the end of its text. -/
def unsaved (buffer : Buffer) (size row col : Nat) : TextEditor :=
  { twoLines with
    filename := [0x64, slash, 0x61]
    buffer := buffer
    bufferSize := size
    cursorPos := size
    cursorRow := row
    cursorCol := col
    mode := .normal }

/-- The text "a" is left as it was when it cannot be saved. -/
theorem failed_save_iff_plain : ∃ next after,
    (unsaved (fun _ => 0x61) 1 0 1).save (FileSystem.smallVolume emptyFile 2) =
      .ok (false, next, after) ∧ Untouched (unsaved (fun _ => 0x61) 1 0 1) next := by
  have failed : ((unsaved (fun _ => 0x61) 1 0 1).save
      (FileSystem.smallVolume emptyFile 2)).toOption.any (fun result => !result.1) = true := by
    decide +kernel
  obtain ⟨⟨told, next, after⟩, saved, answer⟩ := (Option.any_eq_true _ _).mp failed
  obtain rfl : told = false := by simpa using answer
  have returned := Run.toOption_eq_some.mp saved
  refine ⟨next, after, returned, (failed_save_iff ⟨le_rfl, show 1 ≤ 32767 by omega, rfl, rfl⟩
    returned).mpr fun _ ends => absurd ends.2 (by decide)⟩

/-- The text "a" with a line end has lost it after a save that failed, with the cursor behind its end. -/
theorem failed_save_strips : ∃ next after,
    (unsaved (fun index => [0x61, newline].getD index 0) 2 1 0).Coherent ∧
      (unsaved (fun index => [0x61, newline].getD index 0) 2 1 0).save
        (FileSystem.smallVolume emptyFile 2) = .ok (false, next, after) ∧
      next.bufferSize = 1 ∧ next.cursorPos = 2 := by
  have failed : ((unsaved (fun index => [0x61, newline].getD index 0) 2 1 0).save
      (FileSystem.smallVolume emptyFile 2)).toOption.any (fun result => !result.1) = true := by
    decide +kernel
  obtain ⟨⟨told, next, after⟩, saved, answer⟩ := (Option.any_eq_true _ _).mp failed
  obtain rfl : told = false := by simpa using answer
  have returned := Run.toOption_eq_some.mp saved
  refine ⟨next, after, ⟨le_rfl, show 2 ≤ 32767 by omega, by decide, by decide⟩, returned, ?_, ?_⟩
  · rw [save_failed returned]
    decide
  · rw [save_failed returned]
    rfl

end Pocky.TextEditor
