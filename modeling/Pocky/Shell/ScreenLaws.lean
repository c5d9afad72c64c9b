import Pocky.Shell.EditorRuns
import Pocky.Shell.Screen

/-! The text and the cursor stay on the screen, and the status line fits if the name is short enough. -/

namespace Pocky

/-- A number with few digits prints as few characters. -/
theorem length_reversedDigits (fuel digits : Nat) {number : Nat} (some : 0 < digits)
    (small : number < 10 ^ digits) : (reversedDigits fuel number).length ≤ digits := by
  -- By induction on the digits allowed; each round takes one of them off.
  induction digits generalizing fuel number with
  | zero => exact absurd some (Nat.lt_irrefl 0)
  | succ digits ih =>
    cases fuel with
    | zero => exact Nat.zero_le _
    | succ fuel =>
      rw [reversedDigits, List.length_cons]
      split
      · exact Nat.succ_le_succ (Nat.zero_le _)
      · rename_i more
        have shorter : number / 10 < 10 ^ digits := by
          rw [Nat.div_lt_iff_lt_mul (by decide), ← Nat.pow_succ]
          exact small
        -- A number of one digit has stopped already.
        have left : 0 < digits := by
          by_contra none
          rw [Nat.eq_zero_of_not_pos none, Nat.pow_zero] at shorter
          omega
        exact Nat.succ_le_succ (ih fuel left shorter)

/-- A character is put on the screen. -/
def PutChar.OnScreen (put : PutChar) : Prop := put.x < terminalWidth ∧ put.y < terminalHeight

namespace TextEditor

section Status

variable {editor : TextEditor}

/-- The characters that the name, the word for a change and the number may have together. -/
def statusRoom (editor : TextEditor) : Nat :=
  match editor.mode with
  | .normal => 30
  | .insert => 41
  | .visual => if editor.hasSelection then 8 else 18

/-- The characters of the word for a change. -/
def modifiedLength (editor : TextEditor) : Nat := if editor.modified then 10 else 0

/-- The status line is as long as its parts. -/
theorem length_statusLine {status : List UInt8} (assembled : editor.statusLine = .ok status) :
    status.length + editor.statusRoom = terminalWidth +
      (editor.filename.length + editor.modifiedLength + (digitsOf editor.statusNumber).length) := by
  have blank : (chars " ").length = 1 := by decide
  have modified : (chars "[modified]").length = 10 := by decide
  have mode : editor.modeIndicator.length = 8 := by
    rw [modeIndicator]
    split <;> decide
  have changed : (if editor.modified then chars "[modified]" else []).length =
      editor.modifiedLength := by
    rw [modifiedLength]
    split
    · exact modified
    · rfl
  rw [statusLine] at assembled
  generalize digitsOf editor.statusNumber = number at assembled ⊢
  split at assembled
  · cases assembled
  · cases assembled
    rw [statusRoom, statusKeys, show terminalWidth = 80 from rfl]
    simp only [List.length_append, blank, mode, changed]
    -- The parts behind the mode depend on the mode.
    cases editor.mode with
    | normal =>
      rw [if_neg (fun both => by cases both.1), List.length_append,
        show (chars " | line: ").length = 9 by decide,
        show (chars " | Ctrl-S: Save | Ctrl-Q: Quit").length = 30 by decide]
      dsimp only
      omega
    | insert =>
      rw [if_neg (fun both => by cases both.1), List.length_append,
        show (chars " | line: ").length = 9 by decide,
        show (chars " | Esc: Normal mode").length = 19 by decide]
      dsimp only
      omega
    | visual =>
      have keys : (chars " | Shift-J/K: Select | Esc: Exit selection").length = 42 := by decide
      dsimp only
      by_cases selection : editor.hasSelection = true
      · rw [if_pos ⟨rfl, selection⟩, if_pos selection, List.length_append, List.length_append,
          show (chars " | Selected: ").length = 13 by decide,
          show (chars " lines").length = 6 by decide, keys]
        omega
      · rw [if_neg (fun both => selection both.2), if_neg selection, List.length_append,
          show (chars " | line: ").length = 9 by decide, keys]
        omega

/--
The status line fits its place just if its parts that vary are short enough for the mode.

These are the name of the file, the word for a change, and the digits of the number.
-/
theorem statusLine_fits_iff {status : List UInt8} (assembled : editor.statusLine = .ok status) :
    status.length + 1 ≤ terminalWidth + 1 ↔
      editor.filename.length + editor.modifiedLength + (digitsOf editor.statusNumber).length ≤
        editor.statusRoom := by
  have length := length_statusLine assembled
  omega

/-- The status line of an editor without a file. -/
theorem statusLine_fits_iff_idle : ∃ status, idle.statusLine = .ok status ∧
    status.length + 1 ≤ terminalWidth + 1 := by
  obtain ⟨status, assembled⟩ : ∃ status, idle.statusLine = .ok status := ⟨_, rfl⟩
  exact ⟨status, assembled, (statusLine_fits_iff assembled).mpr (by decide)⟩

/-- A file "a" into which a character is typed and whose line is then selected. -/
theorem statusLine_overruns :
    ∃ opened last after status,
      idle.openFile (FileSystem.smallVolume emptyFile 2) [0x61] (fun _ => 0) = .ok (true, opened) ∧
      Calls.run TextEditor.press (opened, FileSystem.smallVolume emptyFile 2)
        [0x69, 0x78, 0x1B, 0x4A] = some (last, after) ∧
      last.statusLine = .ok status ∧ ¬ status.length + 1 ≤ terminalWidth + 1 := by
  have accepted : Run.accepts (idle.openFile (FileSystem.smallVolume emptyFile 2) [0x61] fun _ => 0)
      (fun opened => (Calls.run TextEditor.press (opened, FileSystem.smallVolume emptyFile 2)
        [0x69, 0x78, 0x1B, 0x4A]).any fun session =>
          session.1.statusLine.toOption.any (terminalWidth < ·.length)) = true := by
    decide +kernel
  obtain ⟨opened, opens, some⟩ := Run.exists_of_accepts accepted
  obtain ⟨⟨last, after⟩, ran, long⟩ := (Option.any_eq_true _ _).mp some
  obtain ⟨status, assembled, longer⟩ := (Option.any_eq_true _ _).mp long
  refine ⟨opened, last, after, status, opens, ran, Run.toOption_eq_some.mp assembled, fun fits => ?_⟩
  have more := of_decide_eq_true longer
  omega

end Status

section Rendering

/-- The screen is filled within its bounds. -/
theorem clearScreen_onScreen : ∀ put ∈ clearScreen, put.OnScreen := by
  intro put member
  obtain ⟨y, row, member⟩ := List.mem_flatMap.mp member
  obtain ⟨x, col, rfl⟩ := List.mem_map.mp member
  exact ⟨List.mem_range.mp col, List.mem_range.mp row⟩

/-- A number below a thousand is printed in the three columns for it. -/
theorem lineNumber_columns {color : UInt8} {number y : Nat} (small : number < 1000) :
    ∀ put ∈ lineNumber color number y, put.x < lineNumberWidth ∧ put.y = y := by
  have few := length_reversedDigits 20 3 (by decide) (show number < 10 ^ 3 from small)
  have width : lineNumberWidth = 3 := rfl
  intro put member
  rw [lineNumber] at member
  rcases List.mem_append.mp member with blank | digit
  · -- Spaces fill the columns that the digits leave.
    obtain ⟨i, inside, rfl⟩ := List.mem_map.mp blank
    have column := List.mem_range.mp inside
    rw [wrapSub] at column
    exact ⟨show i < lineNumberWidth by omega, rfl⟩
  · obtain ⟨i, inside, rfl⟩ := List.mem_map.mp digit
    have place := List.mem_range.mp inside
    -- With at most three digits the column does not wrap below zero.
    refine ⟨show wrapSub (wrapSub lineNumberWidth i) 1 < lineNumberWidth from ?_, rfl⟩
    rw [wrapSub, wrapSub]
    omega

/-- What stands in front of the text of a row stays in the columns for it. -/
theorem drawMargin_columns (editor : TextEditor) (y : Nat) :
    ∀ put ∈ editor.drawMargin y, put.x ≤ lineNumberWidth ∧ put.y = y := by
  intro put member
  rw [drawMargin] at member
  rcases List.mem_append.mp member with number | last
  · split at number
    · dsimp only at number
      split at number
      · rename_i small
        -- A number of four digits is not printed.
        obtain ⟨column, row⟩ := lineNumber_columns (by omega) put number
        exact ⟨column.le, row⟩
      · exact absurd number List.not_mem_nil
    · obtain ⟨i, inside, rfl⟩ := List.mem_map.mp number
      exact ⟨(List.mem_range.mp inside).le, rfl⟩
  · rw [List.mem_singleton.mp last]
    exact ⟨le_rfl, rfl⟩

/-- Spaces end with the row. -/
theorem drawBlanks_onScreen {col row : Nat} (visible : row < visibleRows) :
    ∀ put ∈ drawBlanks col row, put.OnScreen := by
  intro put member
  obtain ⟨i, inside, rfl⟩ := List.mem_map.mp member
  have column := List.mem_range.mp inside
  have rows : visibleRows = 24 := rfl
  exact ⟨show col + i < terminalWidth by omega, show row < 25 by omega⟩

/-- Text is put in the rows for it, and the next column is one for text. -/
theorem drawText_onScreen (editor : TextEditor) (remaining pos currentRow col row : Nat)
    (inside : col < terminalWidth) :
    ∀ put ∈ (editor.drawText remaining pos currentRow col row).1, put.OnScreen := by
  -- By induction on what is left of the text; the column is always one of the screen.
  induction remaining generalizing pos currentRow col row with
  | zero => exact fun put member => absurd member List.not_mem_nil
  | succ remaining ih =>
    have first : lineNumberWidth + 1 < terminalWidth := by decide
    rw [drawText]
    -- Below the last row for text nothing is put.
    by_cases below : visibleRows ≤ currentRow
    · rw [if_pos below]
      exact fun put member => absurd member List.not_mem_nil
    · have visible : currentRow < visibleRows := Nat.lt_of_not_le below
      have rows : visibleRows = 24 := rfl
      rw [if_neg below]
      -- A newline fills the row with spaces and goes to the next.
      by_cases ends : editor.buffer pos = newline
      · rw [if_pos ends]
        intro put member
        rcases List.mem_append.mp member with blank | rest
        · exact drawBlanks_onScreen visible put blank
        · exact ih _ _ _ _ first put rest
      · rw [if_neg ends]
        intro put member
        rcases List.mem_cons.mp member with rfl | rest
        · exact ⟨inside, show currentRow < 25 by omega⟩
        · -- The column goes on, or starts again in the next row.
          split at rest
          · exact ih _ _ _ _ first put rest
          · exact ih _ _ _ _ (by omega) put rest

/-- Spaces are put in the rows for text. -/
theorem drawRest_onScreen (remaining currentRow col : Nat)
    (visible : remaining ≤ visibleRows - currentRow) :
    ∀ put ∈ drawRest remaining currentRow col, put.OnScreen := by
  -- By induction on the rows that are left.
  induction remaining generalizing currentRow col with
  | zero => exact fun put member => absurd member List.not_mem_nil
  | succ remaining ih =>
    intro put member
    rcases List.mem_append.mp member with blank | rest
    · exact drawBlanks_onScreen (by omega) put blank
    · exact ih (currentRow + 1) _ (by omega) put rest

/--
Whatever the text and the fields are, nothing is put outside the screen.

Line numbers stay in their three columns, and the cursor is put on a row for text.
-/
theorem render_onScreen (editor : TextEditor) :
    (∀ put ∈ editor.render, put.x < 80 ∧ put.y < 25) ∧
      (∀ y color, editor.absRow y < 999 →
        ∀ put ∈ lineNumber color (editor.absRow y + 1) y, put.x < 3 ∧ put.y = y) ∧
      ∀ x y, editor.updateCursor = some (x, y) → x < 80 ∧ y < 24 := by
  refine ⟨fun put member => ?_, fun y color small => lineNumber_columns (by omega), fun x y placed => ?_⟩
  · rw [render] at member
    split at member
    · exact absurd member List.not_mem_nil
    · -- The screen is cleared, the margin drawn, then the text and the rows below it.
      have text := editor.drawText_onScreen (editor.bufferSize - editor.screenStart)
        editor.screenStart 0 (lineNumberWidth + 1) editor.screenRow (by decide)
      dsimp only at member
      rcases List.mem_append.mp member with member | rest
      · rcases List.mem_append.mp member with member | drawn
        · rcases List.mem_append.mp member with clear | margin
          · exact clearScreen_onScreen put clear
          · obtain ⟨row, visible, margin⟩ := List.mem_flatMap.mp margin
            obtain ⟨column, same⟩ := editor.drawMargin_columns row put margin
            have few : row < 24 := List.mem_range.mp visible
            have width : lineNumberWidth = 3 := rfl
            exact ⟨by omega, by omega⟩
        · exact text put drawn
      · exact drawRest_onScreen _ _ _ le_rfl put rest
  · rw [updateCursor] at placed
    split at placed
    · cases placed
    · cases placed
      -- The cursor is put no further than the last column and the last row for text.
      have width : terminalWidth = 80 := rfl
      have height : terminalHeight = 25 := rfl
      constructor
      · split <;> omega
      · split <;> omega

end Rendering

end TextEditor

end Pocky
