import Pocky.Fs.ChainLaws
import Pocky.Shell.Terminal

/-! Where the cursor is after keys have been pressed, and which cells have been written. -/

namespace Pocky

/-- The cells of the screen. -/
def screenCells : Nat := terminalHeight * terminalWidth

/-- Only cells of the screen have been written. -/
def Terminal.WritesScreen (terminal : Terminal) : Prop :=
  ∀ index ∈ terminal.written, index < screenCells

/-- The cursor is on the screen, and nothing outside it has been written. -/
structure Terminal.OnScreen (terminal : Terminal) : Prop where
  /-- The row is one of the screen. -/
  row : terminal.row < terminalHeight
  /-- So is the column. -/
  column : terminal.column < terminalWidth
  /-- So are the cells. -/
  written : terminal.WritesScreen

/-- A cell of the screen has a number of the screen. -/
theorem cellIndex_lt {x y : Nat} (column : x < terminalWidth) (row : y < terminalHeight) :
    cellIndex x y < screenCells := by
  have cut := Nat.mod_le (y * terminalWidth + x) (2 ^ 16)
  simp only [cellIndex, screenCells, terminalWidth, terminalHeight] at *
  omega

namespace Terminal

/-- Writing a cell of the screen. -/
theorem WritesScreen.writeCell {terminal : Terminal} (writes : terminal.WritesScreen) {index : Nat}
    (inside : index < screenCells) (entry : UInt16) :
    (terminal.writeCell index entry).WritesScreen :=
  List.forall_mem_cons.mpr ⟨inside, writes⟩

/-- A loop that writes cells of the screen. -/
theorem WritesScreen.foldl {step : Terminal → Nat → Terminal} {indices : List Nat}
    (keeps : ∀ terminal index, index ∈ indices → terminal.WritesScreen →
      (step terminal index).WritesScreen) {terminal : Terminal} (writes : terminal.WritesScreen) :
    (indices.foldl step terminal).WritesScreen := by
  induction indices generalizing terminal with
  | nil => exact writes
  | cons index indices ih =>
    exact ih (fun terminal other inside => keeps terminal other (List.mem_cons_of_mem _ inside))
      (keeps terminal index List.mem_cons_self writes)

/-- A loop that leaves something as it is. -/
theorem foldl_keeps {α : Type} (part : Terminal → α) {step : Terminal → Nat → Terminal}
    (keeps : ∀ terminal index, part (step terminal index) = part terminal) (indices : List Nat)
    (terminal : Terminal) : part (indices.foldl step terminal) = part terminal := by
  induction indices generalizing terminal with
  | nil => rfl
  | cons index indices ih => exact (ih _).trans (keeps terminal index)

/-- Moving the rows up leaves the column. -/
theorem scroll_column (terminal : Terminal) : terminal.scroll.column = terminal.column := by
  unfold Terminal.scroll
  generalize List.range terminalWidth = columns
  generalize List.range (terminalHeight - 1) = rows
  rw [foldl_keeps Terminal.column, foldl_keeps Terminal.column]
  · intro terminal y
    rw [foldl_keeps Terminal.column]
    exact fun _ _ => rfl
  · exact fun _ _ => rfl

/-- A character at a place of the screen. -/
theorem WritesScreen.putcharAt {terminal : Terminal} (writes : terminal.WritesScreen)
    (char color : UInt8) {x y : Nat} (column : x < terminalWidth) (row : y < terminalHeight) :
    (terminal.putcharAt char color x y).WritesScreen :=
  writes.writeCell (cellIndex_lt column row) _

/-- Moving the rows up writes cells of the screen. -/
theorem WritesScreen.scroll {terminal : Terminal} (writes : terminal.WritesScreen) :
    terminal.scroll.WritesScreen := by
  refine foldl (fun terminal x column writes => ?_) (foldl (fun terminal y row writes => ?_) writes)
  · exact writes.putcharAt _ _ (List.mem_range.mp column) (by decide)
  · have inside := List.mem_range.mp row
    exact foldl (fun terminal x column writes =>
      writes.writeCell (cellIndex_lt (List.mem_range.mp column) (by omega)) _) writes

/-- Showing a cursor that is on the screen. -/
theorem OnScreen.updateCursor {terminal : Terminal} (onScreen : terminal.OnScreen) :
    terminal.updateCursor.OnScreen :=
  ⟨onScreen.row, onScreen.column,
    onScreen.written.writeCell (cellIndex_lt onScreen.column onScreen.row) _⟩

/-- Going to the next row, whatever the column has come to. -/
theorem WritesScreen.nextRow {terminal : Terminal} (writes : terminal.WritesScreen)
    (row : terminal.row < terminalHeight) : terminal.nextRow.OnScreen := by
  -- The column is set back first, so that where it came from does not matter.
  have moved : { terminal with
      column := 0, row := (terminal.row + 1) % 2 ^ 16 }.WritesScreen := writes
  unfold Terminal.nextRow
  dsimp only
  split
  · have last : terminalHeight - 1 < terminalHeight := by decide
    refine ⟨last, ?_, fun index inside => moved.scroll index inside⟩
    rw [scroll_column]
    exact (by decide : 0 < terminalWidth)
  · next below =>
    refine ⟨?_, (by decide : 0 < terminalWidth), writes⟩
    simp only [terminalHeight] at *
    omega

/-- Printing a character. -/
theorem OnScreen.putchar {terminal : Terminal} (onScreen : terminal.OnScreen) (char : UInt8) :
    (terminal.putchar char).OnScreen := by
  obtain ⟨row, column, written⟩ := onScreen
  unfold Terminal.putchar
  split
  · exact (written.nextRow row).updateCursor
  · have drawn := written.putcharAt char terminal.color column row
    refine OnScreen.updateCursor ?_
    dsimp only
    split
    · exact drawn.nextRow row
    · next inside =>
      refine ⟨row, ?_, drawn⟩
      simp only [terminalWidth, Terminal.putcharAt, Terminal.writeCell] at *
      omega

/-- Printing characters one after the other. -/
theorem OnScreen.print {terminal : Terminal} (onScreen : terminal.OnScreen) (text : List UInt8) :
    (terminal.print text).OnScreen := by
  induction text generalizing terminal with
  | nil => exact onScreen
  | cons char text ih => exact ih (onScreen.putchar char)

/-- Printing a format, whatever comes out. -/
theorem OnScreen.printf {terminal : Terminal} (onScreen : terminal.OnScreen)
    (unknown : Printed → List UInt8) (format : List UInt8) (args : List Arg) :
    (terminal.printf unknown format args).OnScreen :=
  onScreen.print _

/-- The color does not matter. -/
theorem OnScreen.inColor {terminal : Terminal} (onScreen : terminal.OnScreen) (color : UInt8) :
    { terminal with color := color }.OnScreen :=
  ⟨onScreen.row, onScreen.column, onScreen.written⟩

/-- The terminal starts with the cursor in the first cell. -/
theorem terminalInitialize_onScreen (cells : Nat → UInt16) :
    (terminalInitialize cells).OnScreen := by
  unfold terminalInitialize
  refine OnScreen.updateCursor ⟨?_, ?_, ?_⟩
  · rw [foldl_keeps Terminal.row]
    · exact (by decide : 0 < terminalHeight)
    · intro terminal y
      rw [foldl_keeps Terminal.row]
      exact fun _ _ => rfl
  · rw [foldl_keeps Terminal.column]
    · exact (by decide : 0 < terminalWidth)
    · intro terminal y
      rw [foldl_keeps Terminal.column]
      exact fun _ _ => rfl
  · refine WritesScreen.foldl (fun terminal y row writes => ?_) (fun _ none => nomatch none)
    exact WritesScreen.foldl (fun terminal x column writes =>
      writes.putcharAt _ _ (List.mem_range.mp column) (List.mem_range.mp row)) writes

end Terminal

namespace Shell

open Terminal

/-- Printing in a color. -/
theorem printIn_onScreen {shell : Shell} (onScreen : shell.terminal.OnScreen)
    (unknown : Printed → List UInt8) (color : UInt8) (format : List UInt8) (args : List Arg) :
    (shell.printIn unknown color format args).terminal.OnScreen :=
  (onScreen.inColor color).printf unknown format args

/-- Printing the prompt. -/
theorem printPrompt_onScreen {shell : Shell} (onScreen : shell.terminal.OnScreen)
    (unknown : Printed → List UInt8) : (shell.printPrompt unknown).terminal.OnScreen := by
  unfold printPrompt
  refine OnScreen.printf (OnScreen.inColor ?_ _) _ _ _
  repeat' apply printIn_onScreen
  split <;> exact onScreen

/-- Putting spaces over a line. -/
theorem clearLine_onScreen {terminal : Terminal} (onScreen : terminal.OnScreen) :
    (clearLine terminal).OnScreen := by
  obtain ⟨row, column, written⟩ := onScreen
  refine ⟨?_, (by decide : 0 < terminalWidth), ?_⟩
  · unfold clearLine
    dsimp only
    -- The loop puts characters and leaves the row alone.
    rw [foldl_keeps Terminal.row]
    · exact row
    · exact fun _ _ => rfl
  · refine WritesScreen.foldl (fun cleared x inside writes => writes.putcharAt _ _ ?_ row) written
    exact (List.mem_range.mp inside).trans column

/-- Completing a word, whatever is found. -/
theorem handleTabCompletion_onScreen {shell next : Shell} (onScreen : shell.terminal.OnScreen)
    {memory : Buffer} {unknown : Printed → List UInt8}
    (returned : shell.handleTabCompletion memory unknown = .ok next) :
    next.terminal.OnScreen := by
  unfold handleTabCompletion at returned
  generalize (cutLastSpace shell.input).getD (shell.input, shell.input) = cut at returned
  obtain ⟨command, word⟩ := cut
  dsimp only at returned
  split at returned
  · cases returned
    exact onScreen
  · obtain ⟨⟨currentTabMatch, tabMatches⟩, -, rest⟩ := Run.bind_eq_ok.mp returned
    dsimp only at rest
    split at rest
    · cases rest
      exact onScreen
    · split at rest
      · cases rest
      · cases rest
        exact (printPrompt_onScreen (clearLine_onScreen (onScreen.printf _ _ _)) _).printf _ _ _

/-- A key does not take back a character while the cursor is at the start of a row. -/
def TakesBackInRow (shell : Shell) (keypress : Keypress) : Prop :=
  keypress.key = .backspace → shell.input ≠ [] → shell.terminal.column ≠ 0

/-- Going to a column of the screen and putting a space there. -/
theorem spaceAt_onScreen {terminal : Terminal} (onScreen : terminal.OnScreen) (color : UInt8)
    {back : Nat} (inside : back < terminalWidth) :
    (({ terminal with column := back }.putcharAt space color back
      terminal.row).updateCursor).OnScreen :=
  OnScreen.updateCursor ⟨onScreen.row, inside,
    onScreen.written.writeCell (cellIndex_lt inside onScreen.row) (vgaEntry space color)⟩

/-- Going back by one column stays in the row unless that is where it starts. -/
theorem takeBack_onScreen_iff {terminal : Terminal} (onScreen : terminal.OnScreen)
    (color : UInt8) :
    (({ terminal with column := (terminal.column + 2 ^ 16 - 1) % 2 ^ 16 }.putcharAt space color
      ((terminal.column + 2 ^ 16 - 1) % 2 ^ 16) terminal.row).updateCursor).OnScreen ↔
      terminal.column ≠ 0 := by
  have column := onScreen.column
  constructor
  · rintro ⟨-, small, -⟩ start
    have back : (terminal.column + 2 ^ 16 - 1) % 2 ^ 16 < terminalWidth := small
    simp only [start, terminalWidth] at back
    omega
  · intro inside
    have back : (terminal.column + 2 ^ 16 - 1) % 2 ^ 16 < terminalWidth := by
      simp only [terminalWidth] at *
      omega
    exact spaceAt_onScreen onScreen color back

/-- A key leaves the cursor on the screen just when it does not take back from the start of a row. -/
theorem processKeypress_onScreen_iff {shell next : Shell} {keypress : Keypress}
    (onScreen : shell.terminal.OnScreen) (returned : shell.processKeypress keypress = .ok next) :
    next.terminal.OnScreen ↔ shell.TakesBackInRow keypress := by
  unfold processKeypress at returned
  unfold TakesBackInRow
  split at returned
  · next is =>
    rw [is]
    exact iff_of_true (handleTabCompletion_onScreen onScreen returned) nofun
  · next is =>
    rw [is]
    dsimp only at returned
    split at returned
    · next empty =>
      cases returned
      exact iff_of_true onScreen fun _ some => absurd empty some
    · next some =>
      cases returned
      -- A character is taken back, which is the one step that moves the cursor to the left.
      simpa [some] using takeBack_onScreen_iff onScreen shell.terminal.color
  · next is =>
    rw [is]
    dsimp only at returned
    split at returned
    · cases returned
      exact iff_of_true (onScreen.putchar _) nofun
    · cases returned
      exact iff_of_true onScreen nofun

/-- The shell behind its first prompt, on a terminal that has just been set up. -/
def start (shell : Shell) (unknown : Printed → List UInt8) : Shell :=
  { shell with
    terminal := terminalInitialize shell.terminal.cells, input := [] }.printPrompt unknown

/-- The cursor is on the screen behind the first prompt. -/
theorem start_onScreen (shell : Shell) (unknown : Printed → List UInt8) :
    (shell.start unknown).terminal.OnScreen := by
  refine printPrompt_onScreen ?_ unknown
  exact terminalInitialize_onScreen shell.terminal.cells

/-- A key that is pressed, as a step of a run. -/
def press (shell : Shell) (keypress : Keypress) : Option Shell :=
  (shell.processKeypress keypress).toOption

/--
Along every run of keys the cursor stays on the screen just when none takes back a character from
the start of a row.
-/
theorem cursor_on_screen_iff (shell : Shell) (unknown : Printed → List UInt8)
    (keys : List Keypress) {last : Shell}
    (ran : Calls.run press (shell.start unknown) keys = some last) :
    (∀ front between, front <+: keys →
      Calls.run press (shell.start unknown) front = some between → between.terminal.OnScreen) ↔
      Calls.AllMeet press TakesBackInRow (shell.start unknown) keys :=
  Calls.run_invariant_iff (fun shell : Shell => shell.terminal.OnScreen)
    (fun _ _ _ onScreen pressed =>
      processKeypress_onScreen_iff onScreen (Run.toOption_eq_some.mp pressed))
    keys (shell.start unknown) last (shell.start_onScreen unknown) ran

/-- A shell in the root directory. -/
def rootShell : Shell :=
  ⟨terminalInitialize fun _ => 0, 0, [], 0, [], FileSystem.smallVolume (fun _ => 0) 2⟩

/-- The key of a letter. -/
def letterKey : Keypress := ⟨.printable 0x61 (by decide), fun _ => 0, fun _ => []⟩

/-- The key that takes back. -/
def backspaceKey : Keypress := ⟨.backspace, fun _ => 0, fun _ => []⟩

/-- A letter is typed and taken back. -/
theorem cursor_on_screen_letter :
    ∃ last, Calls.run press (rootShell.start fun _ => []) [letterKey, backspaceKey] = some last ∧
      ((∀ front between, front <+: [letterKey, backspaceKey] →
        Calls.run press (rootShell.start fun _ => []) front = some between →
          between.terminal.OnScreen) ↔
      Calls.AllMeet press TakesBackInRow (rootShell.start fun _ => [])
        [letterKey, backspaceKey]) :=
  ⟨_, rfl, cursor_on_screen_iff rootShell _ _ rfl⟩

/-- Behind a prompt of twelve characters the row is full after sixty-eight letters. -/
theorem cursor_leaves_screen :
    ¬ ∀ (shell : Shell) (unknown : Printed → List UInt8) (keys : List Keypress) (last : Shell),
      Calls.run press (shell.start unknown) keys = some last → last.terminal.OnScreen := by
  intro stays
  -- The letter that fills the row moves the cursor to the next one, and the key takes it from there.
  have column : (Calls.run press (rootShell.start fun _ => [])
      (List.replicate 68 letterKey ++ [backspaceKey])).map (fun shell => shell.terminal.column) =
      some 65535 := by decide +kernel
  obtain ⟨last, ran, far⟩ := Option.map_eq_some_iff.mp column
  have small := (stays rootShell _ _ last ran).column
  rw [far] at small
  exact absurd small (by decide)

end Shell

end Pocky
