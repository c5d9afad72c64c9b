import Pocky.Shell.Pager
import Pocky.Shell.TerminalLaws
import Pocky.Text.Snprintf

/-! The pager at work: the keys that turn its pages, and the screen that it gives back. -/

namespace Pocky

/-- The lines of a page; the last row is for what the pager says itself. -/
def pageRows : Nat := terminalHeight - 1

/-- The cells of the screen. -/
def screenSize : Nat := terminalWidth * terminalHeight

/-- Black on white. -/
def pagerColor : UInt8 := 0xF0

/-- The screen that is to be given back. -/
structure ScreenState where
  /-- The cells. -/
  cells : Nat → UInt16
  /-- The row. -/
  row : Nat
  /-- The column. -/
  column : Nat
  /-- The color. -/
  color : UInt8

namespace ScreenState

/-- Saving the screen. -/
def save (terminal : Terminal) : ScreenState :=
  ⟨terminal.cells, terminal.row, terminal.column, terminal.color⟩

/-- Giving it back. -/
def restore (saved : ScreenState) (terminal : Terminal) : Terminal :=
  let restored : Terminal :=
    { row := saved.row
      column := saved.column
      color := saved.color
      cells := fun index => if index < screenSize then saved.cells index else terminal.cells index
      written := (List.range screenSize).reverse ++ terminal.written }
  restored.updateCursor

end ScreenState

/-- The pager. -/
structure Pager where
  /-- The lines of the text. -/
  lines : LineTable
  /-- How many there are. -/
  lineCount : Nat
  /-- The first one on the page. -/
  currentLine : Nat
  /-- Whether the keys are for the pager. -/
  active : Bool
  /-- The screen before the pager. -/
  saved : ScreenState

/-- The pager and the shell that it was started from. -/
structure PagerSession where
  /-- The pager. -/
  pager : Pager
  /-- The shell. -/
  shell : Shell

/-- The text of a row. -/
def rowText (row : Nat → UInt8) : List UInt8 := stringIn row maxLineLength

namespace Pager

/-- The page, printed on a clear screen. -/
def displayCurrentPage (pager : Pager) (unknown : Printed → List UInt8) (terminal : Terminal) :
    Terminal :=
  let page := List.range (min pageRows (pager.lineCount - pager.currentLine))
  let terminal := page.foldl (fun terminal i =>
    terminal.printf unknown (chars "%s\n")
      [.text (some (rowText (pager.lines (pager.currentLine + i))))])
    (terminalInitialize terminal.cells)
  let oldColor := terminal.color
  let terminal := { terminal with color := pagerColor, row := terminalHeight - 1, column := 0 }
  let terminal :=
    if pager.lineCount ≤ pageRows then terminal.printf unknown (chars "(END) q:quit") []
    else
      let percent := .word (BitVec.ofNat 64
        (pager.currentLine * 100 / (pager.lineCount - pageRows + 1)))
      if pager.lineCount ≤ pager.currentLine + pageRows then
        terminal.printf unknown (chars "(END %lu%%) q:quit") [percent]
      else
        terminal.printf unknown (chars "(%lu%%) j/%c:down k/%c:up q:quit")
          [percent, .word 25, .word 24]
  { terminal with color := oldColor }

/-- The line that a key makes the first one on the page, if it turns pages then. -/
def turn (pager : Pager) (c : UInt8) : Option Nat :=
  let more := pager.currentLine + pageRows < pager.lineCount
  -- A line down: `j` or escape.
  if c = 0x6A ∨ c = 0x1B then if more then some (pager.currentLine + 1) else none
  -- A line up: `k`.
  else if c = 0x6B then if 0 < pager.currentLine then some (pager.currentLine - 1) else none
  -- A page down: the space or control and `d`.
  else if c = space ∨ c = 0x04 then
    if more then
      some (if pager.lineCount < pager.currentLine + pageRows + pageRows then
        pager.lineCount - pageRows else pager.currentLine + pageRows)
    else none
  -- A page up: control and `u`.
  else if c = 0x15 then
    if 0 < pager.currentLine then
      some (if pageRows ≤ pager.currentLine then pager.currentLine - pageRows else 0)
    else none
  -- The start: `g`.
  else if c = 0x67 then if 0 < pager.currentLine then some 0 else none
  -- The end: `G`.
  else if c = 0x47 then if more then some (pager.lineCount - pageRows) else none
  else none

end Pager

namespace PagerSession

/-- Leaving the pager. -/
def clear (session : PagerSession) (unknown : Printed → List UInt8) : PagerSession :=
  { pager := { session.pager with active := false }
    shell := Shell.printPrompt { session.shell with
      terminal := session.pager.saved.restore session.shell.terminal } unknown }

/-- Showing the page. -/
def display (session : PagerSession) (unknown : Printed → List UInt8) : PagerSession :=
  { session with shell := { session.shell with
      terminal := session.pager.displayCurrentPage unknown session.shell.terminal } }

/-- A key for the pager. -/
def processKeypress (unknown : Printed → List UInt8) (session : PagerSession) (c : UInt8) :
    PagerSession :=
  if !session.pager.active then session
  else if c = 0x71 then session.clear unknown
  else match session.pager.turn c with
    | none => session
    | some line =>
      { session with pager := { session.pager with currentLine := line } }.display unknown

/-- Showing a text from its start. -/
def showText (session : PagerSession) (unknown : Printed → List UInt8) (text : List UInt8) :
    Run PagerSession := do
  let (lines, lineCount) ← splitText session.pager.lines text
  let pager : Pager := ⟨lines, lineCount, 0, true, ScreenState.save session.shell.terminal⟩
  return { session with pager := pager }.display unknown

end PagerSession

/-- Two terminals look the same, and print at the same place. -/
structure SameScreen (one other : Terminal) : Prop where
  /-- The row. -/
  row : one.row = other.row
  /-- The column. -/
  column : one.column = other.column
  /-- The color. -/
  color : one.color = other.color
  /-- The cells of the screen. -/
  cells : ∀ index < screenSize, one.cells index = other.cells index

/-- The screen that is given back is the one that was saved, with the cursor shown. -/
theorem ScreenState.restore_save (terminal other : Terminal) :
    SameScreen ((ScreenState.save terminal).restore other) terminal.updateCursor := by
  refine ⟨rfl, rfl, rfl, fun index inside => ?_⟩
  dsimp only [save, restore, Terminal.updateCursor, Terminal.writeCell]
  by_cases cursor : index = cellIndex terminal.column terminal.row
  · obtain rfl := cursor
    rw [Function.update_self, Function.update_self, if_pos inside]
  · rw [Function.update_of_ne cursor, Function.update_of_ne cursor, if_pos inside]

/-- The pager that a session started shows a page of a text. -/
structure Pages (start : PagerSession) (unknown : Printed → List UInt8) (text : List UInt8)
    (session : PagerSession) : Prop where
  /-- The keys are for the pager. -/
  active : session.pager.active = true
  /-- The screen before it is kept. -/
  saved : session.pager.saved = ScreenState.save start.shell.terminal
  /-- The lines are those of the text. -/
  lines : ∀ index < (pagerLines text).length,
    HoldsLine (session.pager.lines index) ((pagerLines text).getD index [])
  /-- All of them are there. -/
  count : session.pager.lineCount = (pagerLines text).length
  /-- The page is full, or the text is too short for that. -/
  full : session.pager.currentLine ≤ session.pager.lineCount - pageRows
  /-- The page is on the screen. -/
  shown : ∃ before, session.shell.terminal = session.pager.displayCurrentPage unknown before
  /-- Of the shell only the terminal changes. -/
  shell : session.shell = { start.shell with terminal := session.shell.terminal }

/-- A line is on the page. -/
def OnPage (index : Nat) (session : PagerSession) : Prop :=
  session.pager.currentLine ≤ index ∧ index < session.pager.currentLine + pageRows

/-- What is printed of a row that holds a line is the line. -/
theorem HoldsLine.rowText {row : Nat → UInt8} {line : List UInt8} (holds : HoldsLine row line)
    (whole : 0 ∉ line) : rowText row = line :=
  HoldsString.stringIn ⟨holds.starts, holds.ends⟩ holds.fits whole

/-- A line of a text has no zero unless the text has one. -/
theorem pagerLines_whole {text : List UInt8} (whole : 0 ∉ text) (index : Nat) :
    0 ∉ (pagerLines text).getD index [] := by
  by_cases inside : index < (pagerLines text).length
  · rw [List.getD_eq_getElem _ _ inside]
    have member := List.mem_of_mem_take (List.getElem_mem inside)
    rw [← linesFrom_nil newline (by decide)] at member
    intro zero
    exact (linesFrom_subset member 0 zero).elim (List.not_mem_nil) whole
  · rw [List.getD_eq_getElem?_getD, List.getElem?_eq_none (by omega)]
    exact List.not_mem_nil

/-- A key turns to a full page. -/
theorem Pager.turn_full {pager : Pager} {c : UInt8} {line : Nat}
    (full : pager.currentLine ≤ pager.lineCount - pageRows) (turned : pager.turn c = some line) :
    line ≤ pager.lineCount - pageRows := by
  unfold turn at turned
  dsimp only at turned
  split_ifs at turned <;> cases turned <;> omega

namespace Pages

variable {start session : PagerSession} {unknown : Printed → List UInt8} {text : List UInt8}

/-- Turning to a page keeps the text, and everything but the terminal. -/
theorem turned (pages : Pages start unknown text session) {line : Nat}
    (full : line ≤ session.pager.lineCount - pageRows) :
    Pages start unknown text
      ({ session with pager := { session.pager with currentLine := line } }.display unknown) := by
  refine ⟨pages.active, pages.saved, pages.lines, pages.count, full, ⟨_, rfl⟩, ?_⟩
  have same := pages.shell
  rw [PagerSession.display, same]

/-- A key other than `q` leaves the text on the screen. -/
theorem step (pages : Pages start unknown text session) {c : UInt8}
    (stays : c ≠ 0x71) : Pages start unknown text (session.processKeypress unknown c) := by
  rw [PagerSession.processKeypress, pages.active, Bool.not_true, if_neg Bool.false_ne_true,
    if_neg stays]
  cases turned : session.pager.turn c with
  | none => exact pages
  | some line => exact pages.turned (Pager.turn_full pages.full turned)

/-- So do several of them. -/
theorem run (pages : Pages start unknown text session) (keys : List UInt8)
    (stays : 0x71 ∉ keys) :
    Pages start unknown text (keys.foldl (PagerSession.processKeypress unknown) session) := by
  -- By induction on the keys, with the session that they find.
  induction keys generalizing session with
  | nil => exact pages
  | cons c keys ih =>
    rw [List.mem_cons, not_or] at stays
    exact ih (pages.step (Ne.symm stays.1)) stays.2

/-- A line down, where there is one below the page. -/
theorem press_down (pages : Pages start unknown text session)
    (more : session.pager.currentLine + pageRows < session.pager.lineCount) :
    (session.processKeypress unknown 0x6A).pager =
      { session.pager with currentLine := session.pager.currentLine + 1 } := by
  have turned : session.pager.turn 0x6A = some (session.pager.currentLine + 1) := by
    rw [Pager.turn]
    exact if_pos more
  rw [PagerSession.processKeypress, pages.active, Bool.not_true, if_neg Bool.false_ne_true,
    if_neg (by decide), turned]
  rfl

/-- The start of the text. -/
theorem press_start (pages : Pages start unknown text session) :
    (session.processKeypress unknown 0x67).pager = { session.pager with currentLine := 0 } := by
  rw [PagerSession.processKeypress, pages.active, Bool.not_true, if_neg Bool.false_ne_true,
    if_neg (by decide)]
  by_cases below : 0 < session.pager.currentLine
  · have turned : session.pager.turn 0x67 = some 0 := by
      rw [Pager.turn]
      exact if_pos below
    rw [turned]
    rfl
  · have turned : session.pager.turn 0x67 = none := by
      rw [Pager.turn]
      exact if_neg below
    have first : session.pager.currentLine = 0 := Nat.eq_zero_of_not_pos below
    rw [turned]
    dsimp only
    rw [← first]

/-- Several lines down, as long as there are lines below the page. -/
theorem run_down (pages : Pages start unknown text session) (lines : Nat)
    (room : session.pager.currentLine + lines ≤ session.pager.lineCount - pageRows) :
    ((List.replicate lines 0x6A).foldl (PagerSession.processKeypress unknown)
      session).pager.currentLine = session.pager.currentLine + lines := by
  -- By induction on the lines, with the session that the first one leads to.
  induction lines generalizing session with
  | zero => rfl
  | succ lines ih =>
    have down := pages.press_down (by omega)
    rw [List.replicate_succ, List.foldl_cons, ih (pages.step (by decide)), down]
    · dsimp only
      omega
    · rw [down]
      dsimp only
      omega

/-- Every line comes on the page if the right keys are pressed. -/
theorem reaches (pages : Pages start unknown text session) {index : Nat}
    (inside : index < (pagerLines text).length) :
    ∃ more : List UInt8, 0x71 ∉ more ∧
      OnPage index (more.foldl (PagerSession.processKeypress unknown) session) := by
  have count := pages.count
  have first := pages.press_start
  have rows : 0 < pageRows := by decide
  -- From the start of the text, down until the line is the last one on the page.
  refine ⟨0x67 :: List.replicate (index + 1 - pageRows) 0x6A, ?_, ?_⟩
  · rw [List.mem_cons, List.mem_replicate, not_or]
    exact ⟨by decide, fun same => absurd same.2 (by decide)⟩
  · have down := (pages.step (c := 0x67) (by decide)).run_down
      (index + 1 - pageRows) (by
        rw [first]
        dsimp only
        omega)
    rw [OnPage, List.foldl_cons, down, first]
    dsimp only
    omega

/-- Leaving the pager gives the screen back behind which the prompt is printed. -/
theorem leaves (pages : Pages start unknown text session) :
    (session.processKeypress unknown 0x71).pager.active = false ∧
      ∃ terminal, SameScreen terminal start.shell.terminal.updateCursor ∧
        (session.processKeypress unknown 0x71).shell =
          Shell.printPrompt { start.shell with terminal := terminal } unknown := by
  rw [PagerSession.processKeypress, pages.active, Bool.not_true, if_neg Bool.false_ne_true,
    if_pos rfl]
  refine ⟨rfl, _, ScreenState.restore_save start.shell.terminal session.shell.terminal, ?_⟩
  rw [PagerSession.clear, pages.saved, pages.shell]

end Pages

namespace PagerSession

/-- A text that is shown is paged. -/
theorem showText_pages (start : PagerSession) (unknown : Printed → List UInt8)
    (text : List UInt8) :
    ∃ shown, start.showText unknown text = .ok shown ∧ Pages start unknown text shown := by
  obtain ⟨lines, split, holds⟩ := splitText_lines start.pager.lines text
  refine ⟨_, by rw [showText, split]; rfl, ?_⟩
  exact ⟨rfl, rfl, holds, rfl, Nat.zero_le _, ⟨_, rfl⟩, rfl⟩

/--
Whatever keys are pressed, the pager shows full pages of the text, from which every line can be
reached, and leaving it gives back the screen that it was started from.
-/
theorem pager_gives_back (start : PagerSession) (unknown : Printed → List UInt8)
    (text : List UInt8) :
    ∃ shown, start.showText unknown text = .ok shown ∧ ∀ keys : List UInt8, 0x71 ∉ keys →
      Pages start unknown text (keys.foldl (processKeypress unknown) shown) ∧
      (0 ∉ text → ∀ index < (pagerLines text).length,
        rowText ((keys.foldl (processKeypress unknown) shown).pager.lines index) =
          (pagerLines text).getD index []) ∧
      (∀ index < (pagerLines text).length, ∃ more : List UInt8, 0x71 ∉ more ∧
        OnPage index ((keys ++ more).foldl (processKeypress unknown) shown)) ∧
      ((keys ++ [0x71]).foldl (processKeypress unknown) shown).pager.active = false ∧
      ∃ terminal, SameScreen terminal start.shell.terminal.updateCursor ∧
        ((keys ++ [0x71]).foldl (processKeypress unknown) shown).shell =
          Shell.printPrompt { start.shell with terminal := terminal } unknown := by
  obtain ⟨shown, returned, pages⟩ := start.showText_pages unknown text
  refine ⟨shown, returned, fun keys stays => ?_⟩
  have reached := pages.run keys stays
  refine ⟨reached, fun whole index inside => ?_, fun index inside => ?_, ?_⟩
  · exact (reached.lines index inside).rowText (pagerLines_whole whole index)
  · obtain ⟨more, others, onPage⟩ := reached.reaches inside
    exact ⟨more, others, by rw [List.foldl_append]; exact onPage⟩
  · rw [List.foldl_append]
    exact reached.leaves

/-- A session in which nothing has been shown yet. -/
def rootSession : PagerSession :=
  ⟨⟨fun _ _ => 0, 0, 0, false, ScreenState.save Shell.rootShell.terminal⟩, Shell.rootShell⟩

/-- A text of two lines, with a key that has nowhere to go. -/
theorem pager_gives_back_two :
    ∃ shown, rootSession.showText (fun _ => []) (chars "a\nb") = .ok shown ∧
      rowText ((shown.processKeypress (fun _ => []) 0x6A).pager.lines 1) = chars "b" ∧
      ∃ terminal, SameScreen terminal rootSession.shell.terminal.updateCursor ∧
        ([0x6A, 0x71].foldl (processKeypress fun _ => []) shown).shell =
          Shell.printPrompt { rootSession.shell with terminal := terminal } fun _ => [] := by
  obtain ⟨shown, returned, all⟩ := pager_gives_back rootSession (fun _ => []) (chars "a\nb")
  obtain ⟨-, lines, -, -, left⟩ := all [0x6A] (by decide)
  have second : (pagerLines (chars "a\nb")).getD 1 [] = chars "b" := by decide +kernel
  exact ⟨shown, returned, (lines (by decide) 1 (by decide +kernel)).trans second, left⟩

end PagerSession

end Pocky
