import Pocky.Lib.Calls
import Pocky.Shell.ChangeDirectory
import Pocky.Shell.Screen
import Pocky.Text.Printf

/-! The terminal with its cursor, the shell's prompt and the keys that edit its input line. -/

namespace Pocky

/-- White on black. -/
def whiteColor : UInt8 := 0x0F

/-- Light grey on black. -/
def grayColor : UInt8 := 0x07

/-- The bytes of the input line, the zero behind it included. -/
def inputSize : Nat := 256

/-- How many completions are kept. -/
def maxTabMatches : Nat := 16

/-- The characters of a slot's name as a completion sees them. -/
def slotNameLength : Nat := 11

/-- The cell of a column and a row, on words of 16 bits. -/
def cellIndex (x y : Nat) : Nat := (y * terminalWidth + x) % 2 ^ 16

/-- A character and its color in a cell; the character has a sign. -/
def vgaEntry (char color : UInt8) : UInt16 :=
  (if char < 128 then char.toUInt16 else char.toUInt16 ||| 0xFF00) ||| color.toUInt16 <<< 8

/-- The terminal: where it prints next, and the cells in video memory. -/
structure Terminal where
  /-- The row, in a word of 16 bits. -/
  row : Nat
  /-- The column, in a word of 16 bits. -/
  column : Nat
  /-- The color. -/
  color : UInt8
  /-- The cells. -/
  cells : Nat → UInt16
  /-- The cells that have been written, the last one first. -/
  written : List Nat

namespace Terminal

/-- Writing a cell. -/
def writeCell (terminal : Terminal) (index : Nat) (entry : UInt16) : Terminal :=
  { terminal with
    cells := Function.update terminal.cells index entry, written := index :: terminal.written }

/-- Showing the cursor, which takes the background from the cell it is in. -/
def updateCursor (terminal : Terminal) : Terminal :=
  let pos := cellIndex terminal.column terminal.row
  terminal.writeCell pos (terminal.cells pos &&& 0x0FFF)

/-- A character at a place. -/
def putcharAt (terminal : Terminal) (char color : UInt8) (x y : Nat) : Terminal :=
  terminal.writeCell (cellIndex x y) (vgaEntry char color)

/-- Moving all rows up by one, and clearing the last one. -/
def scroll (terminal : Terminal) : Terminal :=
  let terminal := (List.range (terminalHeight - 1)).foldl (fun terminal y =>
    (List.range terminalWidth).foldl (fun terminal x =>
      terminal.writeCell (cellIndex x y) (terminal.cells (cellIndex x (y + 1)))) terminal) terminal
  (List.range terminalWidth).foldl (fun terminal x =>
    terminal.putcharAt space whiteColor x (terminalHeight - 1)) terminal

/-- Going to the next row, behind the last of which everything moves up. -/
def nextRow (terminal : Terminal) : Terminal :=
  let terminal := { terminal with column := 0, row := (terminal.row + 1) % 2 ^ 16 }
  -- Only the row right behind the last one makes the screen scroll.
  if terminal.row = terminalHeight then { terminal.scroll with row := terminalHeight - 1 }
  else terminal

/-- Printing a character. -/
def putchar (terminal : Terminal) (char : UInt8) : Terminal :=
  if char = newline then terminal.nextRow.updateCursor
  else
    let terminal := terminal.putcharAt char terminal.color terminal.column terminal.row
    let terminal := { terminal with column := (terminal.column + 1) % 2 ^ 16 }
    (if terminal.column = terminalWidth then terminal.nextRow else terminal).updateCursor

/-- Printing characters one after the other. -/
def print (terminal : Terminal) (text : List UInt8) : Terminal := text.foldl putchar terminal

/-- Printing a format; where that is not defined, anything may be printed. -/
def printf (terminal : Terminal) (unknown : Printed → List UInt8) (format : List UInt8)
    (args : List Arg) : Terminal :=
  let printed := vprintf format args
  terminal.print (if printed.undefined || printed.past then unknown printed else printed.output)

end Terminal

/-- A terminal of spaces with the cursor in front of them. -/
def terminalInitialize (cells : Nat → UInt16) : Terminal :=
  let terminal : Terminal := ⟨0, 0, whiteColor, cells, []⟩
  ((List.range terminalHeight).foldl (fun terminal y =>
    (List.range terminalWidth).foldl (fun terminal x =>
      terminal.putcharAt space whiteColor x y) terminal) terminal).updateCursor

/-- A key that edits the input line. -/
inductive Key where
  /-- A printable character. -/
  | printable (char : UInt8) (range : 0x20 ≤ char ∧ char ≤ 0x7E)
  /-- The one that takes back a character. -/
  | backspace
  /-- The one that completes the last word. -/
  | tab

/-- A key that is pressed, and what the shell finds then. -/
structure Keypress where
  /-- The key. -/
  key : Key
  /-- The memory a directory is read to. -/
  memory : Buffer
  /-- What is printed where that is not defined. -/
  unknown : Printed → List UInt8

/-- The shell as far as it edits its input line. -/
structure Shell where
  /-- The terminal. -/
  terminal : Terminal
  /-- The color to go back to. -/
  savedColor : UInt8
  /-- The input line. -/
  input : Name
  /-- The completion that comes next. -/
  currentTabMatch : Nat
  /-- The completions of the last word, if it is being completed. -/
  tabMatches : List Name
  /-- The file system. -/
  fs : FileSystem

/-- The characters in front of the last space and those behind it, if there is one. -/
def cutLastSpace (input : Name) : Option (Name × Name) :=
  if space ∈ input then
    let lastWord := (input.reverse.takeWhile (· ≠ space)).reverse
    some (input.take (input.length - lastWord.length - 1), lastWord)
  else none

/-- The name in a slot of a directory, padding included. -/
def slotText (data : Buffer) (offset : Nat) : Name :=
  ((List.range slotNameLength).map fun i => data (offset + i)).takeWhile (· ≠ 0)

/-- The names in a directory that start with a word; cd takes only those of directories. -/
def findTabMatches (data : Buffer) (command word : Name) : Nat → Nat → List Name → List Name
  | 0, _, found => found
  | remaining + 1, offset, found =>
    if data offset = 0x00 then found
    -- A slot that was deleted.
    else if data offset = 0xE5 then
      findTabMatches data command word remaining (offset + slotSize) found
    else if word.isPrefixOf (slotText data offset) then
      if command = chars "cd" ∧ !isDirectory (data (offset + 11)) then
        findTabMatches data command word remaining (offset + slotSize) found
      else if found.length < maxTabMatches then
        findTabMatches data command word remaining (offset + slotSize)
          (found ++ [slotText data offset])
      else findTabMatches data command word remaining (offset + slotSize) found
    else findTabMatches data command word remaining (offset + slotSize) found

namespace Shell

/-- Printing in a color, after which the one before it is the one to go back to. -/
def printIn (shell : Shell) (unknown : Printed → List UInt8) (color : UInt8)
    (format : List UInt8) (args : List Arg) : Shell :=
  { shell with
    savedColor := shell.terminal.color
    terminal := { shell.terminal with color := color }.printf unknown format args }

/-- Printing the prompt. -/
def printPrompt (shell : Shell) (unknown : Printed → List UInt8) : Shell :=
  let shell := if shell.fs.currentDirName = [] then
    { shell with fs := shell.fs.setCurrentDirName [slash] } else shell
  let shell := shell.printIn unknown whiteColor (chars "[") []
  let shell := shell.printIn unknown grayColor (chars "kernel") []
  let shell := shell.printIn unknown whiteColor (chars " ") []
  let shell := shell.printIn unknown grayColor (chars "%s") [.text (some shell.fs.currentDirName)]
  let shell := shell.printIn unknown whiteColor (chars "]") []
  let shell := shell.printIn unknown grayColor (chars "$") []
  -- The color before the last one comes back.
  { shell with terminal :=
    { shell.terminal with color := shell.savedColor }.printf unknown (chars " ") [] }

/-- Putting spaces over the characters in front of the cursor. -/
def clearLine (terminal : Terminal) : Terminal :=
  { (List.range terminal.column).foldl (fun cleared x =>
      cleared.putcharAt space terminal.color x terminal.row) terminal with column := 0 }

/-- The completions of the last word, which are looked for unless it is being completed already. -/
def completions (shell : Shell) (memory : Buffer) (command word : Name) : Run (Nat × List Name) :=
  if shell.tabMatches ≠ [] then .ok (shell.currentTabMatch, shell.tabMatches)
  else do
    let found ← shell.fs.findFile dot
    let cluster := (found.map Found.cluster).getD rootCluster
    let data := shell.fs.readFile cluster memory cdBufferSize
    return (0, findTabMatches data command word (cdBufferSize / slotSize) 0 [])

/--
Completing the last word.

The line is printed anew behind a prompt in the row of the cursor, and the word is copied into the
input line whether it has room there or not.
-/
def handleTabCompletion (shell : Shell) (memory : Buffer) (unknown : Printed → List UInt8) :
    Run Shell := do
  let (command, word) := (cutLastSpace shell.input).getD (shell.input, shell.input)
  if word = [] then return shell
  let (currentTabMatch, tabMatches) ← shell.completions memory command word
  if tabMatches = [] then return { shell with currentTabMatch := currentTabMatch }
  let found := tabMatches.getD currentTabMatch []
  let terminal := clearLine (shell.terminal.printf unknown (chars "\r") [])
  let input := shell.input.take (shell.input.length - word.length) ++ found
  -- The copy ends where the completion does, not where the buffer does.
  if inputSize ≤ input.length then .error .overrun
  else
    let shell := { shell with terminal := terminal, input := input }.printPrompt unknown
    return { shell with
      terminal := shell.terminal.printf unknown (chars "%s") [.text (some input)]
      currentTabMatch := (currentTabMatch + 1) % tabMatches.length
      tabMatches := tabMatches }

/-- A key that is pressed while neither the editor nor the pager is there. -/
def processKeypress (shell : Shell) (keypress : Keypress) : Run Shell :=
  match keypress.key with
  | .tab => shell.handleTabCompletion keypress.memory keypress.unknown
  | .backspace =>
    let shell := { shell with tabMatches := [] }
    if shell.input = [] then .ok shell
    else
      -- The column is counted back on 16 bits without a look at the start of the row.
      let column := (shell.terminal.column + 2 ^ 16 - 1) % 2 ^ 16
      let terminal := { shell.terminal with column := column }.putcharAt space shell.terminal.color
        column shell.terminal.row
      .ok { shell with input := shell.input.dropLast, terminal := terminal.updateCursor }
  | .printable char _ =>
    let shell := { shell with tabMatches := [] }
    if shell.input.length < inputSize - 1 then
      .ok { shell with input := shell.input ++ [char], terminal := shell.terminal.putchar char }
    else .ok shell

end Shell

end Pocky
