import Pocky.Shell.Editor

/-! What the editor puts on the screen: the text with its line numbers, the status line, the cursor. -/

namespace Pocky

/-- The columns of the screen. -/
def terminalWidth : Nat := 80

/-- The columns for line numbers. -/
def lineNumberWidth : Nat := 3

/-- The rows for text. -/
def visibleRows : Nat := terminalHeight - 1

/-- The row of the status line. -/
def statusLineRow : Nat := terminalHeight - 1

/-- The color of text. -/
def textColor : UInt8 := 0x0F

/-- The color of the number of the line with the cursor. -/
def lineNumberCurrentColor : UInt8 := 0x0F

/-- The color of other line numbers. -/
def lineNumberColor : UInt8 := 0x08

/-- The color of selected text. -/
def selectionColor : UInt8 := 0x70

/-- The color of the status line. -/
def statusTextColor : UInt8 := 0xF0

/-- A space. -/
def space : UInt8 := 0x20

/-- The characters of a text in the source. -/
def chars (text : String) : List UInt8 := text.toList.map fun c => UInt8.ofNat c.toNat

/-- A character that is put on the screen. -/
structure PutChar where
  /-- The character. -/
  char : UInt8
  /-- Its color. -/
  color : UInt8
  /-- The column. -/
  x : Nat
  /-- The row. -/
  y : Nat
  deriving Repr, DecidableEq

/--
The digits of a number, the last one first.

A number of 64 bits has at most twenty of them.
-/
def reversedDigits : Nat → Nat → List UInt8
  | 0, _ => []
  | fuel + 1, number =>
    UInt8.ofNat (0x30 + number % 10) ::
      if number / 10 = 0 then [] else reversedDigits fuel (number / 10)

/-- The digits of a number of 64 bits. -/
def digitsOf (number : Nat) : List UInt8 := (reversedDigits 20 number).reverse

/-- The characters a number is printed to, the zero behind it included. -/
def numberSize : Nat := 16

namespace TextEditor

/-- A row is one of those selected. -/
def isLineSelected (editor : TextEditor) (row : Nat) : Bool :=
  if !editor.hasSelection then false
  else if editor.selectionStartRow ≤ editor.selectionEndRow then
    editor.selectionStartRow ≤ row ∧ row ≤ editor.selectionEndRow
  else editor.selectionEndRow ≤ row ∧ row ≤ editor.selectionStartRow

/-- The name of the mode in the status line. -/
def modeIndicator (editor : TextEditor) : List UInt8 :=
  match editor.mode with
  | .normal => chars "[NORMAL]"
  | .insert => chars "[INSERT]"
  | .visual => chars "[VISUAL]"

/-- How many lines are selected. -/
def selectedLines (editor : TextEditor) : Nat :=
  if editor.selectionStartRow ≤ editor.selectionEndRow then
    (wrapSub editor.selectionEndRow editor.selectionStartRow + 1) % 2 ^ 64
  else (wrapSub editor.selectionStartRow editor.selectionEndRow + 1) % 2 ^ 64

/-- The number in the status line: the lines selected, or the line of the cursor. -/
def statusNumber (editor : TextEditor) : Nat :=
  if editor.mode = .visual ∧ editor.hasSelection then editor.selectedLines
  else (editor.cursorRow + 1) % 2 ^ 64

/-- What the status line says of the keys. -/
def statusKeys (editor : TextEditor) : List UInt8 :=
  match editor.mode with
  | .normal => chars " | Ctrl-S: Save | Ctrl-Q: Quit"
  | .visual => chars " | Shift-J/K: Select | Esc: Exit selection"
  | .insert => chars " | Esc: Normal mode"

/-- The string of the status line; a number that has no zero behind it in its place is no string. -/
def statusLine (editor : TextEditor) : Run (List UInt8) :=
  let number := digitsOf editor.statusNumber
  if numberSize ≤ number.length then .error .overrun
  else .ok (chars " " ++ editor.filename ++ chars " " ++
    (if editor.modified then chars "[modified]" else []) ++ chars " " ++ editor.modeIndicator ++
    (if editor.mode = .visual ∧ editor.hasSelection then
      chars " | Selected: " ++ number ++ chars " lines"
    else chars " | line: " ++ number) ++ editor.statusKeys)

/-- Filling the screen with spaces. -/
def clearScreen : List PutChar :=
  (List.range terminalHeight).flatMap fun y =>
    (List.range terminalWidth).map fun x => ⟨space, textColor, x, y⟩

/-- The scan for the first character on the screen, which follows a newline. -/
def scanLineStart (buffer : Buffer) (screenRow : Nat) : Nat → Nat → Nat → Nat → Nat
  | 0, _, _, lineStart => lineStart
  | remaining + 1, pos, currentRow, lineStart =>
    if currentRow < screenRow then
      if buffer pos = newline then
        scanLineStart buffer screenRow remaining (pos + 1) (currentRow + 1) (pos + 1)
      else scanLineStart buffer screenRow remaining (pos + 1) currentRow lineStart
    else lineStart

/-- Where the screen starts in the text. -/
def screenStart (editor : TextEditor) : Nat :=
  scanLineStart editor.buffer editor.screenRow editor.bufferSize 0 0 0

/-- The scan for a row of the screen: how much text is left, and the row it has come to. -/
def scanCheck (buffer : Buffer) (row : Nat) : Nat → Nat → Nat → Nat × Nat
  | 0, _, checkRow => (0, checkRow)
  | remaining + 1, pos, checkRow =>
    if checkRow < row then
      scanCheck buffer row remaining (pos + 1)
        (if buffer pos = newline then checkRow + 1 else checkRow)
    else (remaining + 1, checkRow)

/-- The row of the text that a row of the screen is numbered for. -/
def absRow (editor : TextEditor) (y : Nat) : Nat := (editor.screenRow + y) % 2 ^ 64

/-- A row of the screen has a line number: there is text for it, or the cursor is there. -/
def hasContent (editor : TextEditor) (y : Nat) : Bool :=
  let (left, checkRow) := scanCheck editor.buffer y (editor.bufferSize - editor.screenStart)
    editor.screenStart 0
  (0 < left ∧ checkRow = y) ∨ editor.absRow y = editor.cursorRow

/-- The spaces before a line number, and its digits from the last one back. -/
def lineNumber (color : UInt8) (number y : Nat) : List PutChar :=
  let digits := reversedDigits 20 number
  ((List.range (wrapSub lineNumberWidth digits.length)).map fun i => ⟨space, color, i, y⟩) ++
    (List.range digits.length).map fun i =>
      ⟨digits.getD i 0, color, wrapSub (wrapSub lineNumberWidth i) 1, y⟩

/-- The columns in front of the text of a row. -/
def drawMargin (editor : TextEditor) (y : Nat) : List PutChar :=
  (if editor.hasContent y then
    let color :=
      if editor.absRow y = editor.cursorRow then lineNumberCurrentColor else lineNumberColor
    if editor.absRow y < 999 then lineNumber color (editor.absRow y + 1) y else []
  else (List.range lineNumberWidth).map fun i => ⟨space, textColor, i, y⟩) ++
    [⟨space, textColor, lineNumberWidth, y⟩]

/-- Spaces from a column to the end of a row. -/
def drawBlanks (col row : Nat) : List PutChar :=
  (List.range (terminalWidth - col)).map fun i => ⟨space, textColor, col + i, row⟩

/-- The text from an offset on, and the row and the column behind it. -/
def drawText (editor : TextEditor) : Nat → Nat → Nat → Nat → Nat → List PutChar × Nat × Nat
  | 0, _, currentRow, col, _ => ([], currentRow, col)
  | remaining + 1, pos, currentRow, col, row =>
    if visibleRows ≤ currentRow then ([], currentRow, col)
    else if editor.buffer pos = newline then
      let (rest, stop) := editor.drawText remaining (pos + 1) (currentRow + 1) (lineNumberWidth + 1)
        ((row + 1) % 2 ^ 64)
      (drawBlanks col currentRow ++ rest, stop)
    else
      let color := if editor.isLineSelected row then selectionColor else textColor
      let (rest, stop) :=
        if terminalWidth ≤ col + 1 then
          editor.drawText remaining (pos + 1) (currentRow + 1) (lineNumberWidth + 1) row
        else editor.drawText remaining (pos + 1) currentRow (col + 1) row
      (⟨editor.buffer pos, color, col, currentRow⟩ :: rest, stop)

/-- Spaces in the rows that are left. -/
def drawRest : Nat → Nat → Nat → List PutChar
  | 0, _, _ => []
  | remaining + 1, currentRow, col =>
    drawBlanks col currentRow ++ drawRest remaining (currentRow + 1) (lineNumberWidth + 1)

/-- What is put on the screen, the status line left out. -/
def render (editor : TextEditor) : List PutChar :=
  if !editor.active then []
  else
    let (text, currentRow, col) := editor.drawText (editor.bufferSize - editor.screenStart)
      editor.screenStart 0 (lineNumberWidth + 1) editor.screenRow
    clearScreen ++ (List.range visibleRows).flatMap editor.drawMargin ++ text ++
      drawRest (visibleRows - currentRow) currentRow col

/-- Where the cursor of the screen is put; while lines are selected it is left where it is. -/
def updateCursor (editor : TextEditor) : Option (Nat × Nat) :=
  if editor.mode = .visual then none
  else
    let screenY := wrapSub editor.cursorRow editor.screenRow
    let screenX := (editor.cursorCol + lineNumberWidth + 1) % 2 ^ 64
    some (if terminalWidth ≤ screenX then terminalWidth - 1 else screenX,
      if terminalHeight - 1 ≤ screenY then terminalHeight - 2 else screenY)

/-- The status line on the screen: its string, and spaces behind it. -/
def displayStatusLine (editor : TextEditor) : Run (List PutChar) := do
  let status ← editor.statusLine
  if terminalWidth + 1 < status.length + 1 then .error .overrun
  else return (List.range terminalWidth).map fun i =>
    ⟨status.getD i space, statusTextColor, i, statusLineRow⟩

end TextEditor

end Pocky
