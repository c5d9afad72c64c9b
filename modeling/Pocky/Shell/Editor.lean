import Pocky.Fs.Files
import Pocky.Lib.Moves

/-! The text editor: one buffer, a cursor kept in three numbers, and three modes. -/

namespace Pocky

/-- The characters the buffer of the editor has room for. -/
def maxBufferSize : Nat := 32768

/-- The characters the editor keeps of a file name, and one more. -/
def maxFilenameLength : Nat := 256

/-- The lines of the screen, the status line included. -/
def terminalHeight : Nat := 25

/-- The character that ends a line. -/
def newline : UInt8 := 0x0A

/-- The length of a line that is not there: the largest number of 64 bits. -/
def noLine : Nat := 2 ^ 64 - 1

/-- Subtraction on words of 64 bits. -/
def wrapSub (first second : Nat) : Nat := (first + (2 ^ 64 - second)) % 2 ^ 64

/-- The character of a key pressed together with Ctrl. -/
def ctrlKey (key : UInt8) : UInt8 := key &&& 0x1F

/-- How a key is taken. -/
inductive EditorMode where
  /-- Keys are commands. -/
  | normal
  /-- Keys are text. -/
  | insert
  /-- Keys select lines. -/
  | visual
  deriving Repr, DecidableEq

/-- The editor's state, as far as it does not only concern the screen. -/
structure TextEditor where
  /-- The text, and whatever stands behind it. -/
  buffer : Buffer
  /-- The file that is edited. -/
  filename : Name
  /-- How many characters of the buffer are text. -/
  bufferSize : Nat
  /-- The offset of the cursor in the text. -/
  cursorPos : Nat
  /-- The row of the cursor. -/
  cursorRow : Nat
  /-- The column of the cursor. -/
  cursorCol : Nat
  /-- The first row on the screen. -/
  screenRow : Nat
  /-- Whether a file is being edited. -/
  active : Bool
  /-- Whether the text has changed since it was saved. -/
  modified : Bool
  /-- How keys are taken. -/
  mode : EditorMode
  /-- Whether lines are selected. -/
  hasSelection : Bool
  /-- The row the selection was started at. -/
  selectionStartRow : Nat
  /-- The row the selection has come to. -/
  selectionEndRow : Nat

namespace TextEditor

/-- How far a line goes on, with some characters of text left. -/
def restOfLine (buffer : Buffer) : Nat → Nat → Nat
  | 0, _ => 0
  | remaining + 1, pos =>
    if buffer pos = newline then 0 else restOfLine buffer remaining (pos + 1) + 1

/-- The scan for a row, and the length of the line there. -/
def scanLines (buffer : Buffer) (row : Nat) : Nat → Nat → Nat → Nat
  | 0, _, _ => noLine
  | remaining + 1, pos, currentRow =>
    if currentRow = row then restOfLine buffer (remaining + 1) pos
    else scanLines buffer row remaining (pos + 1)
      (if buffer pos = newline then currentRow + 1 else currentRow)

/-- The length of a row; a last line without characters counts as missing. -/
def getLineLength (editor : TextEditor) (row : Nat) : Nat :=
  scanLines editor.buffer row editor.bufferSize 0 0

/-- The scan for a row and column; it ends at the end of the text. -/
def scanPosition (buffer : Buffer) (row col : Nat) : Nat → Nat → Nat → Nat → Nat
  | 0, pos, _, _ => pos
  | remaining + 1, pos, currentRow, currentCol =>
    if currentRow = row ∧ currentCol = col then pos
    else if buffer pos = newline then
      scanPosition buffer row col remaining (pos + 1) (currentRow + 1) 0
    else scanPosition buffer row col remaining (pos + 1) currentRow (currentCol + 1)

/-- Finding the offset of the cursor from its row and column. -/
def updateCursorPos (editor : TextEditor) : TextEditor :=
  { editor with
    cursorPos := scanPosition editor.buffer editor.cursorRow editor.cursorCol editor.bufferSize 0 0 0 }

/-- The start of the line an offset lies on, looked for from the front or going back. -/
def lineStart (buffer : Buffer) : Nat → Nat
  | 0 => 0
  | pos + 1 => if buffer pos = newline then pos + 1 else lineStart buffer pos

/-- Moving characters within the buffer; outside it nothing is defined. -/
def moveChars (editor : TextEditor) (dest src count : Nat) : Run TextEditor :=
  if maxBufferSize < dest + count ∨ maxBufferSize < src + count then .error .overrun
  else .ok { editor with buffer := Moves.memmove dest src count editor.buffer }

/--
Opening a file.

A new buffer for the contents holds `fresh` before they are read.
-/
def openFile (editor : TextEditor) (fs : FileSystem) (filename : Name) (fresh : Buffer) :
    Run (Bool × TextEditor) :=
  if filename = [] then .ok (false, editor)
  else do
    let editor := { editor with filename := filename.take (maxFilenameLength - 1) }
    let start (size : Nat) (contents : Buffer) : TextEditor :=
      { editor with
        buffer := Function.update (putBytes editor.buffer 0 size contents) size 0
        bufferSize := size
        cursorPos := 0
        cursorRow := 0
        cursorCol := 0
        screenRow := 0
        active := true
        modified := false
        mode := .normal }
    match ← fs.findFile filename with
    | none => return (true, start 0 fresh)
    | some found =>
      if isDirectory found.attributes then return (false, editor)
      else if maxBufferSize ≤ found.size then return (false, editor)
      else return (true, start found.size (fs.readFile found.cluster fresh found.size))

/-- The text without the newlines at its end. -/
def strippedSize (buffer : Buffer) : Nat → Nat
  | 0 => 0
  | size + 1 => if buffer size = newline then strippedSize buffer size else size + 1

/-- The first cluster of the edited file, which is created if it is not there. -/
def locateFile (editor : TextEditor) (fs : FileSystem) : Run (Option Nat × FileSystem) := do
  match ← fs.findFile editor.filename with
  | some found => return (some found.cluster, fs)
  | none =>
    match ← fs.createFile editor.filename 0 with
    | (false, fs) => return (none, fs)
    | (true, fs) =>
      match ← fs.findFile editor.filename with
      | none => return (none, fs)
      | some found => return (some found.cluster, fs)

/-- Writing the text to the edited file. -/
def writeText (editor : TextEditor) (fs : FileSystem) : Run (Bool × FileSystem) := do
  match ← editor.locateFile fs with
  | (none, fs) => return (false, fs)
  | (some cluster, fs) =>
    match fs.writeFile cluster editor.buffer editor.bufferSize with
    | (false, fs) => return (false, fs)
    | (true, fs) => fs.updateFileSize editor.filename editor.bufferSize

/-- Saving the text; the newlines at its end are given up even if the file cannot be written. -/
def save (editor : TextEditor) (fs : FileSystem) : Run (Bool × TextEditor × FileSystem) :=
  if !editor.active then .ok (false, editor, fs)
  else do
    let editor := { editor with bufferSize := strippedSize editor.buffer editor.bufferSize }
    match ← editor.writeText fs with
    | (false, fs) => return (false, editor, fs)
    | (true, fs) =>
      let editor := { editor with modified := false }
      if editor.bufferSize < editor.cursorPos then
        return (true, { editor with cursorPos := editor.bufferSize }.updateCursorPos, fs)
      else return (true, editor, fs)

/-- Leaving the editor. -/
def close (editor : TextEditor) : TextEditor :=
  if !editor.active then editor
  else
    { editor with
      filename := []
      bufferSize := 0
      cursorPos := 0
      cursorRow := 0
      cursorCol := 0
      screenRow := 0
      active := false
      modified := false
      mode := .normal }

/-- Going to the mode for selecting lines; the line of the cursor is selected. -/
def switchToVisualMode (editor : TextEditor) : TextEditor :=
  { editor with
    mode := .visual
    hasSelection := true
    selectionStartRow := editor.cursorRow
    selectionEndRow := editor.cursorRow }

/-- Going to the mode for commands. -/
def switchToNormalMode (editor : TextEditor) : TextEditor :=
  { editor with mode := .normal, hasSelection := false }

/-- Going to the mode for text. -/
def switchToInsertMode (editor : TextEditor) : TextEditor :=
  { editor with mode := .insert, hasSelection := false }

/-- Deleting the character at the cursor. -/
def deleteChar (editor : TextEditor) : Run TextEditor :=
  if editor.bufferSize ≤ editor.cursorPos then .ok editor
  else do
    let editor ← editor.moveChars editor.cursorPos (editor.cursorPos + 1)
      (editor.bufferSize - editor.cursorPos)
    return { editor with bufferSize := editor.bufferSize - 1, modified := true }

/-- Going to a row of some length, no further right than its end. -/
def goToRow (editor : TextEditor) (row length : Nat) : TextEditor :=
  { editor with
    cursorRow := row
    cursorCol := if length < editor.cursorCol then length else editor.cursorCol }.updateCursorPos

/-- Showing the row of the cursor when it is above the screen. -/
def scrollUp (editor : TextEditor) : TextEditor :=
  if editor.cursorRow < editor.screenRow then { editor with screenRow := editor.cursorRow }
  else editor

/-- Showing the row of the cursor when it is below the screen. -/
def scrollDown (editor : TextEditor) : TextEditor :=
  if editor.screenRow + terminalHeight - 1 ≤ editor.cursorRow then
    { editor with screenRow := editor.cursorRow + 2 - terminalHeight }
  else editor

/-- The row above, if there is one. -/
def rowUp (editor : TextEditor) : Option TextEditor :=
  if 0 < editor.cursorRow then
    let prevLineLength := editor.getLineLength (editor.cursorRow - 1)
    if prevLineLength = noLine then none
    else some (editor.goToRow (editor.cursorRow - 1) prevLineLength)
  else none

/-- The row below, if there is one. -/
def rowDown (editor : TextEditor) : Option TextEditor :=
  let nextLineLength := editor.getLineLength (editor.cursorRow + 1)
  if nextLineLength = noLine then none
  else some (editor.goToRow (editor.cursorRow + 1) nextLineLength)

/-- A key in the mode for commands. -/
def processNormalMode (editor : TextEditor) (fs : FileSystem) (c : UInt8) :
    Run (TextEditor × FileSystem) :=
  if c = 0x69 ∨ c = 0x61 then .ok (editor.switchToInsertMode, fs)
  else if c = 0x73 then do
    let editor ←
      if editor.cursorPos < editor.bufferSize then do
        let editor ← editor.deleteChar
        pure { editor with modified := true }
      else pure editor
    return (editor.switchToInsertMode, fs)
  else if c = 0x4A ∨ c = 0x4B then .ok (editor.switchToVisualMode, fs)
  else if c = ctrlKey 0x53 then do
    let (_, editor, fs) ← editor.save fs
    return (editor, fs)
  else if c = ctrlKey 0x51 then .ok (editor.close, fs)
  else if c = 0x68 ∧ 0 < editor.cursorCol then
    .ok ({ editor with
      cursorCol := editor.cursorCol - 1
      cursorPos := wrapSub editor.cursorPos 1 }, fs)
  else if c = 0x6C ∧ editor.cursorCol < editor.getLineLength editor.cursorRow then
    .ok ({ editor with
      cursorCol := editor.cursorCol + 1
      cursorPos := editor.cursorPos + 1 }, fs)
  else if c = 0x6B then .ok ((editor.rowUp.map scrollUp).getD editor, fs)
  else if c = 0x6A then .ok ((editor.rowDown.map scrollDown).getD editor, fs)
  else .ok (editor, fs)

/-- Deleting the character before the cursor. -/
def deleteBefore (editor : TextEditor) : Run TextEditor := do
  let deletingNewline := editor.buffer (editor.cursorPos - 1) = newline
  let editor ← editor.moveChars (editor.cursorPos - 1) editor.cursorPos
    (wrapSub editor.bufferSize editor.cursorPos)
  let editor :=
    { editor with
      bufferSize := wrapSub editor.bufferSize 1
      cursorPos := editor.cursorPos - 1
      modified := true }
  if deletingNewline then
    return { editor with
      cursorRow := wrapSub editor.cursorRow 1
      cursorCol := editor.cursorPos - lineStart editor.buffer editor.cursorPos }
  else return { editor with cursorCol := editor.cursorCol - 1 }

/--
Putting a character at the cursor, which ends up behind it.

Where the characters can be moved up by one there is room for it.
-/
def insertAt (editor : TextEditor) (c : UInt8) : Run TextEditor := do
  let editor ← editor.moveChars (editor.cursorPos + 1) editor.cursorPos
    (wrapSub editor.bufferSize editor.cursorPos)
  return { editor with
    buffer := Function.update editor.buffer editor.cursorPos c
    bufferSize := editor.bufferSize + 1
    cursorPos := editor.cursorPos + 1
    modified := true }

/-- A key in the mode for text. -/
def processInsertMode (editor : TextEditor) (c : UInt8) : Run TextEditor :=
  if c = ctrlKey 0x53 ∨ c = ctrlKey 0x51 then .ok editor
  else if c = 0x08 ∧ 0 < editor.cursorPos then editor.deleteBefore
  else if (32 ≤ c ∧ c < 127) ∧ editor.bufferSize < maxBufferSize - 1 then do
    let editor ← editor.insertAt c
    return { editor with cursorCol := editor.cursorCol + 1 }
  else if (c = 0x0D ∨ c = newline) ∧ editor.bufferSize < maxBufferSize - 1 then do
    let editor ← editor.insertAt newline
    return { editor with cursorRow := editor.cursorRow + 1, cursorCol := 0 }.scrollDown
  else .ok editor

/-- The scan for the start of a row; it ends at the end of the text. -/
def scanRowStart (buffer : Buffer) (row : Nat) : Nat → Nat → Nat → Nat
  | 0, pos, _ => pos
  | remaining + 1, pos, currentRow =>
    if currentRow < row then
      scanRowStart buffer row remaining (pos + 1)
        (if buffer pos = newline then currentRow + 1 else currentRow)
    else pos

/-- The scan for the newline that ends a row; it ends at the end of the text. -/
def scanRowEnd (buffer : Buffer) (row : Nat) : Nat → Nat → Nat → Nat
  | 0, pos, _ => pos
  | remaining + 1, pos, currentRow =>
    if currentRow ≤ row then
      if buffer pos = newline then
        if row < currentRow + 1 then pos
        else scanRowEnd buffer row remaining (pos + 1) (currentRow + 1)
      else scanRowEnd buffer row remaining (pos + 1) currentRow
    else pos

/-- Deleting the text of the selected rows; the newline behind the last one stays. -/
def deleteSelection (editor : TextEditor) : Run TextEditor := do
  let startRow := min editor.selectionStartRow editor.selectionEndRow
  let endRow := max editor.selectionStartRow editor.selectionEndRow
  let startPos := lineStart editor.buffer
    (scanRowStart editor.buffer startRow editor.bufferSize 0 0)
  let endPos := scanRowEnd editor.buffer endRow (editor.bufferSize - startPos) startPos startRow
  if startPos < endPos then do
    let editor ← editor.moveChars startPos endPos (editor.bufferSize - endPos)
    return { editor with
      bufferSize := editor.bufferSize - (endPos - startPos)
      cursorPos := startPos
      cursorRow := startRow
      cursorCol := startPos - lineStart editor.buffer startPos
      modified := true }
  else return editor

/-- Carrying the end of the selection along with the cursor. -/
def extendSelection (editor : TextEditor) : TextEditor :=
  { editor with selectionEndRow := editor.cursorRow }

/-- A key in the mode for selecting lines. -/
def processVisualMode (editor : TextEditor) (c : UInt8) : Run TextEditor :=
  if c = 0x61 then .ok editor.switchToInsertMode
  else if c = 0x73 then do
    let editor ← editor.deleteSelection
    return editor.switchToInsertMode
  else if c = 0x4A then
    .ok ((editor.rowDown.map fun editor => editor.extendSelection.scrollDown).getD editor)
  else if c = 0x4B then
    .ok ((editor.rowUp.map fun editor => editor.extendSelection.scrollUp).getD editor)
  else .ok editor

/-- Taking a key. -/
def processKeypress (editor : TextEditor) (fs : FileSystem) (c : UInt8) :
    Run (TextEditor × FileSystem) :=
  if !editor.active then .ok (editor, fs)
  else if c = 0x1B then .ok (editor.switchToNormalMode, fs)
  else match editor.mode with
    | .normal => editor.processNormalMode fs c
    | .insert => do
      let editor ← editor.processInsertMode c
      return (editor, fs)
    | .visual => do
      let editor ← editor.processVisualMode c
      return (editor, fs)

end TextEditor

end Pocky
