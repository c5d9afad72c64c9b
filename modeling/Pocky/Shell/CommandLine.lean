import Pocky.Shell.Terminal
import Pocky.Text.Snprintf

/-! The commands of an input line, which are cut apart and expanded in the line's own buffer. -/

namespace Pocky

/-- The character between two commands. -/
def semicolon : UInt8 := 0x3B

/-- The buffer an alias is expanded to. -/
def expandedSize : Nat := 512

/-- The word that starts the editor, behind which nothing of a line is run. -/
def editWord : Name := chars "edit"

/-- A blank in front of a command or at the end of a line. -/
def isBlank (char : UInt8) : Bool := char == space || char == 0x09

/-- A command with what stands behind its first space. -/
structure Command where
  /-- The word. -/
  word : Name
  /-- The rest, if there is a space. -/
  args : Option Name
  deriving Repr, DecidableEq

/-- An alias; both strings have room in the table. -/
structure Alias where
  /-- The word. -/
  name : Name
  /-- The text it stands for. -/
  value : Name
  /-- The word has room in the table. -/
  named : name.length < 64
  /-- So has the text. -/
  short : value.length < 256
  /-- The text is a string. -/
  string : 0 ∉ value

/-- The text of the first alias of a word. -/
def getAlias (aliases : List Alias) (word : Name) : Option Name :=
  (aliases.find? fun entry => entry.name = word).map Alias.value

/-- A command cut at its first space. -/
def cutCommand (text : Name) : Command :=
  if space ∈ text then
    let word := text.takeWhile (· ≠ space)
    ⟨word, some (text.drop (word.length + 1))⟩
  else ⟨text, none⟩

/-- The string at a place of the input buffer, which has to end in it. -/
def readString (buffer : Buffer) : Nat → Nat → Run Name
  | 0, _ => .error .overrun
  | steps + 1, position =>
    if buffer position = 0 then .ok []
    else do
      let rest ← readString buffer steps (position + 1)
      return buffer position :: rest

/-- The string from a place of the input buffer on. -/
def inputString (buffer : Buffer) (position : Nat) : Run Name :=
  readString buffer (inputSize - position) position

/-- Putting a zero in place of the first space of a command. -/
def cutBuffer (buffer : Buffer) (position : Nat) (text : Name) : Buffer :=
  if space ∈ text then Function.update buffer (position + (text.takeWhile (· ≠ space)).length) 0
  else buffer

/-- Copying characters into the input buffer, no zero behind them. -/
def copyInput (buffer : Buffer) (position : Nat) (text : Name) : Run Buffer :=
  if inputSize < position + text.length then .error .overrun
  else .ok (strncpy buffer position text text.length)

/-- The text an alias is expanded to; the format of text and arguments is copied as it is. -/
def expandAlias (value : Name) (args : Option Name) : Name :=
  match args with
  | some args => snprintf expandedSize (chars "%s %s") [value, args]
  | none => value.take (expandedSize - 1)

/-- The command at a place of the buffer, its word replaced by the text of its alias. -/
def lookUpCommand (aliases : List Alias) (buffer : Buffer) (position : Nat) (text : Name) :
    Run (Command × Buffer) :=
  let command := cutCommand text
  let buffer := cutBuffer buffer position text
  match getAlias aliases command.word with
  | none => .ok (command, buffer)
  | some value => do
    -- The text is copied over the word and whatever follows; what stands behind it ends it.
    let buffer ← copyInput buffer position (expandAlias value command.args)
    let text ← inputString buffer position
    return (cutCommand text, cutBuffer buffer position text)

/-- The loop over the commands of a line: those that are run, in order. -/
def processLoop (aliases : List Alias) : Nat → Buffer → Nat → Run (List Command)
  | 0, _, _ => .error .diverges
  | steps + 1, buffer, current => do
    let text ← inputString buffer current
    if text = [] then return []
    let segment := text.takeWhile (· ≠ semicolon)
    -- Past the semicolon, which becomes the zero behind the segment.
    let next := current + segment.length + 1
    let buffer := if semicolon ∈ text then Function.update buffer (next - 1) 0 else buffer
    let blanks := segment.takeWhile isBlank
    let command := segment.drop blanks.length
    if command = [] then
      if semicolon ∈ text then processLoop aliases steps buffer next else return []
    else
      let (dispatched, buffer) ←
        lookUpCommand aliases buffer (current + blanks.length) command
      -- The editor clears the buffer and returns, so that the rest of the line is gone.
      if dispatched.word = editWord then return [dispatched]
      if semicolon ∈ text then
        let others ← processLoop aliases steps buffer next
        return dispatched :: others
      else return [dispatched]

/-- Putting zeros in place of the blanks at the end of a line. -/
def stripInput : Nat → Buffer → Nat × Buffer
  | 0, buffer => (0, buffer)
  | inputPos + 1, buffer =>
    if isBlank (buffer inputPos) then stripInput inputPos (Function.update buffer inputPos 0)
    else (inputPos + 1, buffer)

/-- The commands that are run of the line in the input buffer. -/
def processCommand (aliases : List Alias) (buffer : Buffer) (inputPos : Nat) :
    Run (List Command) :=
  let (inputPos, buffer) := stripInput inputPos buffer
  if inputPos = 0 then .ok [] else processLoop aliases (inputSize + 1) buffer 0

/-- A command with its word replaced by the text of its alias. -/
def expand (aliases : List Alias) (text : Name) : Name :=
  match getAlias aliases (cutCommand text).word with
  | none => text
  | some value => value ++ text.drop (cutCommand text).word.length

/-- The commands that segments of a line stand for, up to the one that starts the editor. -/
def commandsOf (aliases : List Alias) : List Name → List Command
  | [] => []
  | segment :: segments =>
    let text := segment.dropWhile isBlank
    if text = [] then commandsOf aliases segments
    else
      let command := cutCommand (expand aliases text)
      if command.word = editWord then [command] else command :: commandsOf aliases segments

/-- A line without the blanks at its end. -/
def stripped (line : Name) : Name := line.rdropWhile isBlank

end Pocky
