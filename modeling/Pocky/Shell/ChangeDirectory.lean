import Pocky.Fs.Files
import Pocky.Lib.Calls

/-! The shell's cd command, and the stack of directories kept beside the current one. -/

namespace Pocky

/-- How many directories the stack has room for. -/
def maxDirStack : Nat := 32

/-- Bytes of the buffer a directory is read into. -/
def cdBufferSize : Nat := 1024

/-- A directory on the stack. -/
structure DirStackEntry where
  /-- Its name. -/
  name : Name
  /-- The path it was entered by. -/
  path : Name
  /-- Its first cluster. -/
  cluster : Nat
  deriving Repr, DecidableEq

/-- The mounted file system with its stack of directories. -/
structure DirectorySession where
  /-- The file system, with the current directory. -/
  fs : FileSystem
  /-- The slots of the stack. -/
  dirStack : Nat → DirStackEntry
  /-- How many of them are in use. -/
  dirStackSize : Nat

/-- The first slot of a directory's bytes with a given name; long-name slots are not skipped here. -/
def findSlot (data : Buffer) (name : Name) : Nat → Nat → Option Nat
  | 0, _ => none
  | remaining + 1, offset =>
    if data offset = 0x00 then none
    else if data offset = 0xE5 then findSlot data name remaining (offset + slotSize)
    else if entryName data offset = name then some offset
    else findSlot data name remaining (offset + slotSize)

namespace DirectorySession

/-- The stack holds the root alone, as after construction, and the shell starts there. -/
def initShell (fs : FileSystem) (dirStack : Nat → DirStackEntry) : DirectorySession where
  fs := ((fs.setCurrentPath [slash]).setCurrentDirName [slash]).setCurrentDirectoryCluster rootCluster
  dirStack := Function.update dirStack 0 ⟨[slash], [slash], rootCluster⟩
  dirStackSize := 1

/-- Putting a directory on the stack, if there is room. -/
def pushDirectory (session : DirectorySession) (name path : Name) (cluster : Nat) :
    Bool × DirectorySession :=
  if maxDirStack ≤ session.dirStackSize then (false, session)
  else
    let entry : DirStackEntry := ⟨name.take (maxPath - 1), path.take (maxPath - 1), cluster⟩
    (true, { session with
      dirStack := Function.update session.dirStack session.dirStackSize entry
      dirStackSize := session.dirStackSize + 1 })

/-- Taking a directory off the stack and going to the one below, if there is one. -/
def popDirectory (session : DirectorySession) : Bool × DirectorySession :=
  if session.dirStackSize ≤ 1 then (false, session)
  else
    let below := session.dirStack (session.dirStackSize - 2)
    (true, { session with
      dirStackSize := session.dirStackSize - 1
      fs := ((session.fs.setCurrentPath below.path).setCurrentDirName
        below.name).setCurrentDirectoryCluster below.cluster })

/-- Going to the root; the stack stays as it is. -/
def goHome (session : DirectorySession) : DirectorySession :=
  { session with
    fs := ((session.fs.setCurrentPath [slash]).setCurrentDirName
      [slash]).setCurrentDirectoryCluster rootCluster }

/-- The path of a directory entered by name; the formatting copies its format and fills in nothing. -/
def newPath (session : DirectorySession) : Name :=
  if session.fs.currentPath = [slash] then [0x2F, 0x25, 0x73] else [0x25, 0x73, 0x2F, 0x25, 0x73]

/-- The directory that a name leads to, looked for in the first bytes of the current directory. -/
def entered (session : DirectorySession) (path : Name) (buffer : Buffer) : Option Nat :=
  let data := session.fs.readFile session.fs.currentDirectoryCluster buffer cdBufferSize
  match findSlot data path (cdBufferSize / slotSize) 0 with
  | none => none
  | some offset =>
    if isDirectory (entryAttributes data offset) then some (entryCluster data offset) else none

/-- Going to the directory below the top of the stack, or to the root if there is none. -/
def goUp (session : DirectorySession) : DirectorySession :=
  match session.popDirectory with
  | (true, session) => session
  | (false, session) => session.goHome

/-- Going to a directory; whether it could be put on the stack is not looked at. -/
def enter (session : DirectorySession) (path : Name) (dirCluster : Nat) : DirectorySession :=
  let (_, pushed) := session.pushDirectory path session.newPath dirCluster
  { pushed with
    fs := ((pushed.fs.setCurrentPath session.newPath).setCurrentDirName
      path).setCurrentDirectoryCluster dirCluster }

/--
The cd command, with the bytes that its buffer happens to hold before.

A missing argument is the null pointer.
-/
def cmdCd (session : DirectorySession) (path : Option Name) (buffer : Buffer) : DirectorySession :=
  match path with
  | none => session.goHome
  | some path =>
    if path = [] then session.goHome
    else if path = [slash] then session.goHome
    else if path = dotDot then session.goUp
    else
      match session.entered path buffer with
      | none => session
      | some dirCluster => session.enter path dirCluster

/-- One use of the command. -/
structure CdCall where
  /-- Its argument. -/
  path : Option Name
  /-- The bytes the buffer holds before. -/
  buffer : Buffer

/-- The session after a use of the command. -/
def perform (session : DirectorySession) (call : CdCall) : Option DirectorySession :=
  some (session.cmdCd call.path call.buffer)

/-- The session after a sequence of them. -/
def run (session : DirectorySession) (calls : List CdCall) : Option DirectorySession :=
  Calls.run perform session calls

end DirectorySession

end Pocky
