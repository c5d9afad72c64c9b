import Pocky.Shell.Screen

/-! The keyboard: what its interrupt makes of the codes that the keys send. -/

namespace Pocky

/-- The characters of the keys, of which a zero is none. -/
def scancodeToAscii : List UInt8 :=
  [0] ++ chars "\x1b1234567890-=\x08\tqwertyuiop[]\n" ++ [0] ++ chars "asdfghjkl;'`" ++ [0] ++
    chars "\\zxcvbnm,./" ++ [0] ++ chars "*" ++ [0] ++ chars " "

/-- Their characters with shift. -/
def scancodeToAsciiShifted : List UInt8 :=
  [0] ++ chars "\x1b!@#$%^&*()_+\x08\tQWERTYUIOP\x7b\x7d\n" ++ [0] ++ chars "ASDFGHJKL:\"~" ++
    [0] ++ chars "|ZXCVBNM<>?" ++ [0] ++ chars "*" ++ [0] ++ chars " "

/-- The characters that are looked up. -/
def currentMap (shiftPressed : Bool) : List UInt8 :=
  if shiftPressed then scancodeToAsciiShifted else scancodeToAscii

/-- What the driver keeps. -/
structure Keyboard where
  /-- Whether a handler is registered. -/
  registered : Bool
  /-- Whether shift counts as pressed. -/
  shiftPressed : Bool
  /-- Whether control counts as pressed. -/
  ctrlPressed : Bool
deriving DecidableEq

/-- What an interrupt of the keyboard does. -/
structure KeyboardInterrupt where
  /-- What the driver keeps then. -/
  keyboard : Keyboard
  /-- The character that the handler is called with, if it is called. -/
  char : Option UInt8
  /-- Whether the end of the interrupt is signalled. -/
  eoi : Bool
deriving DecidableEq

/-- A driver without a handler. -/
def initKeyboard (keyboard : Keyboard) : Keyboard := { keyboard with registered := false }

/-- A driver with a handler. -/
def registerKeyboardHandler (keyboard : Keyboard) : Keyboard := { keyboard with registered := true }

/-- The character of a code, without a look at the modifiers. -/
def keyboardRead (scancode : UInt8) : UInt8 := scancodeToAscii.getD scancode.toNat 0

/-- A letter with control is its place in the alphabet. -/
def ctrlChar (c : UInt8) : UInt8 :=
  if 0x61 ≤ c ∧ c ≤ 0x7A then c - 0x61 + 1
  else if 0x41 ≤ c ∧ c ≤ 0x5A then c - 0x41 + 1
  else c

/--
The interrupt of a key that is pressed or released.

Two more codes are looked up than there are characters, and for them the handler gets whatever
follows.
-/
def keyboardHandler (unknown : Bool → UInt8 → UInt8) (keyboard : Keyboard) (scancode : UInt8) :
    KeyboardInterrupt :=
  if scancode = 0x2A then ⟨{ keyboard with shiftPressed := true }, none, false⟩
  else if scancode = 0xAA then ⟨{ keyboard with shiftPressed := false }, none, false⟩
  else if scancode = 0x36 then ⟨{ keyboard with shiftPressed := true }, none, false⟩
  else if scancode = 0xB6 then ⟨{ keyboard with shiftPressed := false }, none, false⟩
  else if scancode = 0x1D then ⟨{ keyboard with ctrlPressed := true }, none, false⟩
  else if scancode = 0x9D then ⟨{ keyboard with ctrlPressed := false }, none, false⟩
  else if scancode < 60 then
    let c := (currentMap keyboard.shiftPressed).getD scancode.toNat
      (unknown keyboard.shiftPressed scancode)
    if c ≠ 0 ∧ keyboard.registered then
      ⟨keyboard, some (if keyboard.ctrlPressed then ctrlChar c else c), true⟩
    else ⟨keyboard, none, true⟩
  else ⟨keyboard, none, true⟩

end Pocky
