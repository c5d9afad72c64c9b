import Pocky.Drivers.KeyboardLaws
import Pocky.Shell.TerminalLaws

/-! Keys that are typed, from their codes to the input line of the shell. -/

namespace Pocky

/-- The character that a key hands on. -/
def Key.char : Key → UInt8
  | .printable c _ => c
  | .backspace => 0x08
  | .tab => 0x09

/-- The key of a character; a newline and the other control characters are left out. -/
def keyOf (c : UInt8) : Option Key :=
  if range : 0x20 ≤ c ∧ c ≤ 0x7E then some (.printable c range)
  else if c = 0x08 then some .backspace
  else if c = 0x09 then some .tab
  else none

/-- What a key makes of the input line, if it only edits. -/
def Key.edit (line : Name) : Key → Name
  | .printable c _ => if line.length < inputSize - 1 then line ++ [c] else line
  | .backspace => line.dropLast
  | .tab => line

/-- The codes that are sent while a character is typed, with a shift key if it needs one. -/
def keystrokes (right : Bool) (c : UInt8) : List UInt8 :=
  if c ∈ scancodeToAscii then
    let code := UInt8.ofNat (scancodeToAscii.idxOf c)
    [code, code + 0x80]
  else
    let code := UInt8.ofNat (scancodeToAsciiShifted.idxOf c)
    let shift := if right then rightShift else leftShift
    [shift, code, code + 0x80, shift + 0x80]

/-- A code that comes in, and what the shell finds then. -/
structure Scan where
  /-- The code. -/
  scancode : UInt8
  /-- The memory a directory is read to. -/
  memory : Buffer
  /-- What is printed where that is not defined. -/
  unknown : Printed → List UInt8

/-- The codes that are sent while a key is typed. -/
def Keypress.scans (right : Bool) (keypress : Keypress) : List Scan :=
  (keystrokes right keypress.key.char).map fun code => ⟨code, keypress.memory, keypress.unknown⟩

/-- The shell behind the driver of the keyboard. -/
structure Console where
  /-- The driver. -/
  keyboard : Keyboard
  /-- The shell. -/
  shell : Shell

namespace Console

/-- A code that comes in; the shell is the handler of the keyboard. -/
def scan (beyond : Bool → UInt8 → UInt8) (console : Console) (scan : Scan) : Option Console :=
  let interrupt := keyboardHandler beyond console.keyboard scan.scancode
  match interrupt.char with
  | none => some ⟨interrupt.keyboard, console.shell⟩
  | some c => (keyOf c).bind fun key =>
    (console.shell.press ⟨key, scan.memory, scan.unknown⟩).map (Console.mk interrupt.keyboard)

end Console

/-- The key of the character that a key hands on is that key. -/
theorem keyOf_char (key : Key) : keyOf key.char = some key := by
  cases key with
  | printable c range => exact dif_pos range
  | backspace => rfl
  | tab => rfl

/-- A code has a character, and so have neither modifiers nor the code that releases its key. -/
def Carries (shiftPressed : Bool) (code c : UInt8) : Prop :=
  (currentMap shiftPressed).getD code.toNat 0 = c ∧ code.toNat < 58 ∧ code ∉ modifierCodes ∧
    60 ≤ (code + 0x80).toNat ∧ code + 0x80 ∉ modifierCodes

instance (shiftPressed : Bool) (code c : UInt8) : Decidable (Carries shiftPressed code c) :=
  inferInstanceAs (Decidable (_ ∧ _))

/-- Every key hands on a character that one of the maps has. -/
theorem carries_char (key : Key) :
    if key.char ∈ scancodeToAscii then
      Carries false (UInt8.ofNat (scancodeToAscii.idxOf key.char)) key.char
    else Carries true (UInt8.ofNat (scancodeToAsciiShifted.idxOf key.char)) key.char := by
  have all : ∀ n : Fin 256, keyOf (UInt8.ofNat n) ≠ none →
      if UInt8.ofNat n ∈ scancodeToAscii then
        Carries false (UInt8.ofNat (scancodeToAscii.idxOf (UInt8.ofNat n))) (UInt8.ofNat n)
      else Carries true (UInt8.ofNat (scancodeToAsciiShifted.idxOf (UInt8.ofNat n)))
        (UInt8.ofNat n) := by
    decide +kernel
  have here := all ⟨key.char.toNat, key.char.toNat_lt⟩
  rw [UInt8.ofNat_toNat] at here
  exact here (by rw [keyOf_char]; nofun)

example : keystrokes false 0x41 = [0x2A, 0x1E, 0x9E, 0xAA] := by decide +kernel

/-- The code of a character hands it on. -/
theorem Carries.press {shiftPressed : Bool} {code : UInt8} {key : Key}
    (carries : Carries shiftPressed code key.char) (beyond : Bool → UInt8 → UInt8) :
    (keyboardHandler beyond ⟨true, shiftPressed, false⟩ code).keyboard =
        ⟨true, shiftPressed, false⟩ ∧
      (keyboardHandler beyond ⟨true, shiftPressed, false⟩ code).char = some key.char := by
  obtain ⟨looked, known, other, -, -⟩ := carries
  refine ⟨Keyboard.keyboardHandler_keeps other, ?_⟩
  have some_char : key.char ≠ 0 := by
    intro none
    have found := keyOf_char key
    rw [none] at found
    cases found
  rw [Keyboard.keyboardHandler_known other known, looked]
  simp [some_char]

/-- The code that releases the key hands on nothing. -/
theorem Carries.release {shiftPressed : Bool} {code c : UInt8}
    (carries : Carries shiftPressed code c) (beyond : Bool → UInt8 → UInt8) (keyboard : Keyboard) :
    (keyboardHandler beyond keyboard (code + 0x80)).keyboard = keyboard ∧
      (keyboardHandler beyond keyboard (code + 0x80)).char = none :=
  ⟨Keyboard.keyboardHandler_keeps carries.2.2.2.2,
    Keyboard.keyboardHandler_far carries.2.2.2.2 carries.2.2.2.1⟩

namespace Console

variable {beyond : Bool → UInt8 → UInt8} {keyboard next : Keyboard} {shell : Shell}
  {code : UInt8} {memory : Buffer} {unknown : Printed → List UInt8}

/-- A code that hands on nothing leaves the shell alone. -/
theorem scan_silent (interrupt : (keyboardHandler beyond keyboard code).keyboard = next ∧
      (keyboardHandler beyond keyboard code).char = none) :
    Console.scan beyond ⟨keyboard, shell⟩ ⟨code, memory, unknown⟩ = some ⟨next, shell⟩ := by
  simp only [scan, interrupt.1, interrupt.2]

/-- A code that hands on a key is that key for the shell. -/
theorem scan_key {key : Key} (interrupt : (keyboardHandler beyond keyboard code).keyboard = next ∧
      (keyboardHandler beyond keyboard code).char = some key.char) :
    Console.scan beyond ⟨keyboard, shell⟩ ⟨code, memory, unknown⟩ =
      (shell.press ⟨key, memory, unknown⟩).map (Console.mk next) := by
  simp only [scan, interrupt.1, interrupt.2, keyOf_char, Option.bind_some]

/-- A key that is pressed and released does to the shell what it is for. -/
theorem run_tap {shiftPressed : Bool} {keypress : Keypress}
    (carries : Carries shiftPressed code keypress.key.char) (rest : List Scan) :
    Calls.run (scan beyond) ⟨⟨true, shiftPressed, false⟩, shell⟩
        (⟨code, keypress.memory, keypress.unknown⟩ ::
          ⟨code + 0x80, keypress.memory, keypress.unknown⟩ :: rest) =
      (shell.press keypress).bind fun after =>
        Calls.run (scan beyond) ⟨⟨true, shiftPressed, false⟩, after⟩ rest := by
  rw [Calls.run, scan_key (carries.press beyond)]
  cases pressed : shell.press keypress with
  | none => rfl
  | some after =>
    rw [Option.map_some, Option.bind_some, Calls.run,
      scan_silent (carries.release beyond _), Option.bind_some, Option.bind_some]

/-- A shift key sets its flag and hands on nothing. -/
theorem shift_pressed (right : Bool) :
    (keyboardHandler beyond Keyboard.ready (if right then rightShift else leftShift)).keyboard =
        ⟨true, true, false⟩ ∧
      (keyboardHandler beyond Keyboard.ready (if right then rightShift else leftShift)).char =
        none := by
  cases right <;> exact ⟨rfl, rfl⟩

/-- Either shift key clears the flag when it is released. -/
theorem shift_released (right : Bool) :
    (keyboardHandler beyond ⟨true, true, false⟩
        ((if right then rightShift else leftShift) + 0x80)).keyboard = Keyboard.ready ∧
      (keyboardHandler beyond ⟨true, true, false⟩
        ((if right then rightShift else leftShift) + 0x80)).char = none := by
  cases right <;> exact ⟨rfl, rfl⟩

/-- The codes of a key do to the shell what the key does, and no modifier stays pressed. -/
theorem run_scans (right : Bool) (keypress : Keypress) :
    Calls.run (scan beyond) ⟨Keyboard.ready, shell⟩ (keypress.scans right) =
      (shell.press keypress).map (Console.mk Keyboard.ready) := by
  have carries := carries_char keypress.key
  unfold Keypress.scans keystrokes
  by_cases plain : keypress.key.char ∈ scancodeToAscii
  · rw [if_pos plain] at carries
    rw [if_pos plain]
    refine (run_tap carries []).trans ?_
    cases shell.press keypress <;> rfl
  · rw [if_neg plain] at carries
    rw [if_neg plain]
    simp only [List.map_cons, List.map_nil]
    -- Shift is pressed, the key is typed, and shift is released.
    rw [Calls.run, scan_silent (shift_pressed right), Option.bind_some, run_tap carries]
    cases shell.press keypress with
    | none => rfl
    | some after =>
      rw [Option.bind_some, Calls.run, scan_silent (shift_released right)]
      rfl

/-- The codes of several keys do to the shell what the keys do one after the other. -/
theorem run_keys_iff (right : Bool) (keys : List Keypress) {console : Console} :
    Calls.run (scan beyond) ⟨Keyboard.ready, shell⟩ (keys.flatMap (Keypress.scans right)) =
        some console ↔
      ∃ last, Calls.run Shell.press shell keys = some last ∧ console = ⟨Keyboard.ready, last⟩ := by
  -- By induction on the keys, with the shell that they find.
  induction keys generalizing shell with
  | nil =>
    constructor
    · intro ran
      cases ran
      exact ⟨shell, rfl, rfl⟩
    · intro reached
      obtain ⟨last, ran, same⟩ := reached
      cases ran
      exact congrArg some same.symm
  | cons keypress keys ih =>
    rw [List.flatMap_cons, Calls.run_append]
    simp only [run_scans, Option.map_eq_some_iff, Calls.run_cons]
    constructor
    · intro reached
      -- Between two keys no modifier is pressed, so the next one starts as the first did.
      obtain ⟨_, ⟨after, pressed, rfl⟩, rest⟩ := reached
      obtain ⟨last, ran, same⟩ := ih.mp rest
      exact ⟨last, ⟨after, pressed, ran⟩, same⟩
    · intro reached
      obtain ⟨last, ⟨after, pressed, ran⟩, same⟩ := reached
      exact ⟨_, ⟨after, pressed, rfl⟩, ih.mpr ⟨last, ran, same⟩⟩

end Console

namespace Shell

/-- A key that only edits has a result, which is the edited line. -/
theorem press_edit (shell : Shell) (keypress : Keypress) (edits : keypress.key ≠ .tab) :
    ∃ next, shell.press keypress = some next ∧
      next.input = keypress.key.edit shell.input ∧ next.fs = shell.fs := by
  obtain ⟨key, memory, unknown⟩ := keypress
  cases key with
  | printable c range =>
    by_cases room : shell.input.length < inputSize - 1
    · have pressed : shell.processKeypress ⟨.printable c range, memory, unknown⟩ =
          .ok { shell with
            tabMatches := []
            input := shell.input ++ [c]
            terminal := shell.terminal.putchar c } := if_pos room
      exact ⟨_, Run.toOption_eq_some.mpr pressed, (if_pos room).symm, rfl⟩
    · have pressed : shell.processKeypress ⟨.printable c range, memory, unknown⟩ =
          .ok { shell with tabMatches := [] } := if_neg room
      exact ⟨_, Run.toOption_eq_some.mpr pressed, (if_neg room).symm, rfl⟩
  | backspace =>
    by_cases empty : shell.input = []
    · have pressed : shell.processKeypress ⟨.backspace, memory, unknown⟩ =
          .ok { shell with tabMatches := [] } := if_pos empty
      refine ⟨_, Run.toOption_eq_some.mpr pressed, ?_, rfl⟩
      rw [Key.edit, empty]
      rfl
    · obtain ⟨next, returned, line, kept⟩ : ∃ next,
          shell.processKeypress ⟨.backspace, memory, unknown⟩ = .ok next ∧
            next.input = shell.input.dropLast ∧ next.fs = shell.fs :=
        ⟨_, if_neg empty, rfl, rfl⟩
      exact ⟨next, Run.toOption_eq_some.mpr returned, line, kept⟩
  | tab => exact absurd rfl edits

/-- Keys that only edit have a result, which is the line they edit. -/
theorem run_edits (keys : List Keypress) (edits : ∀ keypress ∈ keys, keypress.key ≠ .tab) :
    ∀ shell, ∃ last, Calls.run press shell keys = some last ∧
      last.input = (keys.map Keypress.key).foldl Key.edit shell.input ∧ last.fs = shell.fs := by
  -- By induction on the keys, with the shell that they find.
  induction keys with
  | nil => exact fun shell => ⟨shell, rfl, rfl, rfl⟩
  | cons keypress keys ih =>
    intro shell
    obtain ⟨next, pressed, line, kept⟩ :=
      shell.press_edit keypress (edits keypress List.mem_cons_self)
    obtain ⟨last, ran, line', kept'⟩ :=
      ih (fun other member => edits other (List.mem_cons_of_mem _ member)) next
    refine ⟨last, Calls.run_cons.mpr ⟨next, pressed, ran⟩, ?_, kept'.trans kept⟩
    rw [line', line, List.map_cons, List.foldl_cons]

/-- Characters that are typed stand behind the line as far as there is room for them. -/
theorem edit_text (keys : List Key) (text : ∀ key ∈ keys, key ≠ .tab ∧ key ≠ .backspace) :
    ∀ line : Name, keys.foldl Key.edit line =
      line ++ (keys.map Key.char).take (inputSize - 1 - line.length) := by
  -- By induction on the keys, with the line that they find.
  induction keys with
  | nil => simp
  | cons key keys ih =>
    intro line
    have rest := ih fun other member => text other (List.mem_cons_of_mem _ member)
    rw [List.foldl_cons, rest, List.map_cons]
    cases key with
    | printable c range =>
      by_cases room : line.length < inputSize - 1
      · obtain ⟨left, free⟩ : ∃ left, inputSize - 1 - line.length = left + 1 :=
          ⟨inputSize - 1 - line.length - 1, by omega⟩
        have less : inputSize - 1 - (line ++ [c]).length = left := by
          rw [List.length_append, List.length_singleton]
          omega
        rw [Key.edit, if_pos room, less, free, List.take_succ_cons, List.append_assoc]
        rfl
      · have full : inputSize - 1 - line.length = 0 := by omega
        rw [Key.edit, if_neg room, full, List.take_zero, List.take_zero]
    | backspace => exact absurd rfl (text _ List.mem_cons_self).2
    | tab => exact absurd rfl (text _ List.mem_cons_self).1

/--
The codes of keys that are typed one after the other, each with the shift key it needs, make the
line that the keys edit, whatever follows the maps of the driver.

Of a text without corrections the line gets as much as there is room for.
-/
theorem typed_line (beyond : Bool → UInt8 → UInt8) (right : Bool) (shell : Shell)
    (keys : List Keypress) (edits : ∀ keypress ∈ keys, keypress.key ≠ .tab) :
    ∃ last, Calls.run (Console.scan beyond) ⟨Keyboard.ready, shell⟩
        (keys.flatMap (Keypress.scans right)) = some ⟨Keyboard.ready, last⟩ ∧
      Calls.run press shell keys = some last ∧
      last.input = (keys.map Keypress.key).foldl Key.edit shell.input ∧ last.fs = shell.fs ∧
      ((∀ keypress ∈ keys, keypress.key ≠ .backspace) →
        last.input = shell.input ++ (keys.map fun keypress => keypress.key.char).take
          (inputSize - 1 - shell.input.length)) := by
  obtain ⟨last, ran, line, kept⟩ := run_edits keys edits shell
  refine ⟨last, (Console.run_keys_iff right keys).mpr ⟨last, ran, rfl⟩, ran, line, kept, ?_⟩
  intro text
  have plain : ∀ key ∈ keys.map Keypress.key, key ≠ .tab ∧ key ≠ .backspace := by
    intro key member
    obtain ⟨keypress, member', rfl⟩ := List.mem_map.mp member
    exact ⟨edits keypress member', text keypress member'⟩
  rw [line, edit_text _ plain, List.map_map]
  rfl

/-- The key of a capital letter, which needs shift. -/
def capitalKey : Keypress := ⟨.printable 0x41 (by decide), fun _ => 0, fun _ => []⟩

/-- Two letters are typed and the second one is taken back. -/
theorem typed_line_capital : ∃ last,
    Calls.run (Console.scan fun _ _ => 0) ⟨Keyboard.ready, rootShell⟩
        ([capitalKey, letterKey, backspaceKey].flatMap (Keypress.scans true)) =
      some ⟨Keyboard.ready, last⟩ ∧ last.input = [0x41] := by
  have edits : ∀ keypress ∈ [capitalKey, letterKey, backspaceKey], keypress.key ≠ .tab := by
    intro keypress member
    simp only [List.mem_cons, List.not_mem_nil, or_false] at member
    rcases member with rfl | rfl | rfl <;> nofun
  obtain ⟨last, ran, -, line, -⟩ := typed_line (fun _ _ => 0) true rootShell _ edits
  exact ⟨last, ran, line⟩

end Shell

end Pocky
