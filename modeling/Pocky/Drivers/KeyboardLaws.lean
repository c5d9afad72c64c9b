import Pocky.Drivers.Keyboard
import Pocky.Lib.Calls

/-! What the driver of the keyboard knows of the keys that are down. -/

namespace Pocky

/-- The codes of the modifiers. -/
def leftShift : UInt8 := 0x2A
def rightShift : UInt8 := 0x36
def control : UInt8 := 0x1D

/-- The codes that say that a modifier is pressed or released. -/
def modifierCodes : List UInt8 := [0x2A, 0xAA, 0x36, 0xB6, 0x1D, 0x9D]

/-- The keys that are down behind one more code, whose first bit says that its key is released. -/
def keysDown (down : UInt8 → Bool) (scancode : UInt8) : UInt8 → Bool :=
  if scancode < 0x80 then Function.update down scancode true
  else Function.update down (scancode - 0x80) false

/-- The character that a key has while others are down. -/
def charOf (down : UInt8 → Bool) (scancode : UInt8) : Option UInt8 :=
  let c := (currentMap (down leftShift || down rightShift)).getD scancode.toNat 0
  if c = 0 then none else some (if down control then ctrlChar c else c)

/-- A shift key is released while the other one is down. -/
def ReleasesOneShift (down : UInt8 → Bool) (scancode : UInt8) : Prop :=
  scancode = 0xAA ∧ down rightShift ∨ scancode = 0xB6 ∧ down leftShift

/-- Both maps have as many characters. -/
theorem currentMap_length (shiftPressed : Bool) : (currentMap shiftPressed).length = 58 := by
  cases shiftPressed <;> decide +kernel

/-- The modifiers have no characters. -/
theorem currentMap_modifier (shiftPressed : Bool) {scancode : UInt8}
    (modifier : scancode ∈ modifierCodes) :
    (currentMap shiftPressed).getD scancode.toNat 0 = 0 := by
  have all : ∀ shiftPressed, ∀ scancode ∈ modifierCodes,
      (currentMap shiftPressed).getD scancode.toNat 0 = 0 := by decide +kernel
  exact all shiftPressed scancode modifier

/-- A code changes nothing but its own key. -/
theorem keysDown_other {down : UInt8 → Bool} {scancode key : UInt8}
    (pressed : scancode ≠ key) (released : scancode ≠ key + 0x80) :
    keysDown down scancode key = down key := by
  unfold keysDown
  split
  · exact Function.update_of_ne (Ne.symm pressed) _ _
  · refine Function.update_of_ne (fun same => released ?_) _ _
    rw [same, UInt8.sub_add_cancel]

namespace Keyboard

/-- The driver after boot, which has a handler while no modifier is pressed. -/
def ready : Keyboard := registerKeyboardHandler (initKeyboard ⟨false, false, false⟩)

variable {unknown : Bool → UInt8 → UInt8} {keyboard : Keyboard} {down : UInt8 → Bool}
  {scancode : UInt8}

/-- A code that belongs to no modifier is looked up. -/
theorem keyboardHandler_other (other : scancode ∉ modifierCodes) :
    keyboardHandler unknown keyboard scancode =
      if scancode < 60 then
        let c := (currentMap keyboard.shiftPressed).getD scancode.toNat
          (unknown keyboard.shiftPressed scancode)
        if c ≠ 0 ∧ keyboard.registered then
          ⟨keyboard, some (if keyboard.ctrlPressed then ctrlChar c else c), true⟩
        else ⟨keyboard, none, true⟩
      else ⟨keyboard, none, true⟩ := by
  simp only [modifierCodes, List.mem_cons, List.not_mem_nil, or_false, not_or] at other
  obtain ⟨left, left', right, right', ctrl, ctrl'⟩ := other
  rw [keyboardHandler, if_neg left, if_neg left', if_neg right, if_neg right', if_neg ctrl,
    if_neg ctrl']

/-- Only the codes of modifiers change what the driver keeps. -/
theorem keyboardHandler_keeps (other : scancode ∉ modifierCodes) :
    (keyboardHandler unknown keyboard scancode).keyboard = keyboard := by
  rw [keyboardHandler_other other]
  split
  · dsimp only
    split <;> rfl
  · rfl

/-- A modifier is no character. -/
theorem keyboardHandler_modifier (modifier : scancode ∈ modifierCodes) :
    (keyboardHandler unknown keyboard scancode).char = none := by
  simp only [modifierCodes, List.mem_cons, List.not_mem_nil, or_false] at modifier
  rcases modifier with rfl | rfl | rfl | rfl | rfl | rfl <;> rfl

/-- A code that has a place in the maps makes the character there. -/
theorem keyboardHandler_known (other : scancode ∉ modifierCodes) (known : scancode.toNat < 58) :
    (keyboardHandler unknown keyboard scancode).char =
      let c := (currentMap keyboard.shiftPressed).getD scancode.toNat 0
      if c ≠ 0 ∧ keyboard.registered then
        some (if keyboard.ctrlPressed then ctrlChar c else c) else none := by
  have small : scancode < 60 := UInt8.lt_iff_toNat_lt.mpr (by
    rw [show (60 : UInt8).toNat = 60 from rfl]
    omega)
  have same : ∀ missing, (currentMap keyboard.shiftPressed).getD scancode.toNat missing =
      (currentMap keyboard.shiftPressed).getD scancode.toNat 0 := by
    intro missing
    rw [List.getD_eq_getElem?_getD, List.getD_eq_getElem?_getD,
      List.getElem?_eq_getElem (by rw [currentMap_length]; exact known)]
    rfl
  rw [keyboardHandler_other other, if_pos small]
  simp only [same]
  split <;> rfl

/-- A code behind those of the maps makes no character. -/
theorem keyboardHandler_far (other : scancode ∉ modifierCodes) (far : 60 ≤ scancode.toNat) :
    (keyboardHandler unknown keyboard scancode).char = none := by
  have large : ¬ scancode < 60 := by
    rw [UInt8.lt_iff_toNat_lt, show (60 : UInt8).toNat = 60 from rfl]
    omega
  rw [keyboardHandler_other other, if_neg large]

/-- The end of the interrupt is signalled for every code but those of the modifiers. -/
theorem keyboardHandler_eoi :
    (keyboardHandler unknown keyboard scancode).eoi = true ↔ scancode ∉ modifierCodes := by
  by_cases modifier : scancode ∈ modifierCodes
  · refine iff_of_false ?_ (not_not_intro modifier)
    simp only [modifierCodes, List.mem_cons, List.not_mem_nil, or_false] at modifier
    rcases modifier with rfl | rfl | rfl | rfl | rfl | rfl <;> nofun
  · refine iff_of_true ?_ modifier
    rw [keyboardHandler_other modifier]
    split
    · dsimp only
      split <;> rfl
    · rfl

/-- The driver takes those modifiers for pressed that are down. -/
@[mk_iff]
structure Follows (keyboard : Keyboard) (down : UInt8 → Bool) : Prop where
  /-- A handler is there. -/
  registered : keyboard.registered = true
  /-- Shift is one of two keys. -/
  shift : keyboard.shiftPressed = (down leftShift || down rightShift)
  /-- Control is one key. -/
  ctrl : keyboard.ctrlPressed = down control

/-- A driver that follows the keys hands on their characters. -/
theorem Follows.char (follows : keyboard.Follows down) (first : scancode ≠ 58)
    (second : scancode ≠ 59) :
    (keyboardHandler unknown keyboard scancode).char = charOf down scancode := by
  by_cases modifier : scancode ∈ modifierCodes
  · rw [keyboardHandler_modifier modifier, charOf, if_pos (currentMap_modifier _ modifier)]
  · by_cases known : scancode.toNat < 58
    · rw [keyboardHandler_known modifier known, charOf, follows.shift, follows.ctrl,
        follows.registered]
      split <;> simp_all
    · -- The two codes behind the maps are excluded, and the others are not looked up.
      have far : 60 ≤ scancode.toNat := by
        have first' : scancode.toNat ≠ 58 := fun same => first (UInt8.toNat_inj.mp same)
        have second' : scancode.toNat ≠ 59 := fun same => second (UInt8.toNat_inj.mp same)
        omega
      have missing :
          (currentMap (down leftShift || down rightShift)).getD scancode.toNat 0 = 0 := by
        have short : (currentMap (down leftShift || down rightShift)).length ≤ scancode.toNat := by
          rw [currentMap_length]
          omega
        rw [List.getD_eq_getElem?_getD, List.getElem?_eq_none short]
        rfl
      rw [keyboardHandler_far modifier far, charOf, if_pos missing]

/-- No modifier is pressed after boot. -/
theorem ready_follows : ready.Follows fun _ => false := ⟨rfl, rfl, rfl⟩

/--
Without modifiers the handler gets what is read without a look at them, but for the codes that it
looks up behind the map.
-/
theorem keyboardHandler_read_iff :
    (∀ unknown, (keyboardHandler unknown ready scancode).char =
      if keyboardRead scancode = 0 then none else some (keyboardRead scancode)) ↔
      scancode ≠ 58 ∧ scancode ≠ 59 := by
  constructor
  · intro same
    -- Whatever is found behind the map is handed on.
    constructor
    · intro first
      subst first
      exact absurd (same fun _ _ => 1) (by decide +kernel)
    · intro second
      subst second
      exact absurd (same fun _ _ => 1) (by decide +kernel)
  · intro inside unknown
    exact ready_follows.char inside.1 inside.2

/-- One more code is followed just when it does not release one of two shift keys. -/
theorem Follows.step_iff (follows : keyboard.Follows down) :
    (keyboardHandler unknown keyboard scancode).keyboard.Follows (keysDown down scancode) ↔
      ¬ ReleasesOneShift down scancode := by
  obtain ⟨registered, shift, ctrl⟩ := follows
  by_cases modifier : scancode ∈ modifierCodes
  · simp only [modifierCodes, List.mem_cons, List.not_mem_nil, or_false] at modifier
    -- Each of the six codes sets one flag of the driver and moves one key.
    rcases modifier with rfl | rfl | rfl | rfl | rfl | rfl <;>
      simp [follows_iff, keyboardHandler, keysDown, ReleasesOneShift, leftShift, rightShift,
        control, registered, shift, ctrl, Function.update]
  · have kept : ∀ key : UInt8, key ∈ modifierCodes → key + 0x80 ∈ modifierCodes →
        keysDown down scancode key = down key := fun key pressed released =>
      keysDown_other (fun same => modifier (same ▸ pressed)) fun same => modifier (same ▸ released)
    refine iff_of_true ?_ ?_
    · rw [keyboardHandler_keeps modifier]
      refine ⟨registered, ?_, ?_⟩
      · rw [shift, kept leftShift (by decide) (by decide), kept rightShift (by decide) (by decide)]
      · rw [ctrl, kept control (by decide) (by decide)]
    · intro releases
      cases releases with
      | inl left => exact modifier (by rw [left.1]; decide)
      | inr right => exact modifier (by rw [right.1]; decide)

/-- The driver and the keys behind one more code. -/
def sense (unknown : Bool → UInt8 → UInt8) (state : Keyboard × (UInt8 → Bool))
    (scancode : UInt8) : Option (Keyboard × (UInt8 → Bool)) :=
  some ((keyboardHandler unknown state.1 scancode).keyboard, keysDown state.2 scancode)

/-- Every run of codes has an end. -/
theorem sense_run (unknown : Bool → UInt8 → UInt8) (codes : List UInt8) :
    ∀ state, ∃ last, Calls.run (sense unknown) state codes = some last := by
  induction codes with
  | nil => exact fun state => ⟨state, rfl⟩
  | cons code codes ih => exact fun state => ih _

/--
Along every run of codes the driver takes for pressed what is down just when no shift key is
released while the other one is down.

It then hands on the characters of the keys, but for the two codes that are looked up behind the
maps.
-/
theorem follows_keys_iff (unknown : Bool → UInt8 → UInt8) (codes : List UInt8) :
    ((∀ front between, front <+: codes →
        Calls.run (sense unknown) (ready, fun _ => false) front = some between →
          between.1.Follows between.2) ↔
      Calls.AllMeet (sense unknown) (fun state code => ¬ ReleasesOneShift state.2 code)
        (ready, fun _ => false) codes) ∧
    (Calls.AllMeet (sense unknown) (fun state code => ¬ ReleasesOneShift state.2 code)
        (ready, fun _ => false) codes →
      ∀ front code between, front ++ [code] <+: codes →
        Calls.run (sense unknown) (ready, fun _ => false) front = some between →
        code ≠ 58 → code ≠ 59 →
          (keyboardHandler unknown between.1 code).char = charOf between.2 code) := by
  obtain ⟨last, ran⟩ := sense_run unknown codes (ready, fun _ => false)
  have step : ∀ (state : Keyboard × (UInt8 → Bool)) (code : UInt8) next,
      state.1.Follows state.2 → sense unknown state code = some next →
        (next.1.Follows next.2 ↔ ¬ ReleasesOneShift state.2 code) := by
    intro state code next follows sensed
    cases sensed
    exact follows.step_iff
  have followed := Calls.run_invariant_iff (fun state => state.1.Follows state.2) step codes
    (ready, fun _ => false) last ready_follows ran
  refine ⟨followed, fun meets front code between inside reached first second => ?_⟩
  have follows := followed.mpr meets front between
    ((List.prefix_append front [code]).trans inside) reached
  exact follows.char first second

end Keyboard

end Pocky
