import Mathlib.Data.List.Induction
import Pocky.Core.Interrupts

/-! What the processor reads out of the interrupt table after any calls that have filled it. -/

namespace Pocky

/-- The gate that leads to a handler, as the processor reads it. -/
def gateTo (handler : BitVec 64) (flags : BitVec 8) : Gate where
  offset := handler
  selector := 0x08#16
  ist := 0
  kind := flags.extractLsb' 0 4
  system := flags.getLsbD 4
  dpl := flags.extractLsb' 5 2
  present := flags.getLsbD 7

/-- Masking before truncating makes no difference. -/
theorem masked_setWidth (value : BitVec 64) (bits : Nat) :
    (value &&& BitVec.ofNat 64 (2 ^ bits - 1)).setWidth bits = value.setWidth bits := by
  apply BitVec.eq_of_getLsbD_eq
  intro index inside
  simp only [BitVec.getLsbD_setWidth, inside, decide_true, Bool.true_and, BitVec.getLsbD_and,
    BitVec.getLsbD_ofNat, Nat.testBit_two_pow_sub_one, Bool.and_true]
  by_cases wide : index < 64
  · simp only [wide, decide_true, Bool.and_true]
  · simp only [BitVec.getLsbD_of_ge value index (by omega), Bool.false_and]

/-- The three parts of an address are put together again. -/
theorem offset_parts (handler : BitVec 64) :
    (handler >>> 32).setWidth 32 ++ (handler >>> 16).setWidth 16 ++ handler.setWidth 16 = handler := by
  apply BitVec.eq_of_getLsbD_eq
  intro index inside
  simp only [BitVec.getLsbD_append, BitVec.getLsbD_setWidth, BitVec.getLsbD_ushiftRight]
  by_cases low : index < 16
  · simp only [low, decide_true, Bool.true_and, if_true]
  · by_cases middle : index - 16 < 16
    · simp only [low, middle, decide_true, Bool.true_and, if_true, if_false,
        show 16 + (index - 16) = index by omega]
    · simp only [low, middle, if_false, show index - 16 - 16 < 32 by omega, decide_true, Bool.true_and,
        show 32 + (index - 16 - 16) = index by omega]

/-- A filled gate is read as it was meant. -/
theorem readGate_createDescriptor (handler : BitVec 64) (flags : BitVec 8) :
    readGate (createDescriptor handler 0x08#16 flags).packed = gateTo handler flags := by
  have low := masked_setWidth handler 16
  have middle := masked_setWidth (handler >>> 16) 16
  have high := masked_setWidth (handler >>> 32) 32
  simp only [Nat.reducePow, Nat.reduceSub] at low middle high
  simp only [readGate, IDTEntry.packed, createDescriptor, low, middle, high, gateTo, Gate.mk.injEq]
  -- Each field is cut out of the part of the record that it was put into.
  simp (disch := decide) only [BitVec.extractLsb'_append_eq_of_le,
    BitVec.extractLsb'_append_eq_of_add_le, BitVec.extractLsb'_eq_self, BitVec.getLsbD_append,
    Nat.reduceSub, Nat.reduceLT, if_true, if_false, offset_parts]
  exact ⟨trivial, trivial, rfl, trivial, trivial, trivial, trivial⟩

/-- A call that sets a gate. -/
structure GateCall where
  /-- Whose gate is set. -/
  vector : BitVec 8
  /-- Where it is to lead. -/
  handler : BitVec 64
  /-- Presence, privilege and kind. -/
  flags : BitVec 8
  deriving Repr, DecidableEq

/-- The call sets the gate of a vector; without a handler it does nothing. -/
def GateCall.sets (vector : BitVec 8) (call : GateCall) : Bool :=
  call.vector = vector && call.handler != 0#64

namespace IDT

/-- One call after the other. -/
def setAll (idt : IDT) (calls : List GateCall) : IDT :=
  calls.foldl (fun idt call => idt.setInterruptHandler call.vector call.handler call.flags) idt

/-- One call changes one gate, or none. -/
theorem setInterruptHandler_apply (idt : IDT) (call : GateCall) (vector : BitVec 8) :
    idt.setInterruptHandler call.vector call.handler call.flags vector =
      if call.sets vector then createDescriptor call.handler 0x08#16 call.flags else idt vector := by
  rw [setInterruptHandler]
  by_cases null : call.handler = 0#64
  · simp [GateCall.sets, null]
  · by_cases same : call.vector = vector
    · subst same
      simp [GateCall.sets, null]
    · simp [GateCall.sets, null, same, Function.update_of_ne (Ne.symm same)]

/-- The last call for a vector decides about its gate. -/
theorem setAll_apply (idt : IDT) (calls : List GateCall) (vector : BitVec 8) :
    idt.setAll calls vector = match calls.reverse.find? (·.sets vector) with
      | some call => createDescriptor call.handler 0x08#16 call.flags
      | none => idt vector := by
  -- By induction on the calls, the last one first.
  induction calls using List.reverseRecOn with
  | nil => rfl
  | append_singleton before call ih =>
    rw [setAll, List.foldl_append, List.foldl_cons, List.foldl_nil, setInterruptHandler_apply,
      List.reverse_append, List.reverse_singleton, List.singleton_append, List.find?_cons]
    cases call.sets vector with
    | true => rfl
    | false => exact ih

/-- Setting consecutive vectors, from some first one. -/
theorem foldl_range (idt : IDT) {isr : Nat → BitVec 64} {first count : Nat}
    (placed : ∀ vector, first ≤ vector → vector < first + count → isr vector ≠ 0#64)
    (small : first + count ≤ 256) (vector : BitVec 8) :
    (List.range count).foldl (fun idt index => idt.setInterruptHandler
      (BitVec.ofNat 8 (first + index)) (isr (first + index)) gateFlags) idt vector =
      if first ≤ vector.toNat ∧ vector.toNat < first + count then
        createDescriptor (isr vector.toNat) 0x08#16 gateFlags
      else idt vector := by
  induction count with
  | zero => rw [if_neg (by omega)]; rfl
  | succ count ih =>
    have before := ih (fun vector low high => placed vector low (by omega)) (by omega)
    rw [List.range_succ, List.foldl_append, List.foldl_cons, List.foldl_nil,
      setInterruptHandler_apply _ ⟨BitVec.ofNat 8 (first + count), isr (first + count), gateFlags⟩, before]
    have handler := placed (first + count) (by omega) (by omega)
    by_cases same : BitVec.ofNat 8 (first + count) = vector
    · have number : vector.toNat = first + count := by
        rw [← same, BitVec.toNat_ofNat]
        omega
      rw [if_pos (by simp [GateCall.sets, same, handler]), if_pos (by omega), number]
    · have number : vector.toNat ≠ first + count := by
        intro number
        apply same
        rw [← number, BitVec.ofNat_toNat, BitVec.setWidth_eq]
      rw [if_neg (by simp [GateCall.sets, same])]
      by_cases inside : first ≤ vector.toNat ∧ vector.toNat < first + count
      · rw [if_pos inside, if_pos (by omega)]
      · rw [if_neg inside, if_neg (by omega)]

/-- The table as it is set up first. -/
theorem initIdt_apply {isr : Nat → BitVec 64} (placed : ∀ vector < 48, isr vector ≠ 0#64)
    (vector : BitVec 8) : initIdt isr vector =
      if vector.toNat < 48 then createDescriptor (isr vector.toNat) 0x08#16 gateFlags
      else IDTEntry.empty := by
  have lines := @foldl_range ((List.range 32).foldl (fun idt vector =>
    idt.setInterruptHandler (BitVec.ofNat 8 vector) (isr vector) gateFlags) fun _ => IDTEntry.empty)
    isr 32 16 (fun vector _ high => placed vector (by omega)) (by decide) vector
  have exceptions := @foldl_range (fun _ => IDTEntry.empty) isr 0 32
    (fun vector _ high => placed vector (by omega)) (by decide) vector
  simp only [Nat.zero_add] at exceptions
  rw [initIdt, lines, exceptions]
  split <;> split <;> first | rfl | (exfalso; omega) | (split <;> first | rfl | (exfalso; omega))

/-- After the table has been set up and gates have been set by any calls, the processor is led by
each gate to the handler of the last call for its vector that named one, in ring zero and on the
current stack; else to the stub of the vector, for the forty-eight there are; else nowhere. -/
theorem readGate_setAll {isr : Nat → BitVec 64} (placed : ∀ vector < 48, isr vector ≠ 0#64)
    (calls : List GateCall) (vector : BitVec 8) :
    readGate ((initIdt isr).setAll calls vector).packed =
      match calls.reverse.find? (·.sets vector) with
      | some call => gateTo call.handler call.flags
      | none => if vector.toNat < 48 then gateTo (isr vector.toNat) gateFlags
        else ⟨0#64, 0#16, 0#3, 0#4, false, 0#2, false⟩ := by
  rw [setAll_apply]
  cases calls.reverse.find? (·.sets vector) with
  | some call => exact readGate_createDescriptor call.handler call.flags
  | none =>
    simp only [initIdt_apply placed]
    split
    · exact readGate_createDescriptor _ _
    · decide

/-- The timer takes over its gate; the keyboard keeps its stub. -/
theorem readGate_setAll_timer :
    let idt := (initIdt fun vector => 0x100000#64 + BitVec.ofNat 64 vector).setAll
      [⟨32, 0x200000#64, gateFlags⟩, ⟨33, 0#64, gateFlags⟩]
    (readGate (idt 32).packed).offset = 0x200000#64 ∧ (readGate (idt 33).packed).offset = 0x100021#64 ∧
      (readGate (idt 48).packed).present = false := by
  intro idt
  have reads (vector : BitVec 8) := @readGate_setAll (fun vector => 0x100000#64 + BitVec.ofNat 64 vector)
    (by decide) [⟨32, 0x200000#64, gateFlags⟩, ⟨33, 0#64, gateFlags⟩] vector
  refine ⟨?_, ?_, ?_⟩
  · rw [reads]; rfl
  · rw [reads]; rfl
  · rw [reads]; rfl

end IDT

end Pocky
