import Pocky.Core.InterruptLaws

/-! What code in the kernel computes when interrupts are taken between its instructions. -/

namespace Pocky

open ByteMemory Machine

/-- The part of a stack below the stack pointer, down to the end of the stack. -/
def DeadStack (floor rsp addr : BitVec 64) : Prop := Covers floor (rsp - floor).toNat addr

instance (floor rsp addr : BitVec 64) : Decidable (DeadStack floor rsp addr) :=
  inferInstanceAs (Decidable (Covers floor (rsp - floor).toNat addr))

/-- Two machines agree, but for what lies below the stack pointer and what belongs to handlers. -/
structure AgreesAbove (floor : BitVec 64) (owned : BitVec 64 → Prop) (left right : Machine) : Prop where
  /-- The general registers. -/
  registers : right.registers = left.registers
  /-- The selectors. -/
  segments : right.segments = left.segments
  /-- The flags. -/
  rflags : right.rflags = left.rflags
  /-- Where execution goes on. -/
  rip : right.rip = left.rip
  /-- The rest of the memory. -/
  memory : ∀ addr, ¬ DeadStack floor (left.registers .rsp) addr → ¬ owned addr →
    right.memory addr = left.memory addr

/-- A word that is neither below the stack pointer nor the handlers' own. -/
def Shared (floor : BitVec 64) (owned : BitVec 64 → Prop) (state : Machine) (addr : BitVec 64) :
    Prop :=
  ∀ index < 8, ¬ DeadStack floor (state.registers .rsp) (addr + BitVec.ofNat 64 index) ∧
    ¬ owned (addr + BitVec.ofNat 64 index)

/-- How much of the stack is left. -/
def stackLeft (floor : BitVec 64) (state : Machine) : Nat := (state.registers .rsp - floor).toNat

/-- An instruction reads what is its own and stays on its stack; it does not move the stack pointer
in another way than by pushing and popping. -/
def Proper (floor : BitVec 64) (owned : BitVec 64 → Prop) (state : Machine) : Instruction → Prop
  | .store _ _ _ | .storeSegment _ _ _ | .setSegment _ => True
  | .load target base offset => target ≠ .rsp ∧ Shared floor owned state (state.address base offset)
  | .loadAx base offset => Shared floor owned state (state.address base offset)
  | .push _ | .pushfq => 8 ≤ stackLeft floor state
  | .pop target => target ≠ .rsp ∧ Shared floor owned state (state.registers .rsp) ∧
    stackLeft floor state + 8 < 2 ^ 64
  | .popfq | .ret => Shared floor owned state (state.registers .rsp) ∧
    stackLeft floor state + 8 < 2 ^ 64

namespace AgreesAbove

variable {floor : BitVec 64} {owned : BitVec 64 → Prop} {left right : Machine}

/-- A machine agrees with itself. -/
theorem refl (state : Machine) : AgreesAbove floor owned state state :=
  ⟨rfl, rfl, rfl, rfl, fun _ _ _ => rfl⟩

/-- Shared words are equal. -/
theorem readWord (same : AgreesAbove floor owned left right) {addr : BitVec 64}
    (shared : Shared floor owned left addr) :
    right.memory.readWord addr = left.memory.readWord addr :=
  readWord_congr fun index inside =>
    same.memory _ (shared index inside).1 (shared index inside).2

/-- Addresses are equal. -/
theorem address (same : AgreesAbove floor owned left right) (base : Register) (offset : Nat) :
    right.address base offset = left.address base offset := by
  rw [Machine.address, Machine.address, same.registers]

/-- Both store the same bytes. -/
theorem write (same : AgreesAbove floor owned left right) (count : Nat) (addr value : BitVec 64) :
    AgreesAbove floor owned { left with memory := left.memory.write count addr value }
      { right with memory := right.memory.write count addr value } := by
  refine ⟨same.registers, same.segments, same.rflags, same.rip, fun other alive free => ?_⟩
  by_cases covered : Covers addr count other
  · simp only [ByteMemory.write, if_pos covered]
  · simp only [write_outside _ _ covered]
    exact same.memory other alive free

/-- Both change a register that is not the stack pointer. -/
theorem set (same : AgreesAbove floor owned left right) {target : Register} (other : target ≠ .rsp)
    (value : BitVec 64) : AgreesAbove floor owned (left.set target value) (right.set target value) where
  registers := by simp only [Machine.set, same.registers]
  segments := same.segments
  rflags := same.rflags
  rip := same.rip
  memory := by
    rw [set_other _ (Ne.symm other)]
    exact same.memory

/-- Both push the same word. -/
theorem pushWord (same : AgreesAbove floor owned left right) (room : 8 ≤ stackLeft floor left)
    (value : BitVec 64) : AgreesAbove floor owned (left.pushWord value) (right.pushWord value) where
  registers := by
    simp only [Machine.pushWord, Machine.set, same.registers]
  segments := same.segments
  rflags := same.rflags
  rip := same.rip
  memory addr alive free := by
    rw [pushWord_rsp] at alive
    rw [pushWord_memory, pushWord_memory, same.registers]
    by_cases covered : Covers (left.registers .rsp - 8#64) 8 addr
    · simp only [ByteMemory.write, if_pos covered]
    · rw [write_outside _ _ covered, write_outside _ _ covered]
      refine same.memory addr (fun dead => ?_) free
      have low := (left.registers .rsp).isLt
      have low' := floor.isLt
      have low'' := addr.isLt
      simp only [DeadStack, Covers, stackLeft, BitVec.toNat_sub, BitVec.toNat_ofNat] at *
      omega

/-- Both take a word off the stack. -/
theorem drop (same : AgreesAbove floor owned left right)
    (room : stackLeft floor left + 8 < 2 ^ 64) :
    AgreesAbove floor owned left.drop right.drop where
  registers := by simp only [Machine.drop, Machine.set, same.registers]
  segments := same.segments
  rflags := same.rflags
  rip := same.rip
  memory addr alive free := by
    refine same.memory addr (fun dead => alive ?_) free
    have low := (left.registers .rsp).isLt
    have low' := floor.isLt
    have low'' := addr.isLt
    rw [Machine.drop, set_self]
    simp only [DeadStack, Covers, stackLeft, BitVec.toNat_sub, BitVec.toNat_add,
      BitVec.toNat_ofNat] at *
    omega

/-- Both take the same proper step. -/
theorem step (same : AgreesAbove floor owned left right) {instruction : Instruction}
    (proper : Proper floor owned left instruction) :
    AgreesAbove floor owned (left.step instruction) (right.step instruction) := by
  have top (shared : Shared floor owned left (left.registers .rsp)) : right.top = left.top := by
    rw [Machine.top, Machine.top, same.registers, same.readWord shared]
  cases instruction with
  | store base offset source =>
    simp only [Machine.step, same.address, congrFun same.registers source]
    exact same.write _ _ _
  | load target base offset =>
    simp only [Machine.step, same.address, same.readWord proper.2]
    exact same.set proper.1 _
  | storeSegment base offset source =>
    simp only [Machine.step, same.address, congrFun same.segments source]
    exact same.write _ _ _
  | loadAx base offset =>
    simp only [Machine.step, same.address, same.readWord proper, same.registers]
    exact same.set (by decide) _
  | setSegment target =>
    exact ⟨same.registers, by simp only [Machine.step, same.registers, same.segments], same.rflags,
      same.rip, same.memory⟩
  | push source =>
    simp only [Machine.step, same.registers]
    exact same.pushWord proper _
  | pop target =>
    simp only [Machine.step, top proper.2.1]
    exact (same.drop proper.2.2).set proper.1 _
  | pushfq =>
    simp only [Machine.step, same.rflags]
    exact same.pushWord proper _
  | popfq =>
    have dropped := same.drop proper.2
    exact ⟨dropped.registers, dropped.segments, top proper.1, dropped.rip, dropped.memory⟩
  | ret =>
    have dropped := same.drop proper.2
    exact ⟨dropped.registers, dropped.segments, dropped.rflags, top proper.1, dropped.memory⟩

/-- Aligning the stack pointer lowers it by less than sixteen. -/
theorem stackBase_eq (state : Machine) :
    ∃ slack < 16, state.stackBase = state.registers .rsp - BitVec.ofNat 64 slack := by
  refine ⟨(state.registers .rsp &&& 0xF#64).toNat, ?_, ?_⟩
  · rw [BitVec.toNat_and]
    exact Nat.lt_of_le_of_lt Nat.and_le_right (by decide)
  · have parts : state.stackBase + (state.registers .rsp &&& 0xF#64) = state.registers .rsp := by
      rw [Machine.stackBase, BitVec.add_eq_or_of_and_eq_zero]
      · rw [← BitVec.and_or_distrib_left,
          show ~~~0xF#64 ||| 0xF#64 = BitVec.allOnes 64 from by decide, BitVec.and_allOnes]
      · rw [BitVec.and_assoc, BitVec.and_comm (~~~0xF#64), BitVec.and_assoc]
        simp
    rw [BitVec.ofNat_toNat, BitVec.setWidth_eq]
    exact (BitVec.add_sub_cancel _ _).symm.trans (congrArg (· - _) parts)

/-- After an interrupt whose function has kept to itself, the machines agree as before. -/
theorem interrupted (same : AgreesAbove floor owned left right) {words : List (BitVec 64)}
    {machine after : Machine} (called : Processor.Called right words machine)
    (few : words.length ≤ 22) (room : 191 ≤ stackLeft floor right)
    (segments : after.segments = machine.segments)
    (memory : ∀ addr, ¬ DeadStack floor (machine.registers .rsp) addr → ¬ owned addr →
      after.memory addr = machine.memory addr) : AgreesAbove floor owned left (right.resumed after) where
  registers := same.registers
  segments := by
    rw [← same.segments]
    funext segment
    have others := called.segments segment
    cases segment <;> simp_all [Machine.resumed]
  rflags := same.rflags
  rip := same.rip
  memory addr alive free := by
    obtain ⟨slack, little, base⟩ := stackBase_eq right
    have pointer := called.rsp
    rw [base] at pointer
    rw [← same.registers] at alive
    have low := (right.registers .rsp).isLt
    have low' := floor.isLt
    have low'' := addr.isLt
    refine Eq.trans (memory addr (fun dead => alive ?_) free) (Eq.trans
      (called.outside addr fun covered => alive ?_) (same.memory addr ?_ free))
    · rw [pointer] at dead
      simp only [DeadStack, Covers, stackLeft, BitVec.toNat_sub, BitVec.toNat_ofNat] at *
      omega
    · rw [pointer] at covered
      simp only [DeadStack, Covers, stackLeft, BitVec.toNat_sub, BitVec.toNat_ofNat] at *
      omega
    · rwa [← same.registers]

end AgreesAbove

/-- A function called from a stub keeps to its own part of the stack and to what is its own, and
follows the calling convention, whenever it has the stack it needs. -/
structure Discreet (floor : BitVec 64) (owned : BitVec 64 → Prop) (window need : Nat)
    (handler : Processor → Processor) : Prop where
  /-- It follows the calling convention. -/
  returned : ∀ cpu : Processor, (cpu.machine.registers .rsp).toNat % 16 = 0 →
    need ≤ stackLeft floor cpu.machine → Processor.Returned window cpu.machine (handler cpu).machine
  /-- It leaves the selectors alone. -/
  segments : ∀ cpu : Processor, (cpu.machine.registers .rsp).toNat % 16 = 0 →
    need ≤ stackLeft floor cpu.machine → (handler cpu).machine.segments = cpu.machine.segments
  /-- It leaves the rest of the memory alone. -/
  memory : ∀ cpu : Processor, (cpu.machine.registers .rsp).toNat % 16 = 0 →
    need ≤ stackLeft floor cpu.machine → ∀ addr,
      ¬ DeadStack floor (cpu.machine.registers .rsp) addr → ¬ owned addr →
      (handler cpu).machine.memory addr = cpu.machine.memory addr

/-- What happens next on a processor that runs code in the kernel. -/
inductive Event where
  /-- The code takes a step. -/
  | step (instruction : Instruction)
  /-- An interrupt is taken through a numbered stub. -/
  | interrupt (gate : Gate) (vector : Fin 48) (error : Option (BitVec 64))
  /-- An interrupt of the timer is taken. -/
  | tick (gate : Gate)

namespace Event

/-- The step of the code, if the event is one. -/
def code : Event → Option Instruction
  | .step instruction => some instruction
  | .interrupt _ _ _ | .tick _ => none

/-- What an event does; the two functions are those that the stubs call. -/
def take (isrHandler timerCallback : Processor → Processor) (cpu : Processor) : Event → Processor
  | .step instruction => cpu.on (·.step instruction)
  | .interrupt gate vector error => (cpu.on (·.enter gate error)).run isrHandler (isr vector)
  | .tick gate => (cpu.on (·.enter gate none)).run timerCallback timerHandler

/-- The code may take its next step, and there is room for the interrupts that come. -/
def Possible (floor : BitVec 64) (owned : BitVec 64 → Prop) (need : Nat) (state : Machine) :
    Event → Prop
  | .step instruction => Proper floor owned state instruction
  | .interrupt _ vector error =>
    (error.isSome ↔ vector.val ∈ isrErrCodes) ∧ need + 191 ≤ stackLeft floor state
  | .tick _ => need + 191 ≤ stackLeft floor state

/-- Every event is possible when it happens, in a run that only has the steps of the code. -/
def AllPossible (floor : BitVec 64) (owned : BitVec 64 → Prop) (need : Nat) : Machine → List Event → Prop
  | _, [] => True
  | state, event :: rest => event.Possible floor owned need state ∧
    AllPossible floor owned need (state.run event.code.toList) rest

section Runs

variable {floor : BitVec 64} {owned : BitVec 64 → Prop} {need : Nat}
  {isrHandler timerCallback : Processor → Processor} {state : Machine} {cpu : Processor}

/-- There is room for a function called from a stub. -/
theorem stackLeft_called {right machine : Machine} {words : List (BitVec 64)}
    (called : Processor.Called right words machine) (few : words.length ≤ 22)
    (room : need + 191 ≤ stackLeft floor right) : need ≤ stackLeft floor machine := by
  obtain ⟨slack, little, base⟩ := AgreesAbove.stackBase_eq right
  have pointer := called.rsp
  rw [base] at pointer
  have low := (right.registers .rsp).isLt
  have low' := floor.isLt
  rw [stackLeft, pointer]
  simp only [stackLeft, BitVec.toNat_sub, BitVec.toNat_ofNat] at *
  omega

/-- A step of the code is taken by both; an interrupt is not noticed. -/
theorem agreesAbove_take (isrDiscreet : Discreet floor owned 176 need isrHandler)
    (timerDiscreet : Discreet floor owned 112 need timerCallback) {event : Event}
    (possible : event.Possible floor owned need state)
    (same : AgreesAbove floor owned state cpu.machine) :
    AgreesAbove floor owned (state.run event.code.toList)
      (event.take isrHandler timerCallback cpu).machine := by
  have left : stackLeft floor cpu.machine = stackLeft floor state := by
    rw [stackLeft, same.registers, stackLeft]
  cases event with
  | step instruction => exact same.step possible
  | interrupt gate vector error =>
    rw [Possible, ← left] at possible
    obtain ⟨machine, called, argument, ran⟩ := Processor.run_isrFront possible.1
    have few : (Processor.isrWords cpu.machine vector error).length ≤ 22 :=
      (Processor.length_isrWords _ _ _).le
    have aligned := called.aligned (by rw [Processor.length_isrWords])
    have room := stackLeft_called called few possible.2
    rw [take, Processor.run_isr called ran (isrDiscreet.returned { cpu with machine := machine }
      aligned room)]
    exact same.interrupted called few (by omega)
      (isrDiscreet.segments { cpu with machine := machine } aligned room)
      (isrDiscreet.memory { cpu with machine := machine } aligned room)
  | tick gate =>
    rw [Possible, ← left] at possible
    obtain ⟨machine, called, ran⟩ := Processor.run_timerFront
    have few : (Processor.timerWords cpu.machine).length ≤ 22 := by
      rw [Processor.length_timerWords]
      decide
    have aligned := called.aligned (by rw [Processor.length_timerWords])
    have room := stackLeft_called called few possible
    rw [take, Processor.run_timerHandler called ran (timerDiscreet.returned
      { cpu with machine := machine } aligned room)]
    exact same.interrupted called few (by omega)
      (timerDiscreet.segments { cpu with machine := machine } aligned room)
      (timerDiscreet.memory { cpu with machine := machine } aligned room)

/-- In every order of events the interrupted code stays in step with the undisturbed one. -/
theorem agreesAbove_run (isrDiscreet : Discreet floor owned 176 need isrHandler)
    (timerDiscreet : Discreet floor owned 112 need timerCallback) {events : List Event}
    (possible : AllPossible floor owned need state events)
    (same : AgreesAbove floor owned state cpu.machine) :
    AgreesAbove floor owned (state.run (events.filterMap code))
      (events.foldl (take isrHandler timerCallback) cpu).machine := by
  -- By induction on the events, from the state that both have reached.
  induction events generalizing state cpu with
  | nil => exact same
  | cons event rest ih =>
    have next := ih possible.2 (agreesAbove_take isrDiscreet timerDiscreet possible.1 same)
    have split : state.run ((event :: rest).filterMap code) =
        (state.run event.code.toList).run (rest.filterMap code) := by
      rw [List.filterMap_cons]
      cases event.code <;> rfl
    rw [split]
    exact next

/-- Sending a byte is discreet. -/
theorem acknowledged_discreet (window need : Nat) (port : BitVec 16) (value : BitVec 8) :
    Discreet floor owned window need (Processor.acknowledged · port value) where
  returned cpu _ _ := Processor.acknowledged_returned window cpu port value
  segments _ _ _ := rfl
  memory _ _ _ _ _ _ := rfl

end Runs

end Event

end Pocky
