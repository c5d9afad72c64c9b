import Pocky.Core.Interrupts
import Pocky.Lib.WordStack

/-! What a handler finds on the stack, and that the interrupted code does not notice the interrupt. -/

namespace Pocky

open ByteMemory

namespace Machine

/-- A changed register has its new value. -/
theorem set_self (state : Machine) (target : Register) (value : BitVec 64) :
    (state.set target value).registers target = value := Function.update_self _ _ _

/-- The other registers stay. -/
theorem set_other (state : Machine) {target register : Register} (other : register ≠ target)
    (value : BitVec 64) : (state.set target value).registers register = state.registers register :=
  Function.update_of_ne other _ _

/-- A push lowers the stack pointer by a word. -/
theorem pushWord_rsp (state : Machine) (value : BitVec 64) :
    (state.pushWord value).registers .rsp = state.registers .rsp - 8#64 := by
  simp only [pushWord, set, Function.update_self]

/-- A push stores the word where the stack pointer is then. -/
theorem pushWord_memory (state : Machine) (value : BitVec 64) :
    (state.pushWord value).memory = state.memory.write 8 (state.registers .rsp - 8#64) value := by
  simp only [pushWord, set, Function.update_self]

/-- A machine as before, with some words put on the stack below a base. -/
structure Stacked (start : Machine) (base : BitVec 64) (words : List (BitVec 64)) (state : Machine) :
    Prop where
  /-- Apart from the stack pointer and the memory it is the machine before. -/
  eq : state = { start with
    registers := Function.update start.registers .rsp (base - BitVec.ofNat 64 (8 * words.length))
    memory := state.memory }
  /-- The words are on the stack. -/
  held : state.memory.Words (base - BitVec.ofNat 64 (8 * words.length)) words
  /-- The rest of the memory is as before. -/
  outside : ∀ addr, ¬ Covers (base - BitVec.ofNat 64 (8 * words.length)) (8 * words.length) addr →
    state.memory addr = start.memory addr

namespace Stacked

variable {start state : Machine} {base : BitVec 64} {words : List (BitVec 64)}

/-- Only the stack pointer has changed. -/
theorem registers (stacked : Stacked start base words state) :
    state.registers = Function.update start.registers .rsp
      (base - BitVec.ofNat 64 (8 * words.length)) := congrArg Machine.registers stacked.eq

/-- The stack pointer is below the words. -/
theorem rsp (stacked : Stacked start base words state) :
    state.registers .rsp = base - BitVec.ofNat 64 (8 * words.length) := by
  rw [stacked.registers, Function.update_self]

/-- The other registers are as before. -/
theorem register (stacked : Stacked start base words state) {register : Register}
    (other : register ≠ .rsp) : state.registers register = start.registers register := by
  rw [stacked.registers, Function.update_of_ne other]

/-- Nothing is on the stack yet. -/
theorem nil (start : Machine) (base : BitVec 64) : Stacked start base [] (start.set .rsp base) where
  eq := by simp only [set, List.length_nil, Nat.mul_zero, BitVec.sub_zero]
  held := trivial
  outside _ _ := rfl

/-- Where the next word goes. -/
theorem next (base : BitVec 64) (count : Nat) : base - BitVec.ofNat 64 (8 * count) - 8#64 =
    base - BitVec.ofNat 64 (8 * (count + 1)) := by
  apply BitVec.eq_of_toNat_eq
  simp only [BitVec.toNat_sub, BitVec.toNat_ofNat]
  omega

/-- One more word is pushed. -/
theorem pushWord (stacked : Stacked start base words state)
    (small : 8 * (words.length + 1) ≤ 2 ^ 64) (value : BitVec 64) :
    Stacked start base (value :: words) (state.pushWord value) := by
  have pointer : (state.pushWord value).registers .rsp =
      base - BitVec.ofNat 64 (8 * (words.length + 1)) := by
    rw [pushWord_rsp, stacked.rsp, next]
  have memory : (state.pushWord value).memory = state.memory.write 8
      (base - BitVec.ofNat 64 (8 * words.length) - 8#64) value := by
    rw [pushWord_memory, stacked.rsp]
  constructor
  · rw [List.length_cons, ← pointer]
    have same := congrArg (·.pushWord value) stacked.eq
    simp only [Machine.pushWord, Machine.set, Function.update_self, Function.update_idem,
      stacked.rsp] at same ⊢
    exact same
  · rw [List.length_cons, ← next, memory]
    exact stacked.held.push small value
  · rw [List.length_cons, ← next, memory]
    intro addr apart
    have covered {length index : Nat} (within : index + length ≤ 8 * (words.length + 1))
        (inside : Covers (base - BitVec.ofNat 64 (8 * words.length) - 8#64 + BitVec.ofNat 64 index)
          length addr) : False := by
      have longer := covers_behind inside (by omega)
      exact apart (Nat.lt_of_lt_of_le longer within)
    rw [write_outside, stacked.outside]
    · intro inside
      refine @covered (8 * words.length) 8 (by omega) ?_
      rwa [show BitVec.ofNat 64 8 = 8#64 from rfl, BitVec.sub_add_cancel]
    · intro inside
      refine @covered 8 0 (by omega) ?_
      rwa [show BitVec.ofNat 64 0 = 0#64 from rfl, BitVec.add_zero]

/-- Execution may go on elsewhere, with other selectors and flags. -/
theorem elsewhere (stacked : Stacked start base words state)
    (segments : SegmentRegister → BitVec 16) (rflags rip : BitVec 64) :
    Stacked { start with segments := segments, rflags := rflags, rip := rip } base words
      { state with segments := segments, rflags := rflags, rip := rip } where
  eq := by
    have same := congrArg (fun (state : Machine) =>
      { state with segments := segments, rflags := rflags, rip := rip }) stacked.eq
    exact same
  held := stacked.held
  outside := stacked.outside

end Stacked

/-- What is put on the stack when an interrupt is taken, from the top down. -/
def entryWords (state : Machine) (error : Option (BitVec 64)) : List (BitVec 64) :=
  error.toList ++ [state.rip, (state.segments .cs).setWidth 64, state.rflags, state.registers .rsp,
    (state.segments .ss).setWidth 64]

/-- The machine in which a stub starts, with the stack pointer not yet moved. -/
def entering (state : Machine) (gate : Gate) : Machine :=
  { state with
    rip := gate.offset
    segments := Function.update state.segments .cs gate.selector
    rflags := state.rflags &&& ~~~if gate.kind = 0xE#4 then 0x34300#64 else 0x34100#64 }

/-- From where the stack is used by an interrupt. -/
def stackBase (state : Machine) : BitVec 64 := state.registers .rsp &&& ~~~0xF#64

/-- Taking an interrupt puts its words on the stack. -/
theorem enter_stacked (state : Machine) (gate : Gate) (error : Option (BitVec 64)) :
    Stacked (state.entering gate) state.stackBase (state.entryWords error) (state.enter gate error) := by
  have small {count : Nat} (few : count ≤ 5) : 8 * (count + 1) ≤ 2 ^ 64 := by omega
  have one := (Stacked.nil state state.stackBase).pushWord (small (by simp))
    ((state.segments .ss).setWidth 64)
  have two := one.pushWord (small (by simp)) (state.registers .rsp)
  have three := two.pushWord (small (by simp)) state.rflags
  have four := three.pushWord (small (by simp)) ((state.segments .cs).setWidth 64)
  have five := four.pushWord (small (by simp)) state.rip
  cases error with
  | none => exact five.elsewhere _ _ _
  | some code => exact (five.pushWord (small (by simp)) code).elsewhere _ _ _

/-- The interrupted machine, with the memory and the data selectors of the handler. -/
def resumed (state after : Machine) : Machine :=
  { after with
    registers := state.registers
    rip := state.rip
    rflags := state.rflags
    segments := Function.update (Function.update after.segments .cs (state.segments .cs)) .ss
      (state.segments .ss) }

/-- The words of an entry take the processor back. -/
theorem iretq_resumed {state after : Machine}
    (held : after.memory.Words (after.registers .rsp) (state.entryWords none))
    (others : ∀ register, register ≠ .rsp → after.registers register = state.registers register) :
    after.iretq = state.resumed after := by
  simp only [entryWords, Option.toList_none, List.nil_append, Words, and_true, BitVec.add_assoc,
    BitVec.reduceAdd] at held
  obtain ⟨rip, cs, rflags, rsp, ss⟩ := held
  have registers : Function.update after.registers .rsp (state.registers .rsp) = state.registers := by
    funext register
    by_cases same : register = .rsp
    · rw [same, Function.update_self]
    · rw [Function.update_of_ne same, others register same]
  have narrow (selector : BitVec 16) : (selector.setWidth 64).setWidth 16 = selector := by simp
  simp only [iretq, resumed, set, Nat.reduceMul, BitVec.add_zero, rip, cs, rflags, rsp, ss, narrow,
    registers]

end Machine

/-- The frame of an interrupt that is taken somewhere. -/
def InterruptFrame.of (state : Machine) (vector : Nat) (error : Option (BitVec 64)) :
    InterruptFrame where
  r15 := state.registers .r15
  r14 := state.registers .r14
  r13 := state.registers .r13
  r12 := state.registers .r12
  r11 := state.registers .r11
  r10 := state.registers .r10
  r9 := state.registers .r9
  r8 := state.registers .r8
  rbp := state.registers .rbp
  rdi := state.registers .rdi
  rsi := state.registers .rsi
  rdx := state.registers .rdx
  rcx := state.registers .rcx
  rbx := state.registers .rbx
  rax := state.registers .rax
  interruptNumber := BitVec.ofNat 64 vector
  errorCode := error.getD 0#64
  rip := state.rip
  cs := (state.segments .cs).setWidth 64
  rflags := state.rflags
  rsp := state.registers .rsp
  ss := (state.segments .ss).setWidth 64

namespace Processor

open Machine

variable {handler : Processor → Processor} {start : Machine} {base : BitVec 64}
  {words : List (BitVec 64)} {cpu : Processor}

/-- Pushing registers puts them on the stack, the last one on top. -/
theorem run_pushes {saved : List Register} (noRsp : .rsp ∉ saved)
    (stacked : Stacked start base words cpu.machine)
    (small : 8 * (words.length + saved.length) ≤ 2 ^ 64) :
    ∃ state, Stacked start base ((saved.map start.registers).reverse ++ words) state ∧
      cpu.run handler (saved.map .push) = { cpu with machine := state } := by
  -- By induction on the registers, with the words that are on the stack already.
  induction saved generalizing cpu words with
  | nil => exact ⟨cpu.machine, stacked, rfl⟩
  | cons register rest ih =>
    rw [List.mem_cons, not_or] at noRsp
    rw [List.length_cons] at small
    have pushed := stacked.pushWord (by omega) (cpu.machine.registers register)
    obtain ⟨state, stacked', ran⟩ := @ih _ (cpu.step handler (.push register)) noRsp.2 pushed
      (by rw [List.length_cons]; omega)
    refine ⟨state, ?_, ran⟩
    rw [stacked.register (Ne.symm noRsp.1)] at stacked'
    rwa [List.map_cons, List.reverse_cons, List.append_assoc, List.singleton_append]

/-- The registers after some of them have been popped. -/
def popped (registers : Register → BitVec 64) (targets : List Register)
    (values : Register → BitVec 64) : Register → BitVec 64 := fun register =>
  if register = .rsp then registers .rsp + BitVec.ofNat 64 (8 * targets.length)
  else if register ∈ targets then values register else registers register

/-- Popping one register, then others. -/
theorem popped_cons (registers : Register → BitVec 64) {target : Register} (noRsp : target ≠ .rsp)
    (targets : List Register) (values : Register → BitVec 64) :
    popped (Function.update (Function.update registers .rsp (registers .rsp + 8#64)) target
      (values target)) targets values = popped registers (target :: targets) values := by
  have count : registers .rsp + 8#64 + BitVec.ofNat 64 (8 * targets.length) =
      registers .rsp + BitVec.ofNat 64 (8 * (targets.length + 1)) := by
    apply BitVec.eq_of_toNat_eq
    simp only [BitVec.toNat_add, BitVec.toNat_ofNat]
    omega
  funext register
  simp only [popped, List.length_cons, List.mem_cons]
  by_cases pointer : register = .rsp
  · rw [if_pos pointer, if_pos pointer, Function.update_of_ne noRsp.symm, Function.update_self, count]
  · rw [if_neg pointer, if_neg pointer]
    by_cases same : register = target
    · subst same
      simp
    · rw [Function.update_of_ne same, Function.update_of_ne pointer]
      simp [same]

/-- Popping registers takes their values from the stack. -/
theorem run_pops {targets : List Register} (noRsp : .rsp ∉ targets) {values : Register → BitVec 64}
    (held : cpu.machine.memory.Words (cpu.machine.registers .rsp) (targets.map values ++ words)) :
    cpu.run handler (targets.map .pop) =
      cpu.on fun state => { state with registers := popped state.registers targets values } := by
  -- By induction on the registers, from the one on top of the stack down.
  induction targets generalizing cpu with
  | nil =>
    have same : popped cpu.machine.registers [] values = cpu.machine.registers := by
      funext register
      by_cases pointer : register = .rsp <;> simp [popped, pointer]
    simp only [run, List.map_nil, List.foldl_nil, on, same]
  | cons target rest ih =>
    rw [List.mem_cons, not_or] at noRsp
    have pointer : (cpu.step handler (.pop target)).machine.registers .rsp =
        cpu.machine.registers .rsp + 8#64 := by
      simp only [step, on, Machine.step, Machine.drop, Machine.set]
      rw [Function.update_of_ne noRsp.1, Function.update_self]
    have rest := @ih (cpu.step handler (.pop target)) noRsp.2 (by rw [pointer]; exact held.2)
    rw [List.map_cons, run, List.foldl_cons]
    refine rest.trans ?_
    simp only [step, on, Machine.step, Machine.drop, Machine.set, Machine.top, held.1,
      popped_cons _ (Ne.symm noRsp.1)]

/-- What a called function leaves as it was, of the stack as much as a window above its pointer. -/
structure Returned (window : Nat) (before after : Machine) : Prop where
  /-- The stack pointer. -/
  rsp : after.registers .rsp = before.registers .rsp
  /-- The registers that calls must not change. -/
  calleeSaved : ∀ register ∈ calleeSaved, after.registers register = before.registers register
  /-- What lies on the stack. -/
  stack : ∀ addr, Covers (before.registers .rsp) window addr → after.memory addr = before.memory addr

/-- Words within the window are still on the stack. -/
theorem Returned.held {window : Nat} {before after : Machine}
    (returned : Returned window before after)
    (held : before.memory.Words (before.registers .rsp) words) (fits : 8 * words.length ≤ window)
    (small : window ≤ 2 ^ 64) : after.memory.Words (after.registers .rsp) words := by
  rw [returned.rsp]
  exact held.congr (Nat.le_trans fits small) fun addr covered =>
    returned.stack addr (Nat.lt_of_lt_of_le covered fits)

/-- The accumulator may change further. -/
theorem Returned.accumulator {window : Nat} {before after : Machine}
    (returned : Returned window before after) (value : BitVec 64) :
    Returned window before (after.set .rax value) where
  rsp := (set_other _ (by decide) _).trans returned.rsp
  calleeSaved register member := by
    rw [set_other _ (by rintro rfl; exact absurd member (by decide))]
    exact returned.calleeSaved register member
  stack := returned.stack

/-- The lowest byte of the accumulator is the one that was loaded. -/
theorem lowByte_loadAl (accumulator : BitVec 64) (value : BitVec 8) :
    ((accumulator &&& ~~~0xFF#64) ||| value.setWidth 64).setWidth 8 = value := by
  ext index inside
  have low : (0xFF#64).getLsbD index = true := by
    revert index
    decide
  have wide : index < 64 := by omega
  simp only [BitVec.getElem_setWidth, BitVec.getLsbD_or, BitVec.getLsbD_and, BitVec.getLsbD_not, low,
    BitVec.getLsbD_setWidth, wide]
  simp [BitVec.getLsbD_eq_getElem inside]

/-- A byte has been sent to a port, by way of the accumulator. -/
def acknowledged (cpu : Processor) (port : BitVec 16) (value : BitVec 8) : Processor where
  machine := cpu.machine.set .rax ((cpu.machine.registers .rax &&& ~~~0xFF#64) ||| value.setWidth 64)
  sent := (port, value) :: cpu.sent

/-- How a stub sends a byte. -/
theorem run_acknowledge (port : BitVec 16) (value : BitVec 8) :
    cpu.run handler [.loadAl value, .outAl port] = cpu.acknowledged port value := by
  rw [run, List.foldl_cons, List.foldl_cons, List.foldl_nil, step, step, on, set_self, lowByte_loadAl,
    acknowledged]

/-- A function follows the calling convention when it is called with an aligned stack. -/
def FollowsAbi (window : Nat) (handler : Processor → Processor) : Prop :=
  ∀ cpu : Processor, (cpu.machine.registers .rsp).toNat % 16 = 0 →
    Returned window cpu.machine (handler cpu).machine

/-- Popping all that a stub has saved brings the registers back, but for the stack pointer. -/
theorem run_restores {state : Machine} {saved : List Register} (noRsp : .rsp ∉ saved)
    (cover : ∀ register, register ≠ .rsp → register ∈ saved ∨ register ∈ calleeSaved)
    (held : cpu.machine.memory.Words (cpu.machine.registers .rsp)
      ((saved.map state.registers).reverse ++ words))
    (kept : ∀ register ∈ calleeSaved, cpu.machine.registers register = state.registers register) :
    ∃ machine, cpu.run handler (saved.reverse.map .pop) = { cpu with machine := machine } ∧
      state.resumed machine = state.resumed cpu.machine ∧
      (∀ register, register ≠ .rsp → machine.registers register = state.registers register) ∧
      machine.memory.Words (machine.registers .rsp) words := by
  rw [← List.map_reverse] at held
  have noRsp' : .rsp ∉ saved.reverse := by rwa [List.mem_reverse]
  refine ⟨_, run_pops noRsp' held, rfl, ?_, ?_⟩
  · intro register other
    simp only [popped, if_neg other, List.mem_reverse]
    split
    · rfl
    · rename_i absent
      exact kept register ((cover register other).resolve_left absent)
  · have behind := (Words.append.mp held).2
    simpa [popped] using behind

/-- What has been run in two parts. -/
theorem run_append (first second : List StubInstruction) :
    cpu.run handler (first ++ second) = (cpu.run handler first).run handler second :=
  List.foldl_append

/-- The registers that the common stub saves, in their order. -/
def isrSaved : List Register :=
  [.rax, .rbx, .rcx, .rdx, .rsi, .rdi, .rbp, .r8, .r9, .r10, .r11, .r12, .r13, .r14, .r15]

/-- The registers that the stub of the timer saves, in their order. -/
def timerSaved : List Register := [.rax, .rcx, .rdx, .rsi, .rdi, .r8, .r9, .r10, .r11]

/-- The numbered stubs save all that a call may change. -/
theorem isrSaved_cover (register : Register) (other : register ≠ .rsp) :
    register ∈ isrSaved ∨ register ∈ calleeSaved := by
  cases register <;> first | exact absurd rfl other | decide

/-- So does the stub of the timer. -/
theorem timerSaved_cover (register : Register) (other : register ≠ .rsp) :
    register ∈ timerSaved ∨ register ∈ calleeSaved := by
  cases register <;> first | exact absurd rfl other | decide

/-- The numbers that a stub puts below what the processor has pushed. -/
def isrNumbers (vector : Nat) : List StubInstruction :=
  if vector ∈ isrErrCodes then [.pushNumber vector] else [.pushNumber 0, .pushNumber vector]

/-- A stub before its call. -/
def isrFront (vector : Nat) : List StubInstruction :=
  isrNumbers vector ++ isrSaved.map .push ++ [.copyRsp .rdi]

/-- The parts of a numbered stub. -/
theorem isr_parts (vector : Nat) : isr vector = isrFront vector ++ [.call] ++
    (isrSaved.reverse.map .pop ++ [.addRsp 16, .iretq]) := by
  by_cases code : vector ∈ isrErrCodes
  · rw [isr, isrFront, isrNumbers, if_pos code, if_pos code]
    rfl
  · rw [isr, isrFront, isrNumbers, if_neg code, if_neg code]
    rfl

/-- A stub runs to its call first. -/
theorem isr_takeWhile (vector : Nat) : (isr vector).takeWhile (· != .call) = isrFront vector := by
  by_cases code : vector ∈ isrErrCodes
  · rw [isr, isrFront, isrNumbers, if_pos code, if_pos code]
    rfl
  · rw [isr, isrFront, isrNumbers, if_neg code, if_neg code]
    rfl

/-- With its numbers every stub has the same words on the stack. -/
theorem run_isrNumbers {vector : Nat} {error : Option (BitVec 64)} {state : Machine}
    (agrees : error.isSome ↔ vector ∈ isrErrCodes)
    (stacked : Stacked start base (state.entryWords error) cpu.machine) :
    ∃ machine, Stacked start base
        (BitVec.ofNat 64 vector :: error.getD 0#64 :: state.entryWords none) machine ∧
      cpu.run handler (isrNumbers vector) = { cpu with machine := machine } := by
  cases error with
  | none =>
    rw [isrNumbers, if_neg (by simpa using agrees)]
    exact ⟨_, (stacked.pushWord (by simp [entryWords]) 0#64).pushWord (by simp [entryWords]) _, rfl⟩
  | some code =>
    rw [isrNumbers, if_pos (by simpa using agrees)]
    exact ⟨_, stacked.pushWord (by simp [entryWords]) _, rfl⟩

/-- The stack is aligned for a call when an even number of words is on it. -/
theorem aligned_call (state : Machine) {count : Nat} (even : count % 2 = 0) :
    (state.stackBase - BitVec.ofNat 64 (8 * count)).toNat % 16 = 0 := by
  have low : (state.stackBase &&& 0xF#64) = 0#64 := by
    rw [Machine.stackBase, BitVec.and_assoc]
    simp
  have aligned := congrArg BitVec.toNat low
  rw [BitVec.toNat_and, show (0xF#64).toNat = 2 ^ 4 - 1 from rfl,
    Nat.and_two_pow_sub_one_eq_mod] at aligned
  have bound := state.stackBase.isLt
  simp only [BitVec.toNat_sub, BitVec.toNat_ofNat, Nat.zero_mod] at aligned ⊢
  omega

/-- The words under the stub's call: the registers, its two numbers and those of the processor. -/
def isrWords (state : Machine) (vector : Nat) (error : Option (BitVec 64)) : List (BitVec 64) :=
  (isrSaved.map state.registers).reverse ++
    BitVec.ofNat 64 vector :: error.getD 0#64 :: state.entryWords none

/-- They fill the frame. -/
theorem length_isrWords (state : Machine) (vector : Nat) (error : Option (BitVec 64)) :
    (isrWords state vector error).length = 22 := by
  simp [isrWords, isrSaved, Machine.entryWords]

/-- The words on the stack are the fields of the frame. -/
theorem read_frame {memory : ByteMemory} {frame : BitVec 64} {state : Machine}
    {vector : Nat} {error : Option (BitVec 64)}
    (held : memory.Words frame (isrWords state vector error)) :
    InterruptFrame.read memory frame = .of state vector error := by
  simp only [isrWords, isrSaved, List.map_cons, List.map_nil, List.reverse_cons, List.reverse_nil,
    List.nil_append, List.cons_append, Machine.entryWords, Option.toList_none, Words, and_true,
    BitVec.add_assoc, BitVec.reduceAdd] at held
  simp only [InterruptFrame.read, InterruptFrame.of, Nat.reduceMul, BitVec.add_zero, held]

/-- The state in which a stub calls its function, with some words on the stack. -/
structure Called (state : Machine) (words : List (BitVec 64)) (called : Machine) : Prop where
  /-- The stack pointer is below the words. -/
  rsp : called.registers .rsp = state.stackBase - BitVec.ofNat 64 (8 * words.length)
  /-- The words are on the stack. -/
  held : called.memory.Words (called.registers .rsp) words
  /-- The rest of the memory is as before. -/
  outside : ∀ addr, ¬ Covers (called.registers .rsp) (8 * words.length) addr →
    called.memory addr = state.memory addr
  /-- What calls must not change is as before. -/
  calleeSaved : ∀ register ∈ calleeSaved, called.registers register = state.registers register
  /-- The data selectors are as before. -/
  segments : ∀ segment, segment ≠ .cs → called.segments segment = state.segments segment

/-- Pushing the words is what leads to a call. -/
theorem called_of_stacked {state machine : Machine} {gate : Gate}
    (stacked : Stacked (state.entering gate) state.stackBase words machine) :
    Called state words machine where
  rsp := stacked.rsp
  held := by rw [stacked.rsp]; exact stacked.held
  outside := by rw [stacked.rsp]; exact stacked.outside
  calleeSaved register member := stacked.register (by rintro rfl; exact absurd member (by decide))
  segments segment other := by
    rw [congrArg Machine.segments stacked.eq]
    exact Function.update_of_ne other _ _

/-- An argument register may be set before the call. -/
theorem Called.argument {state machine : Machine} (called : Called state words machine)
    (value : BitVec 64) : Called state words (machine.set .rdi value) where
  rsp := (set_other _ (by decide) _).trans called.rsp
  held := by rw [set_other _ (by decide)]; exact called.held
  outside := by rw [set_other _ (by decide)]; exact called.outside
  calleeSaved register member := by
    rw [set_other _ (by rintro rfl; exact absurd member (by decide))]
    exact called.calleeSaved register member
  segments := called.segments

/-- When the function has returned, the stub's pops bring back what was interrupted. -/
theorem Called.restores {state machine : Machine} {saved : List Register} {window : Nat}
    (called : Called state ((saved.map state.registers).reverse ++ words) machine)
    (returned : Returned window machine cpu.machine) (noRsp : .rsp ∉ saved)
    (cover : ∀ register, register ≠ .rsp → register ∈ saved ∨ register ∈ Pocky.calleeSaved)
    (fits : 8 * (saved.length + words.length) ≤ window) (small : window ≤ 2 ^ 64) :
    ∃ machine, cpu.run handler (saved.reverse.map .pop) = { cpu with machine := machine } ∧
      state.resumed machine = state.resumed cpu.machine ∧
      (∀ register, register ≠ .rsp → machine.registers register = state.registers register) ∧
      machine.memory.Words (machine.registers .rsp) words := by
  refine run_restores noRsp cover (returned.held called.held ?_ small) fun register member => ?_
  · rwa [List.length_append, List.length_reverse, List.length_map]
  · rw [returned.calleeSaved register member, called.calleeSaved register member]

/-- The stack is aligned for the call when an even number of words is on it. -/
theorem Called.aligned {state machine : Machine} (called : Called state words machine)
    (even : words.length % 2 = 0) : (machine.registers .rsp).toNat % 16 = 0 := by
  rw [called.rsp]
  exact aligned_call state even

/-- The state in which a numbered stub calls its function, which is given the frame. -/
theorem run_isrFront {gate : Gate} {vector : Nat} {error : Option (BitVec 64)}
    (agrees : error.isSome ↔ vector ∈ isrErrCodes) :
    ∃ machine, Called cpu.machine (isrWords cpu.machine vector error) machine ∧
      machine.registers .rdi = machine.registers .rsp ∧
      (cpu.on (·.enter gate error)).run handler (isrFront vector) = { cpu with machine := machine } := by
  have entered : Stacked (cpu.machine.entering gate) cpu.machine.stackBase
      (cpu.machine.entryWords error) (cpu.on (·.enter gate error)).machine :=
    cpu.machine.enter_stacked gate error
  obtain ⟨numbered, stacked, ran⟩ := run_isrNumbers agrees entered
  obtain ⟨pushed, full, ran'⟩ := @run_pushes handler _ _ _ { cpu with machine := numbered } isrSaved
    (by decide) stacked (by simp [Machine.entryWords, isrSaved])
  refine ⟨pushed.set .rdi (pushed.registers .rsp), (called_of_stacked full).argument _, ?_, ?_⟩
  · rw [set_self, set_other _ (by decide)]
  · rw [isrFront, run_append, run_append, ran]
    exact congrArg (fun cpu => run handler cpu [.copyRsp .rdi]) ran'

/-- After its function a numbered stub goes back to what was interrupted. -/
theorem run_isr {gate : Gate} {vector : Nat} {error : Option (BitVec 64)} {machine : Machine}
    (called : Called cpu.machine (isrWords cpu.machine vector error) machine)
    (ran : (cpu.on (·.enter gate error)).run handler (isrFront vector) = { cpu with machine := machine })
    (returned : Returned 176 machine (handler { cpu with machine := machine }).machine) :
    (cpu.on (·.enter gate error)).run handler (isr vector) =
      (handler { cpu with machine := machine }).on cpu.machine.resumed := by
  obtain ⟨restored, ran', same, registers, words⟩ := @Called.restores handler _ _ cpu.machine machine
    isrSaved 176 called returned (by decide) isrSaved_cover (by simp [entryWords, isrSaved]) (by decide)
  -- The two numbers are dropped before the return.
  have dropped := ((@Words.append _ _ [_, _] _).mp words).2
  rw [show BitVec.ofNat 64 (8 * [_, _].length) = 16#64 from rfl,
    ← set_self restored .rsp (restored.registers .rsp + 16#64)] at dropped
  have back := @iretq_resumed _ { restored.set .rsp (restored.registers .rsp + 16#64) with
    rflags := addFlags restored.rflags (restored.registers .rsp) 16#64 } dropped
    fun register other => (set_other _ other _).trans (registers register other)
  have parts : (cpu.on (·.enter gate error)).run handler (isr vector) =
      ((handler { cpu with machine := machine }).run handler (isrSaved.reverse.map .pop)).run handler
        [.addRsp 16, .iretq] := by
    rw [isr_parts, List.append_assoc, run_append, run_append, run_append, ran]
    rfl
  rw [parts, ran']
  exact congrArg (fun machine => { handler { cpu with machine := _ } with machine := machine })
    (back.trans same)

/-- The words under the call of the timer's stub. -/
def timerWords (state : Machine) : List (BitVec 64) :=
  (timerSaved.map state.registers).reverse ++ state.entryWords none

/-- There are fourteen of them. -/
theorem length_timerWords (state : Machine) : (timerWords state).length = 14 := by
  simp [timerWords, timerSaved, Machine.entryWords]

/-- The state in which the stub of the timer calls its function. -/
theorem run_timerFront {gate : Gate} :
    ∃ machine, Called cpu.machine (timerWords cpu.machine) machine ∧
      (cpu.on (·.enter gate none)).run handler (timerSaved.map .push) =
        { cpu with machine := machine } := by
  have entered : Stacked (cpu.machine.entering gate) cpu.machine.stackBase
      (cpu.machine.entryWords none) (cpu.on (·.enter gate none)).machine :=
    cpu.machine.enter_stacked gate none
  obtain ⟨pushed, full, ran⟩ := @run_pushes handler _ _ _ _ timerSaved (by decide) entered
    (by simp [Machine.entryWords, timerSaved])
  exact ⟨pushed, called_of_stacked full, ran⟩

/-- After its function the stub of the timer acknowledges the interrupt and goes back. -/
theorem run_timerHandler {gate : Gate} {machine : Machine}
    (called : Called cpu.machine (timerWords cpu.machine) machine)
    (ran : (cpu.on (·.enter gate none)).run handler (timerSaved.map .push) =
      { cpu with machine := machine })
    (returned : Returned 112 machine (handler { cpu with machine := machine }).machine) :
    (cpu.on (·.enter gate none)).run handler timerHandler =
      { machine := cpu.machine.resumed (handler { cpu with machine := machine }).machine
        sent := (0x20#16, 0x20#8) :: (handler { cpu with machine := machine }).sent } := by
  generalize returnedEq : handler { cpu with machine := machine } = after at returned
  -- The accumulator is used for the acknowledgement before it is popped.
  obtain ⟨restored, ran', same, registers, words⟩ := @Called.restores handler _
    (after.acknowledged 0x20#16 0x20#8) cpu.machine machine timerSaved 112 called
    (returned.accumulator _) (by decide) timerSaved_cover (by simp [entryWords, timerSaved]) (by decide)
  have parts : (cpu.on (·.enter gate none)).run handler timerHandler =
      ((after.run handler [.loadAl 0x20#8, .outAl 0x20#16]).run handler
        (timerSaved.reverse.map .pop)).run handler [.iretq] := by
    rw [show timerHandler = timerSaved.map .push ++ ([.call] ++ ([.loadAl 0x20#8, .outAl 0x20#16] ++
      (timerSaved.reverse.map .pop ++ [.iretq]))) from rfl, run_append, run_append, run_append,
      run_append, ran, ← returnedEq]
    rfl
  rw [parts, run_acknowledge, ran']
  exact congrArg (fun state : Machine => (⟨state, (0x20#16, 0x20#8) :: after.sent⟩ : Processor))
    ((iretq_resumed words registers).trans same)

/-- A handler finds the state of the interrupted code in its frame, on an aligned stack, with the
rest of the memory untouched; when it has returned, the interrupted code goes on as if nothing had
happened. The processor has to push a code for just the vectors whose stubs expect one. -/
theorem isr_transparent {handler : Processor → Processor} (abi : FollowsAbi 176 handler)
    (gate : Gate) (vector : Fin 48) {error : Option (BitVec 64)}
    (agrees : error.isSome ↔ vector.val ∈ isrErrCodes) (cpu : Processor) :
    let entered := cpu.on (·.enter gate error)
    let called := entered.run handler ((isr vector).takeWhile (· != .call))
    (called.machine.registers .rsp).toNat % 16 = 0 ∧
    InterruptFrame.read called.machine.memory (called.machine.registers .rdi) =
      .of cpu.machine vector error ∧
    (∀ addr, ¬ Covers (cpu.machine.stackBase - 176#64) 176 addr →
      called.machine.memory addr = cpu.machine.memory addr) ∧
    entered.run handler (isr vector) = (handler called).on cpu.machine.resumed := by
  intro entered called
  obtain ⟨machine, stacked, argument, ran⟩ := @run_isrFront handler cpu gate _ _ agrees
  have full := length_isrWords cpu.machine vector error
  have calledEq : called = { cpu with machine := machine } := by rw [← ran, ← isr_takeWhile]
  have aligned := stacked.aligned (by rw [full])
  have outside := stacked.outside
  rw [stacked.rsp, full] at outside
  rw [calledEq]
  refine ⟨aligned, ?_, outside, run_isr stacked ran (abi { cpu with machine := machine } aligned)⟩
  exact read_frame (by rw [argument]; exact stacked.held)

/-- Sending a byte follows the calling convention. -/
theorem acknowledged_returned (window : Nat) (cpu : Processor) (port : BitVec 16) (value : BitVec 8) :
    Returned window cpu.machine (cpu.acknowledged port value).machine :=
  Returned.accumulator ⟨rfl, fun _ _ => rfl, fun _ _ => rfl⟩ _

/-- A key is pressed: the code goes on with the same registers, and the interrupt is acknowledged. -/
theorem isr_transparent_keyboard :
    let cpu : Processor := ⟨⟨fun register => if register = .rsp then 0x9008#64 else 7#64,
      fun _ => 8#16, 0x202#64, 0x100000#64, fun _ => 0#8⟩, []⟩
    let after := (cpu.on (·.enter (readGate (createDescriptor 0x200000#64 8#16 0x8E#8).packed) none)).run
      (acknowledged · 0x20#16 0x20#8) (isr 33)
    after.machine.registers = cpu.machine.registers ∧ after.machine.rflags = 0x202#64 ∧
      after.machine.rip = 0x100000#64 ∧ after.sent = [(0x20#16, 0x20#8)] := by
  intro cpu after
  have goesOn := (isr_transparent (fun cpu _ => acknowledged_returned 176 cpu 0x20#16 0x20#8)
    (readGate (createDescriptor 0x200000#64 8#16 0x8E#8).packed) 33
    (show (none : Option (BitVec 64)).isSome ↔ _ by decide) cpu).2.2.2
  have same : after = _ := goesOn
  rw [same]
  exact ⟨rfl, rfl, rfl, rfl⟩

end Processor

end Pocky
