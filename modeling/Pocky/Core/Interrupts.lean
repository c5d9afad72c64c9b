import Pocky.Core.Context

/-! Interrupts: the descriptor table, what the processor puts on the stack, and the stubs. -/

namespace Pocky

/-- A gate of the descriptor table. -/
structure IDTEntry where
  /-- The lowest sixteen bits of the address of the stub. -/
  offsetLow : BitVec 16
  /-- The code selector. -/
  selector : BitVec 16
  /-- Which of the separate stacks is used. -/
  ist : BitVec 8
  /-- Presence, privilege and kind. -/
  typeAttr : BitVec 8
  /-- The middle of the address. -/
  offsetMiddle : BitVec 16
  /-- The upper half of the address. -/
  offsetHigh : BitVec 32
  /-- Reserved. -/
  zero : BitVec 32
  deriving Repr, DecidableEq

namespace IDTEntry

/-- A gate of the table before anything has been set. -/
def empty : IDTEntry := ⟨0, 0, 0, 0, 0, 0, 0⟩

/-- The packed record as one number, its first field lowest. -/
def packed (entry : IDTEntry) : BitVec 128 :=
  entry.zero ++ entry.offsetHigh ++ entry.offsetMiddle ++ entry.typeAttr ++ entry.ist ++
    entry.selector ++ entry.offsetLow

end IDTEntry

/-- The gate is there. -/
def idtPresent : BitVec 8 := 0x80#8

/-- Only the kernel may use the gate by itself. -/
def idtDpl0 : BitVec 8 := 0x00#8

/-- The gate closes off further interrupts. -/
def idtInterruptGate : BitVec 8 := 0x0E#8

/-- Filling a gate. -/
def createDescriptor (handler : BitVec 64) (selector : BitVec 16) (flags : BitVec 8) : IDTEntry where
  offsetLow := (handler &&& 0xFFFF#64).setWidth 16
  offsetMiddle := ((handler >>> 16) &&& 0xFFFF#64).setWidth 16
  offsetHigh := ((handler >>> 32) &&& 0xFFFFFFFF#64).setWidth 32
  selector := selector
  ist := 0
  typeAttr := flags
  zero := 0

/-- The table, one gate to a vector. -/
abbrev IDT := BitVec 8 → IDTEntry

namespace IDT

/-- Setting the gate of a vector, unless there is no handler. -/
def setInterruptHandler (idt : IDT) (vector : BitVec 8) (handler : BitVec 64) (flags : BitVec 8) :
    IDT :=
  if handler = 0#64 then idt
  else Function.update idt vector (createDescriptor handler 0x08#16 flags)

/-- The flags with which every gate is set. -/
def gateFlags : BitVec 8 := idtPresent ||| idtDpl0 ||| idtInterruptGate

/-- Setting up the table; `isr` tells where each stub lies. -/
def initIdt (isr : Nat → BitVec 64) : IDT :=
  let idt : IDT := fun _ => IDTEntry.empty
  -- First the exceptions, then the lines of the two interrupt controllers.
  let idt := (List.range 32).foldl (fun idt vector =>
    idt.setInterruptHandler (BitVec.ofNat 8 vector) (isr vector) gateFlags) idt
  (List.range 16).foldl (fun idt irq =>
    idt.setInterruptHandler (BitVec.ofNat 8 (32 + irq)) (isr (32 + irq)) gateFlags) idt

end IDT

/-- What the processor reads out of a gate. -/
structure Gate where
  /-- Where execution goes on. -/
  offset : BitVec 64
  /-- The code selector. -/
  selector : BitVec 16
  /-- Which of the separate stacks is used. -/
  ist : BitVec 3
  /-- The kind of gate. -/
  kind : BitVec 4
  /-- The bit that is zero for gates. -/
  system : Bool
  /-- The privilege that may use the gate by itself. -/
  dpl : BitVec 2
  /-- The gate is there. -/
  present : Bool
  deriving Repr, DecidableEq

/-- How the processor reads the sixteen bytes of a gate. -/
def readGate (bytes : BitVec 128) : Gate where
  offset := bytes.extractLsb' 64 32 ++ bytes.extractLsb' 48 16 ++ bytes.extractLsb' 0 16
  selector := bytes.extractLsb' 16 16
  ist := bytes.extractLsb' 32 3
  kind := bytes.extractLsb' 40 4
  system := bytes.getLsbD 44
  dpl := bytes.extractLsb' 45 2
  present := bytes.getLsbD 47

namespace Machine

/-- The flags after an addition. -/
def addFlags (rflags left right : BitVec 64) : BitVec 64 :=
  let sum := left + right
  let even := (List.range 8).foldl (fun even bit => even != sum.getLsbD bit) true
  let flag (set : Bool) (mask : BitVec 64) := if set then mask else 0#64
  (rflags &&& ~~~0x8D5#64) ||| flag (sum < left) 0x1#64 ||| flag even 0x4#64 |||
    flag ((left &&& 0xF#64) + (right &&& 0xF#64) > 0xF#64) 0x10#64 ||| flag (sum = 0#64) 0x40#64 |||
    flag sum.msb 0x80#64 ||| flag (left.msb == right.msb && sum.msb != left.msb) 0x800#64

/-- Taking an interrupt in the kernel, with the code that some exceptions come with. -/
def enter (state : Machine) (gate : Gate) (error : Option (BitVec 64)) : Machine :=
  let rsp := state.registers .rsp
  let saved := ((state.set .rsp (rsp &&& ~~~0xF#64)).pushWord ((state.segments .ss).setWidth 64)
    |>.pushWord rsp |>.pushWord state.rflags |>.pushWord ((state.segments .cs).setWidth 64)
    |>.pushWord state.rip)
  let saved := match error with
    | none => saved
    | some code => saved.pushWord code
  -- Trap, nested task, resume and virtual mode are cleared, and by an interrupt gate interrupts too.
  let cleared := if gate.kind = 0xE#4 then 0x34300#64 else 0x34100#64
  { saved with
    rip := gate.offset
    segments := Function.update saved.segments .cs gate.selector
    rflags := state.rflags &&& ~~~cleared }

/-- Going back to where an interrupt was taken. -/
def iretq (state : Machine) : Machine :=
  let rsp := state.registers .rsp
  let word (index : Nat) := state.memory.readWord (rsp + BitVec.ofNat 64 (8 * index))
  { state.set .rsp (word 3) with
    rip := word 0
    segments := Function.update (Function.update state.segments .cs ((word 1).setWidth 16))
      .ss ((word 4).setWidth 16)
    rflags := word 2 }

end Machine

/-- The processor with what it has sent to its ports, the latest first. -/
structure Processor where
  /-- Its registers and memory. -/
  machine : Machine
  /-- The ports with the bytes that went there. -/
  sent : List (BitVec 16 × BitVec 8)

/-- The instructions of the stubs. -/
inductive StubInstruction where
  /-- Pushing a number. -/
  | pushNumber (value : Nat)
  /-- Pushing a register. -/
  | push (source : Register)
  /-- Popping a register. -/
  | pop (target : Register)
  /-- Copying the stack pointer. -/
  | copyRsp (target : Register)
  /-- Calling the handler. -/
  | call
  /-- Raising the stack pointer. -/
  | addRsp (count : Nat)
  /-- Loading the lowest byte of the accumulator. -/
  | loadAl (value : BitVec 8)
  /-- Sending the lowest byte of the accumulator to a port. -/
  | outAl (port : BitVec 16)
  /-- Returning from the interrupt. -/
  | iretq
  deriving Repr, DecidableEq

namespace Processor

/-- Changing the machine only. -/
def on (cpu : Processor) (change : Machine → Machine) : Processor :=
  { cpu with machine := change cpu.machine }

/-- What an instruction of a stub does; `handler` is the function it calls, until it has returned. -/
def step (handler : Processor → Processor) (cpu : Processor) : StubInstruction → Processor
  | .pushNumber value => cpu.on (·.pushWord (BitVec.ofNat 64 value))
  | .push source => cpu.on (·.step (.push source))
  | .pop target => cpu.on (·.step (.pop target))
  | .copyRsp target => cpu.on fun state => state.set target (state.registers .rsp)
  | .call => handler cpu
  | .addRsp count => cpu.on fun state =>
    { state.set .rsp (state.registers .rsp + BitVec.ofNat 64 count) with
      rflags := Machine.addFlags state.rflags (state.registers .rsp) (BitVec.ofNat 64 count) }
  | .loadAl value => cpu.on fun state =>
    state.set .rax ((state.registers .rax &&& ~~~0xFF#64) ||| value.setWidth 64)
  | .outAl port => { cpu with sent := (port, (cpu.machine.registers .rax).setWidth 8) :: cpu.sent }
  | .iretq => cpu.on Machine.iretq

/-- A stub runs from its first instruction to its last. -/
def run (handler : Processor → Processor) (cpu : Processor) (stub : List StubInstruction) :
    Processor := stub.foldl (step handler) cpu

end Processor

/-- The common end of the numbered stubs. -/
def isrCommon : List StubInstruction := [
  .push .rax, .push .rbx, .push .rcx, .push .rdx, .push .rsi, .push .rdi, .push .rbp, .push .r8,
  .push .r9, .push .r10, .push .r11, .push .r12, .push .r13, .push .r14, .push .r15,
  .copyRsp .rdi,
  .call,
  .pop .r15, .pop .r14, .pop .r13, .pop .r12, .pop .r11, .pop .r10, .pop .r9, .pop .r8,
  .pop .rbp, .pop .rdi, .pop .rsi, .pop .rdx, .pop .rcx, .pop .rbx, .pop .rax,
  .addRsp 16,
  .iretq]

/-- A stub of a vector without a code; the jump to the common end is left out. -/
def isrNoErrCode (vector : Nat) : List StubInstruction :=
  [.pushNumber 0, .pushNumber vector] ++ isrCommon

/-- A stub of a vector with a code. -/
def isrErrCode (vector : Nat) : List StubInstruction := [.pushNumber vector] ++ isrCommon

/-- The vectors for which a code is expected. -/
def isrErrCodes : List Nat := [8, 10, 11, 12, 13, 14, 17, 21, 30]

/-- The stub of a vector, for the forty-eight there are. -/
def isr (vector : Nat) : List StubInstruction :=
  if vector ∈ isrErrCodes then isrErrCode vector else isrNoErrCode vector

/-- The stub of the timer. -/
def timerHandler : List StubInstruction := [
  .push .rax, .push .rcx, .push .rdx, .push .rsi, .push .rdi, .push .r8, .push .r9, .push .r10,
  .push .r11,
  .call,
  .loadAl 0x20#8,
  .outAl 0x20#16,
  .pop .r11, .pop .r10, .pop .r9, .pop .r8, .pop .rdi, .pop .rsi, .pop .rdx, .pop .rcx, .pop .rax,
  .iretq]

/-- What a handler finds on the stack. -/
structure InterruptFrame where
  /-- A general register. -/
  r15 : BitVec 64
  /-- A general register. -/
  r14 : BitVec 64
  /-- A general register. -/
  r13 : BitVec 64
  /-- A general register. -/
  r12 : BitVec 64
  /-- A general register. -/
  r11 : BitVec 64
  /-- A general register. -/
  r10 : BitVec 64
  /-- A general register. -/
  r9 : BitVec 64
  /-- A general register. -/
  r8 : BitVec 64
  /-- A general register. -/
  rbp : BitVec 64
  /-- A general register. -/
  rdi : BitVec 64
  /-- A general register. -/
  rsi : BitVec 64
  /-- A general register. -/
  rdx : BitVec 64
  /-- A general register. -/
  rcx : BitVec 64
  /-- A general register. -/
  rbx : BitVec 64
  /-- A general register. -/
  rax : BitVec 64
  /-- The vector. -/
  interruptNumber : BitVec 64
  /-- The code of the exception. -/
  errorCode : BitVec 64
  /-- Where the interrupt was taken. -/
  rip : BitVec 64
  /-- The code selector there. -/
  cs : BitVec 64
  /-- The flags there. -/
  rflags : BitVec 64
  /-- The stack pointer there. -/
  rsp : BitVec 64
  /-- The stack selector there. -/
  ss : BitVec 64
  deriving Repr, DecidableEq

/-- The frame at an address, each field read at its place. -/
def InterruptFrame.read (memory : ByteMemory) (frame : BitVec 64) : InterruptFrame :=
  let field (index : Nat) := memory.readWord (frame + BitVec.ofNat 64 (8 * index))
  ⟨field 0, field 1, field 2, field 3, field 4, field 5, field 6, field 7, field 8, field 9,
    field 10, field 11, field 12, field 13, field 14, field 15, field 16, field 17, field 18,
    field 19, field 20, field 21⟩

end Pocky
