import Mathlib.Logic.Function.Basic
import Pocky.Lib.ByteMemory

/-! The context switch, as instructions of a small part of the processor. -/

namespace Pocky

/-- The general registers, in the order in which a process keeps them. -/
inductive Register where
  /-- The accumulator. -/
  | rax
  /-- The base register. -/
  | rbx
  /-- The count register. -/
  | rcx
  /-- The data register. -/
  | rdx
  /-- The source index, and the second argument of a call. -/
  | rsi
  /-- The destination index, and the first argument of a call. -/
  | rdi
  /-- The frame pointer. -/
  | rbp
  /-- The stack pointer. -/
  | rsp
  /-- The first numbered register. -/
  | r8
  /-- The second numbered register. -/
  | r9
  /-- The third numbered register. -/
  | r10
  /-- The fourth numbered register. -/
  | r11
  /-- The fifth numbered register. -/
  | r12
  /-- The sixth numbered register. -/
  | r13
  /-- The seventh numbered register. -/
  | r14
  /-- The eighth numbered register. -/
  | r15
  deriving Repr, DecidableEq

/-- The segment registers. -/
inductive SegmentRegister where
  /-- Code. -/
  | cs
  /-- Data. -/
  | ds
  /-- Extra. -/
  | es
  /-- Further data. -/
  | fs
  /-- Further data. -/
  | gs
  /-- Stack. -/
  | ss
  deriving Repr, DecidableEq

/-- The state of the processor and the memory it sees. -/
structure Machine where
  /-- The general registers. -/
  registers : Register → BitVec 64
  /-- The segment selectors. -/
  segments : SegmentRegister → BitVec 16
  /-- The flags. -/
  rflags : BitVec 64
  /-- Where execution goes on. -/
  rip : BitVec 64
  /-- The memory. -/
  memory : ByteMemory

/-- The instructions that the context switch uses, after its first test. -/
inductive Instruction where
  /-- Storing a register at an offset from another. -/
  | store (base : Register) (offset : Nat) (source : Register)
  /-- Loading a register from an offset from another. -/
  | load (target base : Register) (offset : Nat)
  /-- Storing the two bytes of a selector. -/
  | storeSegment (base : Register) (offset : Nat) (source : SegmentRegister)
  /-- Loading the lowest two bytes of the accumulator. -/
  | loadAx (base : Register) (offset : Nat)
  /-- Loading a selector from the accumulator. -/
  | setSegment (target : SegmentRegister)
  /-- Pushing a register. -/
  | push (source : Register)
  /-- Popping a register. -/
  | pop (target : Register)
  /-- Pushing the flags. -/
  | pushfq
  /-- Popping the flags. -/
  | popfq
  /-- Returning to the address on the stack. -/
  | ret
  deriving Repr, DecidableEq

namespace Machine

/-- The address at an offset from a register. -/
def address (state : Machine) (base : Register) (offset : Nat) : BitVec 64 :=
  state.registers base + BitVec.ofNat 64 offset

/-- Changing one register. -/
def set (state : Machine) (target : Register) (value : BitVec 64) : Machine :=
  { state with registers := Function.update state.registers target value }

/-- Putting a word on the stack. -/
def pushWord (state : Machine) (value : BitVec 64) : Machine :=
  let state := state.set .rsp (state.registers .rsp - 8#64)
  { state with memory := state.memory.write 8 (state.registers .rsp) value }

/-- The word on top of the stack. -/
def top (state : Machine) : BitVec 64 := state.memory.readWord (state.registers .rsp)

/-- Taking the word on top of the stack away. -/
def drop (state : Machine) : Machine := state.set .rsp (state.registers .rsp + 8#64)

/-- What an instruction does; faults of segment loads are left out. -/
def step (state : Machine) : Instruction → Machine
  | .store base offset source =>
    { state with
      memory := state.memory.write 8 (state.address base offset) (state.registers source) }
  | .load target base offset =>
    state.set target (state.memory.readWord (state.address base offset))
  | .storeSegment base offset source =>
    { state with
      memory := state.memory.write 2 (state.address base offset) ((state.segments source).setWidth 64) }
  | .loadAx base offset =>
    let word := state.memory.readWord (state.address base offset)
    -- The upper six bytes of the accumulator stay.
    state.set .rax ((state.registers .rax &&& ~~~0xFFFF#64) ||| (word &&& 0xFFFF#64))
  | .setSegment target =>
    { state with segments :=
        Function.update state.segments target ((state.registers .rax).setWidth 16) }
  | .push source => state.pushWord (state.registers source)
  | .pop target => state.drop.set target state.top
  | .pushfq => state.pushWord state.rflags
  | .popfq => { state.drop with rflags := state.top }
  | .ret => { state.drop with rip := state.top }

/-- A block of instructions without jumps. -/
def run (state : Machine) (block : List Instruction) : Machine := block.foldl step state

end Machine

/-- The part of the switch that saves the registers of the old process. -/
def saveOld : List Instruction := [
  .store .rdi 0x00 .rax,
  .store .rdi 0x08 .rbx,
  .store .rdi 0x10 .rcx,
  .store .rdi 0x18 .rdx,
  .store .rdi 0x20 .rsi,
  .store .rdi 0x28 .rdi,
  .store .rdi 0x30 .rbp,
  .store .rdi 0x38 .rsp,
  .store .rdi 0x40 .r8,
  .store .rdi 0x48 .r9,
  .store .rdi 0x50 .r10,
  .store .rdi 0x58 .r11,
  .store .rdi 0x60 .r12,
  .store .rdi 0x68 .r13,
  .store .rdi 0x70 .r14,
  .store .rdi 0x78 .r15,
  .load .rax .rsp 0x00,
  .store .rdi 0x80 .rax,
  .pushfq,
  .pop .rax,
  .store .rdi 0x88 .rax,
  .storeSegment .rdi 0x90 .cs,
  .storeSegment .rdi 0x98 .ss]

/-- The part of the switch that loads the registers of the new process and goes there. -/
def loadNew : List Instruction := [
  .load .rax .rsi 0x00,
  .load .rbx .rsi 0x08,
  .load .rcx .rsi 0x10,
  .load .rdx .rsi 0x18,
  .load .rdi .rsi 0x28,
  .load .rbp .rsi 0x30,
  .load .r8 .rsi 0x40,
  .load .r9 .rsi 0x48,
  .load .r10 .rsi 0x50,
  .load .r11 .rsi 0x58,
  .load .r12 .rsi 0x60,
  .load .r13 .rsi 0x68,
  .load .r14 .rsi 0x70,
  .load .r15 .rsi 0x78,
  .loadAx .rsi 0x90,
  .setSegment .ds,
  .setSegment .es,
  .setSegment .fs,
  .setSegment .gs,
  .loadAx .rsi 0x98,
  .setSegment .ss,
  .load .rax .rsi 0x88,
  .push .rax,
  .popfq,
  .load .rsp .rsi 0x38,
  .load .rax .rsi 0x80,
  .push .rax,
  .load .rsi .rsi 0x20,
  .ret]

namespace Machine

/-- The flags after a register has been tested against itself; the adjust flag stays. -/
def testFlags (rflags value : BitVec 64) : BitVec 64 :=
  -- Carry and overflow are cleared; parity, zero and sign follow the value.
  let even := (List.range 8).foldl (fun even bit => even != value.getLsbD bit) true
  (rflags &&& ~~~0x8C5#64) ||| (if even then 0x4#64 else 0#64) |||
    (if value = 0#64 then 0x40#64 else 0#64) ||| (if value.msb then 0x80#64 else 0#64)

/-- The whole switch; without an old process nothing is saved. -/
def switchContext (state : Machine) : Machine :=
  let old := state.registers .rdi
  let state := { state with rflags := testFlags state.rflags old }
  if old = 0#64 then state.run loadNew else (state.run saveOld).run loadNew

end Machine

/-- The fields in which a process keeps its registers, in their order. -/
inductive RegisterField where
  /-- A general register. -/
  | general (register : Register)
  /-- The address at which it goes on. -/
  | rip
  /-- The flags. -/
  | rflags
  /-- The code selector. -/
  | cs
  /-- The stack selector. -/
  | ss
  deriving Repr, DecidableEq

/-- The layout of the record, eight bytes to a field. -/
def registerState : List RegisterField := [
  .general .rax, .general .rbx, .general .rcx, .general .rdx, .general .rsi, .general .rdi,
  .general .rbp, .general .rsp, .general .r8, .general .r9, .general .r10, .general .r11,
  .general .r12, .general .r13, .general .r14, .general .r15, .rip, .rflags, .cs, .ss]

/-- The bytes of the record. -/
def registerStateSize : Nat := 8 * registerState.length

/-- Where a field lies in the record. -/
def RegisterField.offset (field : RegisterField) : Nat := 8 * registerState.idxOf field

/-- The registers a call must not change. -/
def calleeSaved : List Register := [.rbx, .rbp, .r12, .r13, .r14, .r15]

end Pocky
