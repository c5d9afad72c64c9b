import Pocky.Core.Context
import Pocky.Core.PageBytes

/-! Forking the running process: a new process, a frame for every page, and the copied fields. -/

namespace Pocky

namespace PagedMemory

/-- Copying bytes from one address to another, in order; the processor stops at a bad page. -/
def copyBytes (memory : PagedMemory) (dest source : BitVec 64) : Nat → Option PagedMemory
  | 0 => some memory
  | count + 1 => do
    let memory ← memory.copyBytes dest source count
    let byte ← memory.loadByte (source + BitVec.ofNat 64 count)
    memory.storeByte (dest + BitVec.ofNat 64 count) byte

/-- Copying a page of the parent; the answer is false when the allocator gives null. -/
def copyPage (memory : PagedMemory) (virtualAddr : BitVec 64) (writable : Bool) :
    Option (Bool × PagedMemory) :=
  let (frame, memory) := memory.allocateFrame
  if frame = 0 then some (false, memory)
  else do
    let memory := memory.mapPage virtualAddr (BitVec.ofNat 64 frame) writable
    -- Both physical addresses are used as if they were virtual ones.
    let memory ← memory.copyBytes (BitVec.ofNat 64 frame) (memory.getPhysicalAddress virtualAddr)
      pageSize
    return (true, memory)

/-- Copying the pages from an address up to another, with the rounds the loop may take. -/
def copyRange (memory : PagedMemory) (writable : Bool) (stop : BitVec 64) :
    Nat → BitVec 64 → Run (Option (Bool × PagedMemory))
  | 0, _ => .error .diverges
  | fuel + 1, addr =>
    if addr < stop then
      match memory.copyPage addr writable with
      | some (true, memory) => memory.copyRange writable stop fuel (addr + 4096#64)
      | ended => .ok ended
    else .ok (some (true, memory))

/--
Copying regions one after the other; each is recorded for the child once it is complete.

The flag is that of the region at the head of a list.
-/
def copyRegions (memory : PagedMemory) (writable : List MemoryRegion → Bool)
    (copied : List MemoryRegion) :
    List MemoryRegion → Run (Option (Bool × PagedMemory × List MemoryRegion))
  | [] => .ok (some (true, memory, copied))
  | region :: regions => do
    -- Addresses repeat after `2 ^ 52` pages, so a loop that needs more rounds never ends.
    match ← memory.copyRange (writable (region :: regions)) (region.start + region.size)
        (2 ^ 52 + 1) region.start with
    | none => return none
    | some (false, memory) => return some (false, memory, copied)
    | some (true, memory) => memory.copyRegions writable (region :: copied) regions

end PagedMemory

/-- The fields of a process that a fork copies, beside its regions. -/
structure ProgramImage where
  /-- Where the program starts. -/
  entryPoint : BitVec 64
  /-- The end of its data. -/
  brk : BitVec 64
  /-- The same, as it was when the program was loaded. -/
  programBreak : BitVec 64
  /-- Its registers. -/
  registers : RegisterField → BitVec 64
  /-- Its arguments, if it has been given any. -/
  argv : Option (List Name)
  /-- Its environment, if it has been given one. -/
  envp : Option (List Name)

/-- An image with another value in the register of the answer. -/
def ProgramImage.answering (image : ProgramImage) (value : BitVec 64) : ProgramImage :=
  { image with registers := Function.update image.registers (.general .rax) value }

/-- What came of a fork. -/
structure Fork where
  /-- The answer of the call. -/
  answer : Int
  /-- The kernel afterwards. -/
  kernel : Kernel
  /-- The image of the parent afterwards. -/
  parent : ProgramImage
  /-- The image of the child, if there is one. -/
  child : Option ProgramImage

namespace Kernel

/-- A fork that fails. -/
def forkFails (kernel : Kernel) (parent : ProgramImage) : Fork := ⟨-1, kernel, parent, none⟩

/--
Forking the running process, with the child allocated at an address.

There is no answer where the processor stops for good.
-/
def sysFork (kernel : Kernel) (writable : List MemoryRegion → Bool) (parent : ProgramImage)
    (address cpuId ticks : Nat) : Run (Option Fork) :=
  let process := kernel.currentProcess
  if process = 0 then .ok (some (kernel.forkFails parent))
  else do
    let (pid, kernel) ← kernel.createProcess address
    match kernel.getProcess pid with
    | none => return some (kernel.forkFails parent)
    | some child =>
      match ← kernel.memory.copyRegions writable (kernel.records child).memoryRegions
          (kernel.records process).memoryRegions with
      | none => return none
      | some (false, memory, copied) =>
        let kernel ← (kernel.setRegions child memory copied).terminateProcess pid cpuId ticks
        return some (kernel.forkFails parent)
      | some (true, memory, copied) =>
        return some ⟨pid, kernel.setRegions child memory copied,
          parent.answering (BitVec.ofInt 64 pid), some (parent.answering 0#64)⟩

end Kernel

end Pocky
