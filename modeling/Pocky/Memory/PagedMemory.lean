import Pocky.Lib.Run
import Pocky.Memory.VirtualMemory

/-! The frame allocator and the page tables together, as the rest of the kernel uses them. -/

namespace Pocky

/-- Taking several frames in a row. -/
def PhysicalMemoryManager.allocateFrames (pmm : PhysicalMemoryManager) :
    Nat → List Nat × PhysicalMemoryManager
  | 0 => ([], pmm)
  | count + 1 =>
    let (frame, pmm) := pmm.allocateFrame
    let (frames, pmm) := pmm.allocateFrames count
    (frame :: frames, pmm)

/-- The frame allocator, the page tables, and every answer the allocator has given. -/
structure PagedMemory where
  /-- The frame allocator. -/
  pmm : PhysicalMemoryManager
  /-- The page tables; between calls no answer of the allocator is waiting for them. -/
  vmm : VirtualMemoryManager
  /-- What the allocator has answered so far, oldest first. -/
  answers : List Nat

namespace PagedMemory

/-- Taking a frame. -/
def allocateFrame (memory : PagedMemory) : Nat × PagedMemory :=
  let (frame, pmm) := memory.pmm.allocateFrame
  (frame, { memory with pmm := pmm, answers := memory.answers ++ [frame] })

/-- Returning a frame. -/
def freeFrame (memory : PagedMemory) (addr : Nat) : PagedMemory :=
  { memory with pmm := memory.pmm.freeFrame addr }

/-- A call on the page tables that asks the allocator for at most a number of frames. -/
def takingFrames (memory : PagedMemory) (limit : Nat)
    (call : VirtualMemoryManager → VirtualMemoryManager) : PagedMemory :=
  -- The call sees the answers to come, and those it has not looked at were never given.
  let vmm := call { memory.vmm with frames := (memory.pmm.allocateFrames limit).1 }
  let (frames, pmm) := memory.pmm.allocateFrames (limit - vmm.frames.length)
  { pmm := pmm
    vmm := { vmm with frames := [] }
    answers := memory.answers ++ frames }

/-- Mapping a page, which needs up to three new tables. -/
def mapPage (memory : PagedMemory) (virtualAddr physicalAddr : BitVec 64) (writable : Bool) :
    PagedMemory :=
  memory.takingFrames 3 fun vmm => vmm.mapPage virtualAddr physicalAddr writable

/-- Unmapping a page. -/
def unmapPage (memory : PagedMemory) (virtualAddr : BitVec 64) : PagedMemory :=
  { memory with vmm := memory.vmm.unmapPage virtualAddr }

/-- The physical address a virtual one is translated to, zero for none. -/
def getPhysicalAddress (memory : PagedMemory) (virtualAddr : BitVec 64) : BitVec 64 :=
  memory.vmm.getPhysicalAddress virtualAddr

/-- Returning the frame behind a page and unmapping it, if it is mapped. -/
def releasePage (memory : PagedMemory) (virtualAddr : BitVec 64) : PagedMemory :=
  let physicalAddr := memory.getPhysicalAddress virtualAddr
  if physicalAddr = 0#64 then memory
  else (memory.freeFrame physicalAddr.toNat).unmapPage virtualAddr

/-- The address of a page behind a base address. -/
def pageAt (base : BitVec 64) (index : Nat) : BitVec 64 := base + BitVec.ofNat 64 (index * 4096)

/-- Releasing a number of pages from a base address on, in order. -/
def releasePages (memory : PagedMemory) (base : BitVec 64) : Nat → PagedMemory
  | 0 => memory
  | count + 1 => (memory.releasePages base count).releasePage (pageAt base count)

/-- Releasing the pages from an address up to another, with the rounds the loop may take. -/
def releaseRange (memory : PagedMemory) (stop : BitVec 64) : Nat → BitVec 64 → Run PagedMemory
  | 0, _ => .error .diverges
  | fuel + 1, addr =>
    if addr < stop then (memory.releasePage addr).releaseRange stop fuel (addr + 4096#64)
    else .ok memory

/--
Backing pages from a base address on with new frames, in order.

The answer says how many pages were reached before the allocator gave null, if it did.
-/
def backPages (memory : PagedMemory) (base : BitVec 64) : Nat → Option Nat × PagedMemory
  | 0 => (none, memory)
  | count + 1 =>
    match memory.backPages base count with
    | (some reached, memory) => (some reached, memory)
    | (none, memory) =>
      let (frame, memory) := memory.allocateFrame
      if frame = 0 then (some count, memory)
      else (none, memory.mapPage (pageAt base count) (BitVec.ofNat 64 frame) true)

/-- Zeroing pages from a base address on, in order; the answer is false at one that is not mapped. -/
def zeroPages (memory : PagedMemory) (base : BitVec 64) : Nat → Bool × PagedMemory
  | 0 => (true, memory)
  | count + 1 =>
    match memory.zeroPages base count with
    | (false, memory) => (false, memory)
    | (true, memory) =>
      let physicalAddr := memory.getPhysicalAddress (pageAt base count)
      if physicalAddr = 0#64 then (false, memory)
      else (true, { memory with vmm := memory.vmm.clearTable physicalAddr.toNat })

end PagedMemory

/-- The memory after the frame allocator and then the page tables have been set up. -/
def bootMemory (pmm : PhysicalMemoryManager) (memory : Nat → PageTableEntry) : PagedMemory :=
  -- Four tables are built, and up to three more would be for the screen.
  PagedMemory.takingFrames
    ⟨pmm.initializeFrames kernelMemoryStart kernelMemorySize, ⟨memory, 0, []⟩, []⟩ 7
    VirtualMemoryManager.initializeTables

end Pocky
