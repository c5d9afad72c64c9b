import Pocky.Lib.Run
import Pocky.Memory.PhysicalMemory

/-! The kernel heap: a linked list of headers in one region, first fit, splitting and merging. -/

namespace Pocky

/-- The header in front of every payload; a zero link is the null pointer. -/
structure HeapBlock where
  /-- Bytes of payload behind the header. -/
  size : Nat
  /-- Whether the payload may be handed out. -/
  free : Bool
  /-- The address of the following header. -/
  next : Nat
  deriving Repr, DecidableEq

/-- Bytes one header occupies: a word, a padded flag and a pointer. -/
def headerSize : Nat := 24

/--
The heap allocator's fields, with the headers it keeps in memory.

Clients write only inside their payloads, so only the allocator changes a header.
-/
structure HeapAllocator where
  /-- The header stored at each address. -/
  memory : Nat → HeapBlock
  /-- The first header, at the start of the region. -/
  firstBlock : Nat
  /-- Bytes in the whole region. -/
  totalSize : Nat
  /-- Bytes of headers and of payloads handed out, as the source counts them. -/
  usedMemory : Nat

namespace HeapAllocator

/-- One free block over the whole region. -/
def initializeHeap (heap : HeapAllocator) (heapStart heapSize : Nat) : HeapAllocator :=
  { memory := Function.update heap.memory heapStart
      { size := wordSub heapSize headerSize, free := true, next := 0 }
    firstBlock := heapStart
    totalSize := heapSize
    usedMemory := headerSize }

/--
The first-fit walk along the links; the answer is a header address or zero.

A walk with more steps than the region has bytes has met a header twice and never ends.
-/
def findFreeBlock (heap : HeapAllocator) (size : Nat) : Nat → Nat → Run Nat
  | 0, _ => .error .diverges
  | steps + 1, current =>
    if current = 0 then .ok 0
    else if (heap.memory current).free ∧ size ≤ (heap.memory current).size then .ok current
    else heap.findFreeBlock size steps (heap.memory current).next

/-- Cutting the tail off a block that is at least a header and thirty-two bytes too large. -/
def splitBlock (heap : HeapAllocator) (block size : Nat) : HeapAllocator :=
  let header := heap.memory block
  if (size + headerSize + 32) % 2 ^ 64 ≤ header.size then
    let newBlock := (block + headerSize + size) % 2 ^ 64
    let withNew := Function.update heap.memory newBlock
      { size := wordSub (wordSub header.size size) headerSize, free := true, next := header.next }
    { heap with
      memory := Function.update withNew block { header with size := size, next := newBlock }
      usedMemory := (heap.usedMemory + headerSize) % 2 ^ 64 }
  else heap

/-- Returning the frames at a block's own address, one page at a time. -/
def returnFrames (block : Nat) (pmm : PhysicalMemoryManager) : Nat → PhysicalMemoryManager
  | 0 => pmm
  | count + 1 => (returnFrames block pmm count).freeFrame ((block + pageSize * count) % 2 ^ 64)

/--
Taking one frame per page of the payload.

When the frames run out, the frames at the block's own address are returned instead.
-/
def takeFrames (block : Nat) : Nat → Nat → PhysicalMemoryManager → Bool × PhysicalMemoryManager
  | 0, _, pmm => (true, pmm)
  | remaining + 1, taken, pmm =>
    let (frame, pmm) := pmm.allocateFrame
    if frame = 0 then (false, returnFrames block pmm taken)
    else takeFrames block remaining (taken + 1) pmm

/-- Rounding a request up to a multiple of sixteen, on 64-bit words. -/
def roundUp (size : Nat) : Nat := (size + 15) % 2 ^ 64 / 16 * 16

/-- How many pages a payload of this size is charged for. -/
def numPages (size : Nat) : Nat := (size + pageSize - 1) % 2 ^ 64 / pageSize

/-- Handing out a payload: its address, or zero when nothing fits or the frames run out. -/
def allocate (heap : HeapAllocator) (pmm : PhysicalMemoryManager) (size : Nat) :
    Run (Nat × HeapAllocator × PhysicalMemoryManager) :=
  if size = 0 then .ok (0, heap, pmm)
  else do
    let size := roundUp size
    let block ← heap.findFreeBlock size (heap.totalSize + 1) heap.firstBlock
    if block = 0 then return (0, heap, pmm)
    let heap := heap.splitBlock block size
    let heap := { heap with
      memory := Function.update heap.memory block { heap.memory block with free := false }
      usedMemory := (heap.usedMemory + size) % 2 ^ 64 }
    match takeFrames block (numPages size) 0 pmm with
    | (true, pmm) => return ((block + headerSize) % 2 ^ 64, heap, pmm)
    | (false, pmm) => return (0, heap, pmm)

/-- The merge loop: a free block swallows its free neighbour, any other block is stepped over. -/
def mergeFreeBlocks (heap : HeapAllocator) : Nat → Nat → Run HeapAllocator
  | 0, _ => .error .diverges
  | steps + 1, current =>
    if current = 0 ∨ (heap.memory current).next = 0 then .ok heap
    else
      let block := heap.memory current
      let next := heap.memory block.next
      if block.free ∧ next.free then
        mergeFreeBlocks { heap with
          memory := Function.update heap.memory current
            { block with size := (block.size + (headerSize + next.size)) % 2 ^ 64, next := next.next }
          usedMemory := wordSub heap.usedMemory headerSize } steps current
      else heap.mergeFreeBlocks steps block.next

/-- Taking a payload back: frames first, then the flag, then the merge over the whole list. -/
def free (heap : HeapAllocator) (pmm : PhysicalMemoryManager) (ptr : Nat) :
    Run (HeapAllocator × PhysicalMemoryManager) :=
  if ptr = 0 then .ok (heap, pmm)
  else do
    let block := wordSub ptr headerSize
    let header := heap.memory block
    let pmm := returnFrames block pmm (numPages header.size)
    let heap := { heap with
      memory := Function.update heap.memory block { header with free := true }
      usedMemory := wordSub heap.usedMemory header.size }
    let heap ← heap.mergeFreeBlocks (heap.totalSize + 1) heap.firstBlock
    return (heap, pmm)

/-- Bytes not counted as used. -/
def getFreeMemory (heap : HeapAllocator) : Nat := wordSub heap.totalSize heap.usedMemory

/-- Bytes counted as used. -/
def getUsedMemory (heap : HeapAllocator) : Nat := heap.usedMemory

end HeapAllocator

end Pocky
