import Mathlib.Algebra.Order.Ring.Int
import Mathlib.Data.List.Basic
import Mathlib.Logic.Function.Basic

/-! The physical frame allocator: one bit per frame, a counter of free frames, and a linear scan. -/

namespace Pocky

/-- Bytes in one page frame. -/
def pageSize : Nat := 4096

/-- Subtraction on the unsigned 64-bit words of the source. -/
def wordSub (a b : Nat) : Nat := (a + 2 ^ 64 - b) % 2 ^ 64

/--
The frame allocator's fields.

The bitmap is the word array the source indexes, read by word number.
-/
structure PhysicalMemoryManager where
  /-- One bit per frame, thirty-two frames to a word. -/
  bitmap : Nat → BitVec 32
  /-- How many frames the managed region holds. -/
  totalFrames : Nat
  /-- The source's running count of frames it believes free. -/
  freeFrames : Nat
  /-- The address of frame zero. -/
  memoryStart : Nat

namespace PhysicalMemoryManager

/-- The test the source makes before taking or returning a frame. -/
def bitSet (bitmap : Nat → BitVec 32) (frame : Nat) : Bool :=
  (bitmap (frame / 32) &&& (1#32 <<< (frame % 32))) != 0#32

/-- Setting one frame's bit inside its word. -/
def setBit (bitmap : Nat → BitVec 32) (frame : Nat) : Nat → BitVec 32 :=
  Function.update bitmap (frame / 32) (bitmap (frame / 32) ||| (1#32 <<< (frame % 32)))

/-- Clearing one frame's bit inside its word. -/
def clearBit (bitmap : Nat → BitVec 32) (frame : Nat) : Nat → BitVec 32 :=
  Function.update bitmap (frame / 32) (bitmap (frame / 32) &&& ~~~(1#32 <<< (frame % 32)))

/--
One of the three reservation loops of the initializer.

The counter drops once per visited frame, whether or not its bit was already set.
-/
def reserveFrames (pmm : PhysicalMemoryManager) (first : Nat) : Nat → PhysicalMemoryManager
  | 0 => pmm
  | count + 1 =>
    let before := reserveFrames pmm first count
    { before with
      bitmap := setBit before.bitmap (first + count)
      freeFrames := wordSub before.freeFrames 1 }

/--
Set-up over a region of memory.

The first mebibyte, the heap's sixteen mebibytes at the end and five page-table frames are reserved.
-/
def initializeFrames (pmm : PhysicalMemoryManager) (memoryStart memorySize : Nat) :
    PhysicalMemoryManager :=
  let totalFrames := memorySize / pageSize
  let bitmapWords := (totalFrames + 31) / 32
  let cleared : PhysicalMemoryManager :=
    { bitmap := fun word => if word < bitmapWords then 0#32 else pmm.bitmap word
      totalFrames := totalFrames
      freeFrames := totalFrames
      memoryStart := memoryStart }
  let firstMbFrames := 0x100000 / pageSize
  let heapStartFrame := wordSub memorySize (16 * 1024 * 1024) / pageSize
  let heapFrames := 16 * 1024 * 1024 / pageSize
  let pageTableFrames := 5
  let low := cleared.reserveFrames 0 firstMbFrames
  let withHeap := low.reserveFrames heapStartFrame heapFrames
  withHeap.reserveFrames firstMbFrames pageTableFrames

/-- The scan for the first clear bit, with the frames still to be looked at as its measure. -/
def firstClear (bitmap : Nat → BitVec 32) : Nat → Nat → Option Nat
  | 0, _ => none
  | remaining + 1, frame =>
    if bitSet bitmap frame then firstClear bitmap remaining (frame + 1) else some frame

/-- Taking a frame: the answer is its address, or zero for the null pointer. -/
def allocateFrame (pmm : PhysicalMemoryManager) : Nat × PhysicalMemoryManager :=
  if pmm.freeFrames = 0 then (0, pmm)
  else match firstClear pmm.bitmap pmm.totalFrames 0 with
    | some frame =>
      ((pmm.memoryStart + pageSize * frame) % 2 ^ 64,
        { pmm with
          bitmap := setBit pmm.bitmap frame
          freeFrames := wordSub pmm.freeFrames 1 })
    | none => (0, pmm)

/-- Returning a frame: foreign addresses and frames already free are ignored. -/
def freeFrame (pmm : PhysicalMemoryManager) (addr : Nat) : PhysicalMemoryManager :=
  if addr < pmm.memoryStart then pmm
  else
    let frame := (addr - pmm.memoryStart) / pageSize
    if pmm.totalFrames ≤ frame then pmm
    else if bitSet pmm.bitmap frame then
      { pmm with
        bitmap := clearBit pmm.bitmap frame
        freeFrames := (pmm.freeFrames + 1) % 2 ^ 64 }
    else pmm

/-- The counter as callers read it. -/
def getFreeFrames (pmm : PhysicalMemoryManager) : Nat := pmm.freeFrames

end PhysicalMemoryManager

/-- Where the managed region starts when the kernel boots. -/
def kernelMemoryStart : Nat := 0x100000

/-- How many bytes the kernel hands to the frame allocator. -/
def kernelMemorySize : Nat := 64 * 1024 * 1024

/-- How many of those bytes, at the end, become the heap. -/
def kernelHeapSize : Nat := 16 * 1024 * 1024

/-- Where the kernel places its heap: the end of the managed region. -/
def kernelHeapStart : Nat := kernelMemoryStart + kernelMemorySize - kernelHeapSize

end Pocky
