import Pocky.Core.IpcManager
import Pocky.Memory.PagedMemory

/-! Shared memory: regions of pages that are backed when they are created and released at the end. -/

namespace Pocky

/-- The most bytes a region may have. -/
def maxSharedMemorySize : Nat := 4 * 1024 * 1024

/-- A region of memory that processes share. -/
structure SharedMemoryRegion where
  /-- Its identifier. -/
  id : Int
  /-- The process that created it. -/
  creator : Int
  /-- Its size in bytes, a whole number of pages. -/
  size : Nat
  /-- Where it starts. -/
  address : BitVec 64
  /-- The processes it is attached to. -/
  attachedProcesses : List Int
  deriving Repr, DecidableEq

/-- The region of an identifier, or not. -/
def SharedMemoryRegion.hasId (id : Int) (region : SharedMemoryRegion) : Bool := region.id == id

/-- The regions, the next identifier, and the memory they live in. -/
structure SharedMemory where
  /-- The frames and the page tables. -/
  memory : PagedMemory
  /-- The live regions, oldest first. -/
  regions : List SharedMemoryRegion
  /-- The identifier of the next region. -/
  nextId : Int
  /-- An access to a page that is not mapped has stopped the processor for good. -/
  halted : Bool

namespace SharedMemory

/-- No region yet, after boot. -/
def boot (pmm : PhysicalMemoryManager) (memory : Nat → PageTableEntry) : SharedMemory :=
  ⟨bootMemory pmm memory, [], 1, false⟩

/-- Where the region of an identifier starts: every identifier has room for the largest region. -/
def regionBase (id : Int) : BitVec 64 :=
  0x700000000000#64 + BitVec.ofInt 64 (asInt32 (id - 1)) * BitVec.ofNat 64 maxSharedMemorySize

/-- The pages behind a number of bytes. -/
def pagesOf (size : Nat) : Nat := (size + 4095) / 4096

/-- Creating a region; there is no answer when the processor stops. -/
def createSharedMemory (state : SharedMemory) (creator : Int) (size : Nat) :
    Option Int × SharedMemory :=
  if size = 0 ∨ maxSharedMemorySize < size then (some (-1), state)
  else
    let size := pagesOf size * 4096
    let id := state.nextId
    let state := { state with nextId := asInt32 (state.nextId + 1) }
    let base := regionBase id
    match state.memory.backPages base (size / 4096) with
    | (some reached, memory) =>
      -- The pages backed so far are released again, and the identifier is lost.
      (some (-1), { state with memory := memory.releasePages base reached })
    | (none, memory) =>
      match memory.zeroPages base (size / 4096) with
      | (false, memory) => (none, { state with memory := memory, halted := true })
      | (true, memory) =>
        (some id, { state with
          memory := memory
          regions := state.regions ++ [⟨id, creator, size, base, [creator]⟩] })

/-- Destroying a region: its pages are released and the regions behind it move up. -/
def destroySharedMemory (state : SharedMemory) (id : Int) : Bool × SharedMemory :=
  match state.regions.find? (SharedMemoryRegion.hasId id) with
  | none => (false, state)
  | some region =>
    let memory :=
      if region.address = 0#64 then state.memory
      else state.memory.releasePages region.address (pagesOf region.size)
    let index := state.regions.findIdx (SharedMemoryRegion.hasId id)
    (true, { state with memory := memory, regions := removeAt state.regions index })

/-- Attaching a process to a region; the answer is where it starts, or null. -/
def attachSharedMemory (state : SharedMemory) (id pid : Int) : BitVec 64 × SharedMemory :=
  if id ≤ 0 then (0#64, state)
  else
    match state.regions.find? (SharedMemoryRegion.hasId id) with
    | none => (0#64, state)
    | some region =>
      if pid ∈ region.attachedProcesses then (region.address, state)
      else
        let attach := fun region : SharedMemoryRegion =>
          { region with attachedProcesses := region.attachedProcesses ++ [pid] }
        (region.address,
          { state with
            regions := modifyFirst (SharedMemoryRegion.hasId id) attach state.regions })

/-- Detaching a process from a region. -/
def detachSharedMemory (state : SharedMemory) (id pid : Int) : Bool × SharedMemory :=
  match state.regions.find? (SharedMemoryRegion.hasId id) with
  | none => (false, state)
  | some region =>
    if pid ∈ region.attachedProcesses then
      let detach := fun region : SharedMemoryRegion =>
        { region with
          attachedProcesses :=
            removeAt region.attachedProcesses (region.attachedProcesses.idxOf pid) }
      (true,
        { state with regions := modifyFirst (SharedMemoryRegion.hasId id) detach state.regions })
    else (false, state)

end SharedMemory

/-- The calls on shared memory. -/
inductive SharedMemoryCall where
  /-- Creating a region. -/
  | create (creator : Int) (size : Nat)
  /-- Destroying a region. -/
  | destroy (id : Int)
  /-- Attaching a process. -/
  | attach (id pid : Int)
  /-- Detaching a process. -/
  | detach (id pid : Int)
  deriving Repr, DecidableEq

namespace SharedMemory

/-- The state after a call; a processor that has stopped makes none. -/
def perform (state : SharedMemory) (call : SharedMemoryCall) : SharedMemory :=
  if state.halted then state
  else match call with
    | .create creator size => (state.createSharedMemory creator size).2
    | .destroy id => (state.destroySharedMemory id).2
    | .attach id pid => (state.attachSharedMemory id pid).2
    | .detach id pid => (state.detachSharedMemory id pid).2

/-- The state after a sequence of calls. -/
def run (state : SharedMemory) (calls : List SharedMemoryCall) : SharedMemory :=
  calls.foldl perform state

end SharedMemory

end Pocky
