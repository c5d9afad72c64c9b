import Pocky.Lib.Calls
import Pocky.Memory.HeapLaws

/-! Runs of requests and releases on a heap, and what a request that is refused leaves behind. -/

namespace Pocky

open HeapAllocator

/-- A heap with the pointers clients hold, each with the size it was rounded to. -/
structure HeapState where
  /-- The heap allocator. -/
  heap : HeapAllocator
  /-- The held pointers. -/
  live : List (Nat × Nat)

/--
A call on the heap.

It meets a frame allocator of its own, since other parts of the kernel take and return frames.
-/
inductive HeapCall where
  /-- A request for a number of bytes. -/
  | allocate (pmm : PhysicalMemoryManager) (size : Nat)
  /-- Giving back a pointer. -/
  | free (pmm : PhysicalMemoryManager) (ptr : Nat)

namespace HeapState

/-- The state after a call, if it returns. -/
def perform (state : HeapState) : HeapCall → Option HeapState
  | .allocate pmm size => (state.heap.allocate pmm size).toOption.map fun answer =>
    ⟨answer.2.1, recordAnswer state.live answer.1 (roundUp size)⟩
  | .free pmm ptr => (state.heap.free pmm ptr).toOption.map fun answer =>
    ⟨answer.1, forgetPointer state.live ptr⟩

/-- The state after a sequence of calls. -/
def run (state : HeapState) (calls : List HeapCall) : Option HeapState :=
  Calls.run perform state calls

/-- Only held pointers are given back. -/
def Allowed (state : HeapState) : HeapCall → Prop
  | .allocate _ _ => True
  | .free _ ptr => ptr ∈ state.live.map Prod.fst

/-- A heap that has just been set up over a region. -/
def boot (heap : HeapAllocator) (heapStart heapSize : Nat) : HeapState :=
  ⟨heap.initializeHeap heapStart heapSize, []⟩

/-- The blocks own the region, and the held pointers are theirs. -/
def Owns (state : HeapState) (heapStart heapSize : Nat) : Prop :=
  ∃ segments, state.heap.Owns heapStart heapSize segments state.live

/-- Every call keeps it so. -/
theorem Owns.perform {state next : HeapState} {heapStart heapSize : Nat}
    (region : HeapRegion heapStart heapSize) (owned : state.Owns heapStart heapSize) {call : HeapCall}
    (allowed : state.Allowed call) (performed : state.perform call = some next) :
    next.Owns heapStart heapSize := by
  obtain ⟨segments, owns⟩ := owned
  cases call with
  | allocate pmm size =>
    obtain ⟨answer, returned, rfl⟩ := Option.map_eq_some_iff.mp performed
    rw [Run.toOption_eq_some] at returned
    by_cases zero : size = 0
    · -- A request for nothing changes nothing.
      subst zero
      cases returned
      exact ⟨segments, owns⟩
    · obtain ⟨ptr, heap', pmm', segments', answered, owns', -⟩ :=
        owns.allocate region pmm (Nat.pos_of_ne_zero zero) (Nat.le_refl (roundUp size))
      rw [answered] at returned
      cases returned
      exact ⟨segments', owns'⟩
  | free pmm ptr =>
    obtain ⟨answer, returned, rfl⟩ := Option.map_eq_some_iff.mp performed
    rw [Run.toOption_eq_some] at returned
    obtain ⟨heap', segments', released, owns'⟩ := owns.free region pmm allowed
      List.filter_sublist (not_mem_forgetPointer state.live ptr)
    rw [released] at returned
    cases returned
    exact ⟨segments', owns'⟩

/-- So it is after every run. -/
theorem run_owns {heapStart heapSize : Nat} (region : HeapRegion heapStart heapSize)
    (heap : HeapAllocator) (calls : List HeapCall) {state : HeapState}
    (allowed : Calls.AllMeet perform Allowed (boot heap heapStart heapSize) calls)
    (ran : (boot heap heapStart heapSize).run calls = some state) :
    state.Owns heapStart heapSize :=
  Calls.run_invariant (fun state => state.Owns heapStart heapSize)
    (fun _ _ _ owned allowed performed => owned.perform region allowed performed) calls _ _
    ⟨_, initializeHeap_owns heap region⟩ allowed ran

end HeapState

/-- The blocks between two addresses are determined by the headers. -/
theorem HeapAllocator.Blocks.unique {memory : Nat → HeapBlock} {stop low high : Nat}
    {segments others : List Segment} (blocks : Blocks memory stop low segments high)
    (blocks' : Blocks memory stop low others high) : segments = others := by
  -- By induction on the blocks: the header at an address says what comes first.
  induction segments generalizing low others with
  | nil =>
    cases others with
    | nil => rfl
    | cons other rest =>
      have filled : low = high := blocks
      have room := blocks'.2.le
      have wide := Segment_width_pos other
      omega
  | cons segment segments ih =>
    cases others with
    | nil =>
      have filled : low = high := blocks'
      have room := blocks.2.le
      have wide := Segment_width_pos segment
      omega
    | cons other rest =>
      have first : memory low = _ := blocks.1
      have second : memory low = _ := blocks'.1
      rw [first] at second
      obtain ⟨size, free, -⟩ := HeapBlock.mk.inj second
      obtain rfl : segment = other := by
        cases segment
        cases other
        simp_all
      rw [ih blocks.2 blocks'.2]

/-- The blocks that a heap's headers link are these, over a whole region. -/
def HeapAllocator.Lists (heap : HeapAllocator) (heapStart heapSize : Nat) (segments : List Segment) :
    Prop :=
  Blocks heap.memory (heapStart + heapSize) heapStart segments (heapStart + heapSize)

/-- Nothing that a request may touch has changed: the blocks, the count of bytes, the frames in use. -/
structure Untouched (heapStart heapSize : Nat) (heap heap' : HeapAllocator)
    (pmm pmm' : PhysicalMemoryManager) : Prop where
  /-- The same blocks are listed, with the same flags. -/
  blocks : ∀ segments, heap'.Lists heapStart heapSize segments ↔ heap.Lists heapStart heapSize segments
  /-- As many bytes are counted as used. -/
  used : heap'.usedMemory = heap.usedMemory
  /-- The same frames are in use. -/
  frames : ∀ frame < pmm.totalFrames,
    PhysicalMemoryManager.bitSet pmm'.bitmap frame = PhysicalMemoryManager.bitSet pmm.bitmap frame

/-- No free block is large enough for a request. -/
def HeapAllocator.Exhausted (heap : HeapAllocator) (size : Nat) : Prop :=
  heap.findFreeBlock (roundUp size) (heap.totalSize + 1) heap.firstBlock = .ok 0

/--
A refused request leaves everything as it was exactly if it is for nothing or no free block fits.

This is so in every state that a run of requests and releases reaches, with any frames in use.
Otherwise the frames have run out, and the block stays cut and marked.
-/
theorem refused_untouched_iff {heapStart heapSize : Nat} (region : HeapRegion heapStart heapSize)
    (heap : HeapAllocator) (calls : List HeapCall) (state : HeapState)
    (allowed : Calls.AllMeet HeapState.perform HeapState.Allowed
      (HeapState.boot heap heapStart heapSize) calls)
    (ran : (HeapState.boot heap heapStart heapSize).run calls = some state)
    (pmm pmm' : PhysicalMemoryManager) (size : Nat) (heap' : HeapAllocator)
    (refused : state.heap.allocate pmm size = .ok (0, heap', pmm')) :
    Untouched heapStart heapSize state.heap heap' pmm pmm' ↔
      size = 0 ∨ state.heap.Exhausted size := by
  obtain ⟨segments, owns⟩ := HeapState.run_owns region heap calls allowed ran
  by_cases zero : size = 0
  · subst zero
    cases refused
    exact ⟨fun _ => Or.inl rfl, fun _ => ⟨fun _ => Iff.rfl, rfl, fun _ _ => rfl⟩⟩
  · rcases owns.allocate_cases region pmm size (Nat.pos_of_ne_zero zero) with
      ⟨absent, answered, -⟩ | ⟨before, segment, after, block, rfl, free, fits, front, back, found,
        answered⟩
    · rw [answered] at refused
      cases refused
      exact ⟨fun _ => Or.inr absent, fun _ => ⟨fun _ => Iff.rfl, rfl, fun _ _ => rfl⟩⟩
    · rw [answered] at refused
      obtain ⟨-, changed⟩ := Prod.mk.inj (Except.ok.inj refused)
      obtain ⟨rfl, -⟩ := Prod.mk.inj changed
      have low := front.le
      have positive := region.positive
      have exhausted : ¬ (size = 0 ∨ state.heap.Exhausted size) := by
        rintro (none | absent)
        · exact zero none
        · rw [HeapAllocator.Exhausted, found] at absent
          cases absent
          omega
      refine ⟨fun untouched => ?_, fun wrong => absurd wrong exhausted⟩
      -- The block that was free is marked now, so the lists differ.
      have taken := owns.take region front back free fits
      have same := Blocks.unique ((untouched.blocks _).mp taken.tiled) owns.tiled
      have rest := List.append_cancel_left same
      have flag : ∃ size' rest', carve (roundUp size) segment ++ after = ⟨size', false⟩ :: rest' := by
        rw [carve]
        split
        · exact ⟨_, _, rfl⟩
        · exact ⟨_, _, rfl⟩
      obtain ⟨size', rest', shape⟩ := flag
      rw [shape] at rest
      obtain ⟨rfl, -⟩ := List.cons.inj rest
      cases free

/-- A request for more than the whole heap is refused, and the heap and the frames are as before. -/
theorem refused_untouched_iff_exhausted :
    (blankHeap.initializeHeap kernelHeapStart kernelHeapSize).allocate oneFrame (2 ^ 30) =
      .ok (0, blankHeap.initializeHeap kernelHeapStart kernelHeapSize, oneFrame) ∧
    Untouched kernelHeapStart kernelHeapSize (blankHeap.initializeHeap kernelHeapStart kernelHeapSize)
      (blankHeap.initializeHeap kernelHeapStart kernelHeapSize) oneFrame oneFrame := by
  have refused : (HeapState.boot blankHeap kernelHeapStart kernelHeapSize).heap.allocate oneFrame
      (2 ^ 30) = .ok (0, blankHeap.initializeHeap kernelHeapStart kernelHeapSize, oneFrame) := by rfl
  have absent : (HeapState.boot blankHeap kernelHeapStart kernelHeapSize).heap.Exhausted (2 ^ 30) := by
    rfl
  exact ⟨refused, (refused_untouched_iff kernelHeap_region blankHeap [] _ trivial rfl oneFrame oneFrame
    (2 ^ 30) _ refused).mpr (Or.inr absent)⟩

/-- With one frame left a request for two pages is refused, but its block stays counted as used. -/
theorem refused_request_keeps_block : ∃ heap' pmm',
    (blankHeap.initializeHeap kernelHeapStart kernelHeapSize).allocate oneFrame 8192 =
      .ok (0, heap', pmm') ∧
    heap'.usedMemory = 8240 ∧ (heap'.memory kernelHeapStart).free = false ∧
    ¬ Untouched kernelHeapStart kernelHeapSize
      (blankHeap.initializeHeap kernelHeapStart kernelHeapSize) heap' oneFrame pmm' := by
  refine ⟨(blankHeap.initializeHeap kernelHeapStart kernelHeapSize).takeBlock kernelHeapStart 8192, _,
    rfl, rfl, rfl, fun untouched => ?_⟩
  exact absurd untouched.used (by decide)

end Pocky
