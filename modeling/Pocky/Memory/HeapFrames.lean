import Pocky.Memory.HeapLaws

/-! The heap returns frames at its own addresses, not the frames it took from the frame allocator. -/

namespace Pocky

open HeapAllocator PhysicalMemoryManager

/-- A frame lies in the region the kernel gave to its heap. -/
def HeapFrame (frame : Nat) : Prop :=
  kernelHeapStart ≤ kernelMemoryStart + pageSize * frame ∧
    kernelMemoryStart + pageSize * frame < kernelHeapStart + kernelHeapSize

/-- Every frame of the heap is marked used. -/
def HeapFramesUsed (pmm : PhysicalMemoryManager) : Prop :=
  ∀ frame, HeapFrame frame → bitSet pmm.bitmap frame = true

/-- The heap's frames are the last 4096 of the region. -/
theorem heapFrame_iff {frame : Nat} : HeapFrame frame ↔ 12288 ≤ frame ∧ frame < 16384 := by
  simp only [HeapFrame, kernelHeapStart, kernelHeapSize, kernelMemoryStart, kernelMemorySize,
    pageSize]
  omega

/-- A frame allocator over the kernel's region, consistent with its counter. -/
structure KernelFrames (pmm : PhysicalMemoryManager) : Prop where
  /-- Counter and bitmap agree. -/
  consistent : pmm.Consistent
  /-- The region starts where the kernel's does. -/
  start : pmm.memoryStart = kernelMemoryStart
  /-- The region has the kernel's number of frames. -/
  total : pmm.totalFrames = 16384

/-- Boot-time set-up yields such an allocator with the heap's frames used. -/
theorem kernelFrames_boot (boot : PhysicalMemoryManager) :
    KernelFrames (kernelFrames boot) ∧ HeapFramesUsed (kernelFrames boot) := by
  obtain ⟨start, total⟩ := initializeFrames_region boot
  refine ⟨⟨initializeFrames_consistent boot, start, total⟩, fun frame inside => ?_⟩
  rw [heapFrame_iff] at inside
  rw [kernelFrames, initializeFrames_eq, bitSet_reserveFrames, bitSet_reserveFrames]
  simp
  omega

/-- Taking a frame keeps the region and never frees a frame. -/
theorem KernelFrames.allocateFrame {pmm : PhysicalMemoryManager} (frames : KernelFrames pmm) :
    KernelFrames pmm.allocateFrame.2 ∧
      ∀ frame, bitSet pmm.bitmap frame = true →
        bitSet pmm.allocateFrame.2.bitmap frame = true := by
  obtain ⟨start, total⟩ := allocateFrame_region pmm
  exact ⟨⟨frames.consistent.allocateFrame, start.trans frames.start, total.trans frames.total⟩,
    fun frame used => bitSet_allocateFrame used⟩

/-- The frame an address of the kernel's region lies in. -/
def frameOf (addr : Nat) : Nat := (addr - kernelMemoryStart) / pageSize

/-- Moving a whole number of pages moves as many frames. -/
theorem frameOf_add {block : Nat} (low : kernelMemoryStart ≤ block) (count : Nat) :
    frameOf (block + pageSize * count) = frameOf block + count := by
  unfold frameOf
  rw [Nat.sub_add_comm low, Nat.add_mul_div_left _ _ (by decide)]

/-- Returning an address of the region turns exactly its frame free. -/
theorem KernelFrames.freeFrame {pmm : PhysicalMemoryManager} (frames : KernelFrames pmm)
    {addr : Nat} (low : kernelMemoryStart ≤ addr) :
    KernelFrames (pmm.freeFrame addr) ∧
      ∀ frame, bitSet (pmm.freeFrame addr).bitmap frame = true ↔
        bitSet pmm.bitmap frame = true ∧ ¬ (frame < 16384 ∧ frame = frameOf addr) := by
  obtain ⟨start, total⟩ := freeFrame_region pmm addr
  refine ⟨⟨frames.consistent.freeFrame _, start.trans frames.start, total.trans frames.total⟩,
    fun frame => ?_⟩
  rw [← frames.total]
  unfold PhysicalMemoryManager.freeFrame
  rw [frames.start, if_neg (Nat.not_lt.mpr low), ← frameOf]
  dsimp only
  split
  · -- Past the end of the region nothing changes, and no frame number is meant.
    rename_i past
    refine ⟨fun used => ⟨used, ?_⟩, fun used => used.1⟩
    rintro ⟨inside, rfl⟩
    omega
  · rename_i within
    split
    · rename_i used
      rw [bitSet_clearBit, Bool.and_eq_true, decide_eq_true_eq]
      constructor
      · rintro ⟨apart, used⟩
        exact ⟨used, fun same => apart same.2⟩
      · rintro ⟨used, apart⟩
        exact ⟨fun same => apart ⟨by omega, same⟩, used⟩
    · rename_i unused
      refine ⟨fun used => ⟨used, ?_⟩, fun used => used.1⟩
      rintro ⟨-, rfl⟩
      exact unused used

/-- Returning a block's pages frees exactly the frames at its own address. -/
theorem bitSet_returnFrames {pmm : PhysicalMemoryManager} (frames : KernelFrames pmm)
    {block : Nat} (low : kernelMemoryStart ≤ block) (count : Nat)
    (bounded : block + pageSize * count < 2 ^ 64) :
    KernelFrames (returnFrames block pmm count) ∧
      ∀ frame, bitSet (returnFrames block pmm count).bitmap frame = true ↔
        bitSet pmm.bitmap frame = true ∧
          ¬ (frame < 16384 ∧ frameOf block ≤ frame ∧ frame < frameOf block + count) := by
  induction count with
  | zero => exact ⟨frames, fun frame => ⟨fun used => ⟨used, by omega⟩, fun used => used.1⟩⟩
  | succ count ih =>
    rw [Nat.mul_succ] at bounded
    obtain ⟨kept, bits⟩ := ih (by omega)
    have address : (block + pageSize * count) % 2 ^ 64 = block + pageSize * count :=
      Nat.mod_eq_of_lt (by omega)
    have high : kernelMemoryStart ≤ block + pageSize * count := Nat.le_add_right_of_le low
    obtain ⟨region, freed⟩ := kept.freeFrame high
    rw [frameOf_add low] at freed
    simp only [returnFrames, address]
    refine ⟨region, fun frame => ?_⟩
    rw [freed, bits]
    constructor
    · rintro ⟨⟨used, before⟩, last⟩
      exact ⟨used, by omega⟩
    · rintro ⟨used, outside⟩
      exact ⟨⟨used, by omega⟩, by omega⟩

/-- A payload that is not empty is charged at least one page. -/
theorem numPages_pos {size : Nat} (positive : 0 < size) (bounded : size + pageSize ≤ 2 ^ 64) :
    0 < numPages size := by
  simp only [numPages, pageSize] at *
  omega

/-- An empty payload is charged no page. -/
theorem numPages_zero : numPages 0 = 0 := by decide

/-- With a frame for every page, taking frames only sets bits. -/
theorem takeFrames_served (block : Nat) {pmm : PhysicalMemoryManager} (frames : KernelFrames pmm)
    {pages : Nat} (taken : Nat) (available : pages ≤ pmm.freeFrames) :
    (takeFrames block pages taken pmm).1 = true ∧
      KernelFrames (takeFrames block pages taken pmm).2 ∧
      (∀ frame, bitSet pmm.bitmap frame = true →
        bitSet (takeFrames block pages taken pmm).2.bitmap frame = true) ∧
      (takeFrames block pages taken pmm).2.freeFrames = pmm.freeFrames - pages ∧
      (pages = 0 → (takeFrames block pages taken pmm).2 = pmm) := by
  induction pages generalizing taken pmm with
  | zero => exact ⟨rfl, frames, fun _ used => used, rfl, fun _ => rfl⟩
  | succ pages ih =>
    obtain ⟨kept, grow⟩ := frames.allocateFrame
    have bounded := frames.consistent.freeFrames_le
    have small := frames.consistent.totalFrames_lt
    rcases frames.consistent.allocateFrame_cases with ⟨empty, -⟩ | ⟨frame, free, -, served⟩
    · rw [frames.consistent.counted, empty, Finset.card_empty] at available
      omega
    · have nonzero : pmm.memoryStart + pageSize * frame ≠ 0 := by
        have := frames.consistent.positive
        omega
      have count : pmm.allocateFrame.2.freeFrames = pmm.freeFrames - 1 := by
        rw [served]
        exact wordSub_one (by omega) (by omega)
      obtain ⟨success, region, grow', left, -⟩ := ih kept (taken + 1) (by omega)
      have step : takeFrames block (pages + 1) taken pmm =
          takeFrames block pages (taken + 1) pmm.allocateFrame.2 := by
        rw [takeFrames]
        simp only [served, if_neg nonzero]
      rw [step]
      exact ⟨success, region, fun frame used => grow' frame (grow frame used), by omega,
        fun none => absurd none (Nat.succ_ne_zero pages)⟩

/-- Without enough frames, every free frame is taken and as many heap pages are returned. -/
theorem takeFrames_short (block : Nat) {pmm : PhysicalMemoryManager} (frames : KernelFrames pmm)
    {pages : Nat} (taken : Nat) (short : pmm.freeFrames < pages) :
    ∃ full, KernelFrames full ∧
      (∀ frame, bitSet pmm.bitmap frame = true → bitSet full.bitmap frame = true) ∧
      (pmm.freeFrames = 0 → full = pmm) ∧
      takeFrames block pages taken pmm =
        (false, returnFrames block full (taken + pmm.freeFrames)) := by
  induction pages generalizing taken pmm with
  | zero => omega
  | succ pages ih =>
    obtain ⟨kept, grow⟩ := frames.allocateFrame
    have bounded := frames.consistent.freeFrames_le
    have small := frames.consistent.totalFrames_lt
    rcases frames.consistent.allocateFrame_cases with ⟨empty, refused⟩ | ⟨frame, free, -, served⟩
    · -- No frame is left, so the pages counted so far are returned.
      have none : pmm.freeFrames = 0 := by
        rw [frames.consistent.counted, empty, Finset.card_empty]
      refine ⟨pmm, frames, fun _ used => used, fun _ => rfl, ?_⟩
      rw [takeFrames]
      simp only [refused, if_true, none, Nat.add_zero]
    · have nonzero : pmm.memoryStart + pageSize * frame ≠ 0 := by
        have := frames.consistent.positive
        omega
      have some : 0 < pmm.freeFrames := by
        rw [frames.consistent.counted]
        exact Finset.card_pos.mpr ⟨frame, free⟩
      have count : pmm.allocateFrame.2.freeFrames = pmm.freeFrames - 1 := by
        rw [served]
        exact wordSub_one some (by omega)
      obtain ⟨full, region, grow', -, outcome⟩ := ih kept (taken + 1) (by omega)
      refine ⟨full, region, fun frame used => grow' frame (grow frame used),
        fun none => absurd some (by omega), ?_⟩
      have step : takeFrames block (pages + 1) taken pmm =
          takeFrames block pages (taken + 1) pmm.allocateFrame.2 := by
        rw [takeFrames]
        simp only [served, if_neg nonzero]
      rw [step, outcome, count]
      congr 2
      omega

/-- The heap and the frame allocator together, with the pointers clients hold. -/
structure KernelMemory where
  /-- The heap allocator. -/
  heap : HeapAllocator
  /-- The frame allocator. -/
  pmm : PhysicalMemoryManager
  /-- Held pointers, each with its rounded size. -/
  live : List (Nat × Nat)

/-- The calls a run interleaves. -/
inductive MemoryCall where
  /-- A heap request. -/
  | allocate (size : Nat)
  /-- Giving back a heap pointer. -/
  | free (ptr : Nat)
  /-- A frame taken by some other part of the kernel. -/
  | allocateFrame
  deriving Repr, DecidableEq

/-- The state after one call. -/
def MemoryCall.step (memory : KernelMemory) : MemoryCall → Run KernelMemory
  | .allocate size => do
    let (ptr, heap, pmm) ← memory.heap.allocate memory.pmm size
    return ⟨heap, pmm, recordAnswer memory.live ptr (roundUp size)⟩
  | .free ptr => do
    let (heap, pmm) ← memory.heap.free memory.pmm ptr
    return ⟨heap, pmm, forgetPointer memory.live ptr⟩
  | .allocateFrame => .ok { memory with pmm := memory.pmm.allocateFrame.2 }

/-- Only held pointers are given back. -/
def MemoryCall.Allowed (memory : KernelMemory) : MemoryCall → Prop
  | .free ptr => ptr ∈ memory.live.map Prod.fst
  | _ => True

/--
The calls after which the heap's frames stay used.

A request must not run out of frames once it has taken some.
A pointer may be given back only when its block is empty.
-/
def MemoryCall.Careful (memory : KernelMemory) : MemoryCall → Prop
  | .allocate size =>
    size = 0 ∨
    memory.heap.findFreeBlock (roundUp size) (memory.heap.totalSize + 1) memory.heap.firstBlock
      = .ok 0 ∨
    memory.pmm.freeFrames = 0 ∨ numPages (roundUp size) ≤ memory.pmm.freeFrames
  | .free ptr => (memory.heap.memory (ptr - headerSize)).size = 0
  | .allocateFrame => True

/-- The states a booted kernel reaches by allowed calls that also meet a given condition. -/
inductive MemoryReach (meets : KernelMemory → MemoryCall → Prop) : KernelMemory → Prop where
  /-- Frame allocator and heap as the kernel sets them up. -/
  | boot (heap : HeapAllocator) (pmm : PhysicalMemoryManager) :
      MemoryReach meets
        ⟨heap.initializeHeap kernelHeapStart kernelHeapSize, kernelFrames pmm, []⟩
  /-- One more call. -/
  | step {memory memory' : KernelMemory} (call : MemoryCall) (before : MemoryReach meets memory)
      (allowed : call.Allowed memory) (condition : meets memory call)
      (stepped : call.step memory = .ok memory') : MemoryReach meets memory'

/-- What holds of heap and frame allocator whatever frames are free. -/
structure KernelMemory.Sound (memory : KernelMemory) : Prop where
  /-- The blocks tile the kernel's heap region. -/
  owns : ∃ segments, memory.heap.Owns kernelHeapStart kernelHeapSize segments memory.live
  /-- The frame allocator manages the kernel's region. -/
  frames : KernelFrames memory.pmm

/-- A block of the heap region lies in one of the heap's frames. -/
theorem heapFrame_frameOf {block : Nat} (low : kernelHeapStart ≤ block)
    (high : block < kernelHeapStart + kernelHeapSize) : HeapFrame (frameOf block) := by
  rw [heapFrame_iff]
  simp only [frameOf, kernelHeapStart, kernelHeapSize, kernelMemoryStart, kernelMemorySize,
    pageSize] at *
  omega

/-- Returning pages of a heap block keeps the heap's frames used only if there are none to return. -/
theorem heapFramesUsed_returnFrames {pmm : PhysicalMemoryManager} (frames : KernelFrames pmm)
    (used : HeapFramesUsed pmm) {block count : Nat} (low : kernelHeapStart ≤ block)
    (high : block < kernelHeapStart + kernelHeapSize) (few : count ≤ 16384) :
    KernelFrames (returnFrames block pmm count) ∧
      (HeapFramesUsed (returnFrames block pmm count) ↔ count = 0) ∧
      (0 < count → bitSet (returnFrames block pmm count).bitmap (frameOf block) = false) := by
  have above : kernelMemoryStart ≤ block := Nat.le_trans (by decide) low
  have bounded : block + pageSize * count < 2 ^ 64 := by
    calc block + pageSize * count
        ≤ kernelHeapStart + kernelHeapSize + pageSize * 16384 :=
          Nat.add_le_add (Nat.le_of_lt high) (Nat.mul_le_mul_left _ few)
      _ < 2 ^ 64 := by decide
  obtain ⟨kept, bits⟩ := bitSet_returnFrames frames above count bounded
  have own := heapFrame_frameOf low high
  have cleared : 0 < count →
      bitSet (returnFrames block pmm count).bitmap (frameOf block) = false := by
    intro some
    rw [Bool.eq_false_iff, Ne, bits]
    rintro ⟨-, outside⟩
    exact outside ⟨(heapFrame_iff.mp own).2, Nat.le_refl _, by omega⟩
  refine ⟨kept, ⟨fun still => ?_, fun none => ?_⟩, cleared⟩
  · by_contra some
    have set := still (frameOf block) own
    rw [cleared (by omega)] at set
    exact Bool.noConfusion set
  · subst none
    exact used

/-- The block behind a held pointer, as the heap's memory stores it. -/
theorem KernelMemory.Sound.held_block {memory : KernelMemory} (sound : memory.Sound) {ptr : Nat}
    (holds : ptr ∈ memory.live.map Prod.fst) :
    kernelHeapStart ≤ ptr - headerSize ∧
      ptr - headerSize + headerSize + (memory.heap.memory (ptr - headerSize)).size ≤
        kernelHeapStart + kernelHeapSize := by
  obtain ⟨segments, owns⟩ := sound.owns
  obtain ⟨⟨held, size⟩, member, same⟩ := List.mem_map.mp holds
  obtain ⟨block, segment, place, -, -, payload⟩ := owns.held held size member
  obtain ⟨low, high, header⟩ := owns.tiled.located_bounds place
  have plain : ptr - headerSize = block := by
    have : held = ptr := same
    omega
  have header : memory.heap.memory block = _ := header
  rw [plain, header]
  simp only [Segment.width] at high ⊢
  omega

/-- A block of the heap region is charged fewer pages than the region has frames. -/
theorem numPages_le {size : Nat} (small : size ≤ kernelHeapSize) : numPages size ≤ 16384 := by
  simp only [numPages, kernelHeapSize, pageSize] at *
  omega

/-- A block's pages are none exactly when it is empty. -/
theorem numPages_eq_zero {size : Nat} (small : size ≤ kernelHeapSize) :
    numPages size = 0 ↔ size = 0 := by
  simp only [numPages, kernelHeapSize, pageSize] at *
  omega

/--
One call on a sound state with the heap's frames used.

It returns, keeps the state sound, and keeps the heap's frames used exactly when it is careful.
-/
theorem MemoryCall.step_spec {memory : KernelMemory} (sound : memory.Sound)
    (used : HeapFramesUsed memory.pmm) (call : MemoryCall) (allowed : call.Allowed memory) :
    ∃ memory', call.step memory = .ok memory' ∧ memory'.Sound ∧
      (HeapFramesUsed memory'.pmm ↔ call.Careful memory) := by
  obtain ⟨segments, owns⟩ := sound.owns
  cases call with
  | allocateFrame =>
    obtain ⟨kept, grow⟩ := sound.frames.allocateFrame
    exact ⟨_, rfl, ⟨⟨segments, owns⟩, kept⟩,
      ⟨fun _ => trivial, fun _ frame inside => grow frame (used frame inside)⟩⟩
  | free ptr =>
    obtain ⟨low, high⟩ := sound.held_block allowed
    obtain ⟨heap', segments', returned, owns'⟩ := owns.free kernelHeap_region memory.pmm allowed
      List.filter_sublist (not_mem_forgetPointer memory.live ptr)
    have header : headerSize = 24 := rfl
    have small : (memory.heap.memory (ptr - headerSize)).size ≤ kernelHeapSize := by omega
    obtain ⟨kept, still, -⟩ := heapFramesUsed_returnFrames sound.frames used low (by omega)
      (numPages_le small)
    refine ⟨_, by rw [MemoryCall.step, returned]; rfl, ⟨⟨segments', owns'⟩, kept⟩, ?_⟩
    rw [still, numPages_eq_zero small]
    rfl
  | allocate size =>
    by_cases zero : size = 0
    · subst zero
      exact ⟨memory, rfl, sound, ⟨fun _ => Or.inl rfl, fun _ => used⟩⟩
    · obtain ⟨ptr, heap', pmm', segments', answer, owns', -⟩ :=
        owns.allocate kernelHeap_region memory.pmm (Nat.one_le_iff_ne_zero.mpr zero)
          (Nat.le_refl (roundUp size))
      refine ⟨_, by rw [MemoryCall.step, answer]; rfl, ?_⟩
      rcases owns.allocate_cases kernelHeap_region memory.pmm size (by omega) with
        ⟨absent, refused, -⟩ | ⟨before, segment, after, block, cut, free, fits, front, back, found,
          served⟩
      · -- No block fits, and nothing changes.
        rw [refused] at answer
        cases answer
        exact ⟨⟨⟨segments', owns'⟩, sound.frames⟩,
          ⟨fun _ => Or.inr (Or.inl absent), fun _ => used⟩⟩
      · rw [served] at answer
        cases answer
        have low : kernelHeapStart ≤ block := front.le
        have high : block < kernelHeapStart + kernelHeapSize := by
          have := Segment_width_pos segment
          have := back.2.le
          omega
        have nonzero : block ≠ 0 := by
          have := kernelHeap_region.positive
          omega
        by_cases available : numPages (roundUp size) ≤ memory.pmm.freeFrames
        · -- Frames for every page are found among those not in use.
          obtain ⟨-, kept, grow, -⟩ := takeFrames_served block sound.frames 0 available
          exact ⟨⟨⟨segments', owns'⟩, kept⟩, ⟨fun _ => Or.inr (Or.inr (Or.inr available)),
            fun _ frame inside => grow frame (used frame inside)⟩⟩
        · obtain ⟨full, region, grow, -, outcome⟩ :=
            takeFrames_short block sound.frames 0 (Nat.lt_of_not_le available)
          have few : memory.pmm.freeFrames ≤ 16384 := by
            rw [← sound.frames.total]
            exact sound.frames.consistent.freeFrames_le
          obtain ⟨kept, still, -⟩ := heapFramesUsed_returnFrames region
            (fun frame inside => grow frame (used frame inside)) low high few
          rw [outcome, Nat.zero_add] at owns' ⊢
          refine ⟨⟨⟨segments', owns'⟩, kept⟩, still.trans ⟨fun none => ?_, fun careful => ?_⟩⟩
          · exact Or.inr (Or.inr (Or.inl none))
          · rcases careful with zero' | absent | none | enough
            · exact absurd zero' zero
            · rw [found] at absent
              exact absurd (Except.ok.inj absent) nonzero
            · exact none
            · exact absurd enough available

/-- Set-up leaves a sound state with the heap's frames used. -/
theorem boot_sound (heap : HeapAllocator) (pmm : PhysicalMemoryManager) :
    KernelMemory.Sound
      ⟨heap.initializeHeap kernelHeapStart kernelHeapSize, kernelFrames pmm, []⟩ ∧
      HeapFramesUsed (kernelFrames pmm) := by
  obtain ⟨frames, used⟩ := kernelFrames_boot pmm
  exact ⟨⟨⟨_, initializeHeap_owns heap kernelHeap_region⟩, frames⟩, used⟩

/-- Careful runs stay sound and keep the heap's frames used. -/
theorem MemoryReach.careful {memory : KernelMemory}
    (reach : MemoryReach (fun memory call => call.Careful memory) memory) :
    memory.Sound ∧ HeapFramesUsed memory.pmm := by
  induction reach with
  | boot heap pmm => exact boot_sound heap pmm
  | step call before allowed condition stepped ih =>
    obtain ⟨sound, used⟩ := ih
    obtain ⟨memory', stepped', sound', still⟩ := call.step_spec sound used allowed
    rw [stepped'] at stepped
    cases stepped
    exact ⟨sound', still.mpr condition⟩

/-- The size of the block a request is served from, after the cut. -/
theorem takeBlock_size {memory : Nat → HeapBlock} {heap : HeapAllocator} {stop block size : Nat}
    {segment : Segment} {after : List Segment} (stored : heap.memory = memory)
    (back : Blocks memory stop block (segment :: after) stop) (fits : size ≤ segment.size)
    (bounded : stop + headerSize + 32 ≤ 2 ^ 64) :
    ((heap.takeBlock block size).memory block).size =
      if size + headerSize + 32 ≤ segment.size then size else segment.size := by
  subst stored
  have header : heap.memory block = _ := back.1
  have room := back.2.le
  have wide : headerSize = 24 := rfl
  simp only [Segment.width] at room
  split
  · rename_i large
    rw [takeBlock_memory_split header large (by simp only; omega), Function.update_self]
  · rename_i small
    rw [takeBlock_memory_whole header small (by omega), Function.update_self]

/--
When a request followed by giving back its answer leaves the frame allocator as it was.

Either no frame is taken at all, or the rounded size has wrapped to zero and the block is empty.
-/
def Restores (memory : KernelMemory) (size : Nat) : Prop :=
  size = 0 ∨
  ∃ block, memory.heap.findFreeBlock (roundUp size) (memory.heap.totalSize + 1)
      memory.heap.firstBlock = .ok block ∧
    (block = 0 ∨
      (roundUp size ≠ 0 ∧ memory.pmm.freeFrames = 0) ∨
      (roundUp size = 0 ∧
        ((memory.heap.memory block).size = 0 ∨ headerSize + 32 ≤ (memory.heap.memory block).size)))

/-- Returning frames at a heap block's address is noticed unless there are none to return. -/
theorem returnFrames_restores_iff {pmm taken : PhysicalMemoryManager}
    (used : HeapFramesUsed pmm) (frames : KernelFrames taken) (kept : HeapFramesUsed taken)
    {block count : Nat} (low : kernelHeapStart ≤ block)
    (high : block < kernelHeapStart + kernelHeapSize) (few : count ≤ 16384)
    (same : count = 0 → taken = pmm) :
    ((returnFrames block taken count).bitmap = pmm.bitmap ∧
      (returnFrames block taken count).freeFrames = pmm.freeFrames) ↔ count = 0 := by
  obtain ⟨-, -, cleared⟩ := heapFramesUsed_returnFrames frames kept low high few
  constructor
  · rintro ⟨bitmap, -⟩
    by_contra some
    have clear := cleared (by omega)
    rw [bitmap, used _ (heapFrame_frameOf low high)] at clear
    exact Bool.noConfusion clear
  · intro none
    rw [same none, none]
    exact ⟨rfl, rfl⟩

/-- A block cut for a request is empty only if the request was for nothing. -/
theorem cut_size_eq_zero {size whole : Nat} (fits : size ≤ whole) :
    (if size + headerSize + 32 ≤ whole then size else whole) = 0 ↔
      size = 0 ∧ (whole = 0 ∨ headerSize + 32 ≤ whole) := by
  have wide : headerSize = 24 := rfl
  by_cases large : size + headerSize + 32 ≤ whole
  · rw [if_pos large]
    omega
  · rw [if_neg large]
    omega

/-- A refused request leaves the frame allocator alone exactly when it had no frame to begin with. -/
theorem takeFrames_short_restores_iff {pmm : PhysicalMemoryManager} (frames : KernelFrames pmm)
    (used : HeapFramesUsed pmm) {block pages : Nat} (low : kernelHeapStart ≤ block)
    (high : block < kernelHeapStart + kernelHeapSize) (short : pmm.freeFrames < pages) :
    (takeFrames block pages 0 pmm).1 = false ∧
      (((takeFrames block pages 0 pmm).2.bitmap = pmm.bitmap ∧
        (takeFrames block pages 0 pmm).2.freeFrames = pmm.freeFrames) ↔ pmm.freeFrames = 0) := by
  obtain ⟨full, region, grow, same, outcome⟩ := takeFrames_short block frames 0 short
  have few : pmm.freeFrames ≤ 16384 := by
    rw [← frames.total]
    exact frames.consistent.freeFrames_le
  rw [outcome, Nat.zero_add]
  exact ⟨rfl, returnFrames_restores_iff used region
    (fun frame inside => grow frame (used frame inside)) low high few same⟩

/-- A request and the return of its answer leave the frame allocator as it was exactly when `Restores`. -/
theorem allocate_free_spec {memory : KernelMemory} (sound : memory.Sound)
    (used : HeapFramesUsed memory.pmm) (size : Nat) :
    ∃ ptr heap pmm heap' pmm', memory.heap.allocate memory.pmm size = .ok (ptr, heap, pmm) ∧
      heap.free pmm ptr = .ok (heap', pmm') ∧
      ((pmm'.bitmap = memory.pmm.bitmap ∧ pmm'.freeFrames = memory.pmm.freeFrames) ↔
        Restores memory size) := by
  obtain ⟨segments, owns⟩ := sound.owns
  by_cases zero : size = 0
  · subst zero
    exact ⟨0, _, _, _, _, rfl, rfl, ⟨fun _ => Or.inl rfl, fun _ => ⟨rfl, rfl⟩⟩⟩
  rcases owns.allocate_cases kernelHeap_region memory.pmm size (by omega) with
    ⟨absent, refused, -⟩ | ⟨before, segment, after, block, cut, free, fits, front, back, found,
      served⟩
  · exact ⟨0, _, _, _, _, refused, rfl,
      ⟨fun _ => Or.inr ⟨0, absent, Or.inl rfl⟩, fun _ => ⟨rfl, rfl⟩⟩⟩
  have low : kernelHeapStart ≤ block := front.le
  have room := back.2.le
  have wide : headerSize = 24 := rfl
  have positive := kernelHeap_region.positive
  have stored : (memory.heap.memory block).size = segment.size := by
    have header : memory.heap.memory block = _ := back.1
    rw [header]
  simp only [Segment.width] at room
  have condition : Restores memory size ↔
      (roundUp size ≠ 0 ∧ memory.pmm.freeFrames = 0) ∨
        (roundUp size = 0 ∧ (segment.size = 0 ∨ headerSize + 32 ≤ segment.size)) := by
    simp only [Restores, found, Except.ok.injEq, zero, false_or, exists_eq_left', stored,
      show block ≠ 0 by omega]
  have small : roundUp size ≤ kernelHeapSize := by omega
  by_cases available : numPages (roundUp size) ≤ memory.pmm.freeFrames
  · -- The request is served, and its block's own pages are returned.
    obtain ⟨success, kept, grow, -, none⟩ :=
      takeFrames_served block sound.frames 0 available
    rw [if_pos success] at served
    obtain ⟨ptr, heap', pmm', segments', answer, owns', -⟩ :=
      owns.allocate kernelHeap_region memory.pmm (Nat.one_le_iff_ne_zero.mpr zero)
        (Nat.le_refl (roundUp size))
    rw [served] at answer
    cases answer
    have holds : block + headerSize ∈
        (recordAnswer memory.live (block + headerSize) (roundUp size)).map Prod.fst := by
      rw [recordAnswer, if_neg (by omega)]
      exact List.mem_cons_self
    obtain ⟨heap', -, returned, -⟩ := owns'.free kernelHeap_region
      (takeFrames block (numPages (roundUp size)) 0 memory.pmm).2 holds
      List.filter_sublist (not_mem_forgetPointer _ _)
    refine ⟨_, _, _, heap', _, served, returned, ?_⟩
    have plain : block + headerSize - headerSize = block := by omega
    have bounded := kernelHeap_region.bounded
    have size' := takeBlock_size rfl back fits (by omega)
    have cutSmall : ((memory.heap.takeBlock block (roundUp size)).memory block).size ≤
        kernelHeapSize := by
      rw [size']
      split <;> omega
    have empty := cut_size_eq_zero fits
    rw [← size'] at empty
    rw [plain, condition, returnFrames_restores_iff used kept
      (fun frame inside => grow frame (used frame inside)) low (by omega) (numPages_le cutSmall),
      numPages_eq_zero cutSmall, empty]
    · constructor
      · exact Or.inr
      · rintro (⟨some, full⟩ | wrapped)
        · have := numPages_pos (Nat.pos_of_ne_zero some) (by
            have : kernelHeapSize + pageSize ≤ 2 ^ 64 := by decide
            omega)
          omega
        · exact wrapped
    · intro no
      apply none
      rw [(empty.mp ((numPages_eq_zero cutSmall).mp no)).1]
      exact numPages_zero
  · -- The request is refused after the free frames have been taken.
    have short := Nat.lt_of_not_le available
    obtain ⟨failed, restored⟩ := takeFrames_short_restores_iff sound.frames used
      low (by omega) short
    rw [failed] at served
    refine ⟨0, _, _, _, _, served, rfl, ?_⟩
    rw [restored, condition]
    constructor
    · intro full
      refine Or.inl ⟨fun wrapped => ?_, full⟩
      rw [wrapped, numPages_zero] at short
      omega
    · rintro (⟨-, full⟩ | ⟨wrapped, -⟩)
      · exact full
      · rw [wrapped, numPages_zero] at short
        omega

/--
Who owns memory, in every run of calls that are all careful.

The heap's frames are marked used, so no frame handed out lies inside the heap.
One more call keeps it so exactly when that call is careful too.
A request and the return of its answer leave bitmap and counter as they were exactly when it
`Restores`.
-/
theorem heap_frames_run {memory : KernelMemory}
    (reach : MemoryReach (fun memory call => call.Careful memory) memory) :
    HeapFramesUsed memory.pmm ∧
    (memory.pmm.allocateFrame.1 < kernelHeapStart ∨
      kernelHeapStart + kernelHeapSize ≤ memory.pmm.allocateFrame.1) ∧
    (∀ call : MemoryCall, call.Allowed memory → ∃ memory', call.step memory = .ok memory' ∧
      (HeapFramesUsed memory'.pmm ↔ call.Careful memory)) ∧
    ∀ size, ∃ ptr heap pmm heap' pmm',
      memory.heap.allocate memory.pmm size = .ok (ptr, heap, pmm) ∧
      heap.free pmm ptr = .ok (heap', pmm') ∧
      ((pmm'.bitmap = memory.pmm.bitmap ∧ pmm'.freeFrames = memory.pmm.freeFrames) ↔
        Restores memory size) := by
  obtain ⟨sound, used⟩ := reach.careful
  refine ⟨used, ?_, fun call allowed => ?_, allocate_free_spec sound used⟩
  · rcases sound.frames.consistent.allocateFrame_cases with ⟨-, refused⟩ | ⟨frame, free, -, served⟩
    · rw [refused]
      exact Or.inl kernelHeap_region.positive
    · -- A frame inside the heap would be both free and used.
      by_contra inside
      rw [served] at inside
      have heapFrame : HeapFrame frame := by
        rw [HeapFrame, ← sound.frames.start]
        simp only at inside
        omega
      rw [mem_freeSet, used frame heapFrame] at free
      exact Bool.noConfusion free.2
  · obtain ⟨memory', stepped, -, still⟩ := call.step_spec sound used allowed
    exact ⟨memory', stepped, still⟩

/-- A kernel that has just booted. -/
def bootedMemory : KernelMemory :=
  ⟨blankHeap.initializeHeap kernelHeapStart kernelHeapSize, kernelFrames oneFrame, []⟩

/-- A booted kernel from which some other part has taken one frame. -/
def oneFrameTaken : KernelMemory :=
  { bootedMemory with pmm := bootedMemory.pmm.allocateFrame.2 }

/-- Taking a frame right after boot is a careful run. -/
theorem heap_frames_run_one_frame :
    MemoryReach (fun memory call => call.Careful memory) oneFrameTaken ∧
      HeapFramesUsed oneFrameTaken.pmm := by
  have reach : MemoryReach (fun memory call => call.Careful memory) oneFrameTaken :=
    .step .allocateFrame (.boot blankHeap oneFrame) trivial trivial rfl
  exact ⟨reach, (heap_frames_run reach).1⟩

/-- The booted kernel's state is sound and its heap frames are used. -/
theorem bootedMemory_sound : bootedMemory.Sound ∧ HeapFramesUsed bootedMemory.pmm :=
  boot_sound blankHeap oneFrame

/-- After boot there are frames left to take. -/
theorem bootedMemory_freeFrames : 1 ≤ bootedMemory.pmm.freeFrames := by
  obtain ⟨-, total⟩ := initializeFrames_region oneFrame
  rw [bootedMemory, kernelFrames, (initializeFrames_consistent oneFrame).counted, Nat.one_le_iff_ne_zero,
    Finset.card_ne_zero]
  refine ⟨5000, mem_freeSet.mpr ⟨by rw [total]; decide, ?_⟩⟩
  rw [initializeFrames_eq, bitSet_reserveFrames, bitSet_reserveFrames, bitSet_reserveFrames,
    bitSet_clearedFrames _ (by decide)]
  rfl

/-- A first request is served from the start of the heap and charged to an unrelated frame. -/
theorem bootedMemory_allocate :
    ∃ pmm, KernelFrames pmm ∧ HeapFramesUsed pmm ∧
      (MemoryCall.allocate 100).step bootedMemory =
        .ok ⟨bootedMemory.heap.takeBlock kernelHeapStart 112, pmm,
          [(kernelHeapStart + headerSize, 112)]⟩ := by
  obtain ⟨sound, used⟩ := bootedMemory_sound
  obtain ⟨success, kept, grow, -⟩ := takeFrames_served kernelHeapStart sound.frames
    0 bootedMemory_freeFrames
  refine ⟨_, kept, fun frame inside => grow frame (used frame inside), ?_⟩
  have first : bootedMemory.heap.findFreeBlock (roundUp 100) (bootedMemory.heap.totalSize + 1)
      bootedMemory.heap.firstBlock = .ok kernelHeapStart := by rfl
  obtain ⟨segments, owns⟩ := sound.owns
  rcases owns.allocate_cases kernelHeap_region bootedMemory.pmm 100 (by decide) with
    ⟨absent, -⟩ | ⟨-, -, -, block, -, -, -, -, -, found, served⟩
  · cases first.symm.trans absent
  · cases first.symm.trans found
    have pages : numPages (roundUp 100) = 1 := by decide
    rw [pages, if_pos success] at served
    rw [MemoryCall.step, served]
    rfl

/--
One request of a hundred bytes, given back, frees a frame of the heap.

The frame at the block's own address was never the one taken for it.
-/
theorem heap_frames_run_fails_after_pair :
    ∃ held released, (MemoryCall.allocate 100).step bootedMemory = .ok held ∧
      (MemoryCall.free (kernelHeapStart + headerSize)).Allowed held ∧
      (MemoryCall.free (kernelHeapStart + headerSize)).step held = .ok released ∧
      MemoryReach (fun _ _ => True) released ∧
      ¬ HeapFramesUsed released.pmm ∧ released.pmm.bitmap ≠ bootedMemory.pmm.bitmap := by
  obtain ⟨pmm, frames, used, requested⟩ := bootedMemory_allocate
  obtain ⟨sound, bootUsed⟩ := bootedMemory_sound
  obtain ⟨held, requested', sound', -⟩ := (MemoryCall.allocate 100).step_spec sound bootUsed trivial
  rw [requested] at requested'
  cases requested'
  have holds : (MemoryCall.free (kernelHeapStart + headerSize)).Allowed
      ⟨bootedMemory.heap.takeBlock kernelHeapStart 112, pmm,
        [(kernelHeapStart + headerSize, 112)]⟩ := List.mem_cons_self
  obtain ⟨released, returned, -, still⟩ :=
    (MemoryCall.free (kernelHeapStart + headerSize)).step_spec sound' used holds
  have freed : ¬ HeapFramesUsed released.pmm := by
    rw [still]
    show ((bootedMemory.heap.takeBlock kernelHeapStart 112).memory kernelHeapStart).size ≠ 0
    decide
  refine ⟨_, released, requested, holds, returned, ?_, freed, ?_⟩
  · exact .step _ (.step (.allocate 100) (.boot blankHeap oneFrame) trivial trivial requested)
      holds trivial returned
  · intro same
    apply freed
    rw [HeapFramesUsed, same]
    exact bootUsed

end Pocky
