import Pocky.Memory.HeapFrames
import Pocky.Memory.HeapRuns

/-! Which requests the heap answers with an aligned payload of the size asked for. -/

namespace Pocky

open HeapAllocator

/-- Every block but the last has a size that is a multiple of eight. -/
abbrev Eighths (segments : List Segment) : Prop :=
  segments.IsChain fun left _ => left.size % 8 = 0

/-- Blocks in front of another are not the last. -/
theorem Eighths.front {before after : List Segment} {segment : Segment}
    (eighths : Eighths (before ++ segment :: after)) : ∀ earlier ∈ before, earlier.size % 8 = 0 := by
  -- By induction on the blocks in front.
  induction before with
  | nil => exact fun _ wrong => absurd wrong List.not_mem_nil
  | cons first before ih =>
    intro earlier member
    rcases List.mem_cons.mp member with rfl | later
    · cases before with
      | nil => exact (List.isChain_cons_cons.mp eighths).1
      | cons second before => exact (List.isChain_cons_cons.mp eighths).1
    · exact ih eighths.tail earlier later

/-- Cutting a free block keeps the sizes multiples of eight. -/
theorem Eighths.carve {before after : List Segment} {segment : Segment} (size : Nat)
    (even : size % 16 = 0) (eighths : Eighths (before ++ segment :: after)) :
    Eighths (before ++ (HeapAllocator.carve size segment ++ after)) := by
  obtain ⟨front, back, -⟩ := List.isChain_append.mp eighths
  have joint := eighths.front
  -- What stands in front of a block is followed by it whatever the block is cut to.
  have last : ∀ left ∈ before.getLast?, left.size % 8 = 0 :=
    fun left member => joint left (List.mem_of_mem_getLast? member)
  refine List.isChain_append.mpr ⟨front, ?_, fun left member _ _ => last left member⟩
  unfold HeapAllocator.carve
  split
  · refine List.isChain_cons_cons.mpr ⟨by simp only; omega, ?_⟩
    cases after with
    | nil => exact List.isChain_singleton _
    | cons next rest =>
      obtain ⟨whole, rest⟩ := List.isChain_cons_cons.mp back
      refine List.isChain_cons_cons.mpr ⟨?_, rest⟩
      simp only [headerSize] at *
      omega
  · cases after with
    | nil => exact List.isChain_singleton _
    | cons next rest =>
      obtain ⟨whole, rest⟩ := List.isChain_cons_cons.mp back
      exact List.isChain_cons_cons.mpr ⟨whole, rest⟩

/-- Marking a block free does not change a size. -/
theorem Eighths.release {before after : List Segment} {segment : Segment} (flag : Bool)
    (eighths : Eighths (before ++ segment :: after)) :
    Eighths (before ++ ⟨segment.size, flag⟩ :: after) := by
  obtain ⟨front, back, -⟩ := List.isChain_append.mp eighths
  have joint := eighths.front
  refine List.isChain_append.mpr ⟨front, ?_, fun left member _ _ =>
    joint left (List.mem_of_mem_getLast? member)⟩
  cases after with
  | nil => exact List.isChain_singleton _
  | cons next rest =>
    obtain ⟨whole, rest⟩ := List.isChain_cons_cons.mp back
    exact List.isChain_cons_cons.mpr ⟨whole, rest⟩

/-- Merging keeps the sizes multiples of eight. -/
theorem Eighths.coalesce {segment : Segment} {rest : List Segment}
    (eighths : Eighths (segment :: rest)) : Eighths (HeapAllocator.coalesce segment rest) := by
  -- By induction on the blocks behind: a header has twenty-four bytes.
  induction rest generalizing segment with
  | nil => exact eighths
  | cons next rest ih =>
    obtain ⟨first, others⟩ := List.isChain_cons_cons.mp eighths
    unfold HeapAllocator.coalesce
    split
    · apply ih
      cases rest with
      | nil => exact List.isChain_singleton _
      | cons third rest =>
        obtain ⟨second, others⟩ := List.isChain_cons_cons.mp others
        refine List.isChain_cons_cons.mpr ⟨?_, others⟩
        simp only [headerSize]
        omega
    · obtain ⟨head, tail, shape, -⟩ := coalesce_head next rest
      have merged := ih others
      rw [shape] at merged ⊢
      exact List.isChain_cons_cons.mpr ⟨first, merged⟩

/-- The address behind some blocks, from the number of those whose size is a multiple of sixteen. -/
theorem HeapAllocator.Blocks.residue {memory : Nat → HeapBlock} {stop low high : Nat}
    {segments : List Segment} (blocks : Blocks memory stop low segments high)
    (eighths : ∀ segment ∈ segments, segment.size % 8 = 0) :
    high % 16 = (low + 8 * segments.countP fun segment => segment.size % 16 = 0) % 16 := by
  -- By induction on the blocks: with its header a block moves the address by eight, or not at all.
  induction segments generalizing low with
  | nil =>
    obtain rfl : low = high := blocks
    rfl
  | cons segment rest ih =>
    have later := ih blocks.2 fun other member => eighths other (List.mem_cons_of_mem _ member)
    have eighth := eighths segment List.mem_cons_self
    rw [List.countP_cons, later, Segment.width, headerSize]
    by_cases sixteenth : segment.size % 16 = 0
    · simp only [sixteenth, decide_true, if_true]
      omega
    · simp only [sixteenth, decide_false, Bool.false_eq_true, if_false]
      omega

namespace HeapState

/-- The blocks own the region, and all but the last have sizes that are multiples of eight. -/
def Even (state : HeapState) (heapStart heapSize : Nat) : Prop :=
  ∃ segments, state.heap.Owns heapStart heapSize segments state.live ∧ Eighths segments

/-- Every call keeps it so. -/
theorem Even.perform {state next : HeapState} {heapStart heapSize : Nat}
    (region : HeapRegion heapStart heapSize) (owned : state.Even heapStart heapSize) {call : HeapCall}
    (allowed : state.Allowed call) (performed : state.perform call = some next) :
    next.Even heapStart heapSize := by
  obtain ⟨segments, owns, eighths⟩ := owned
  have kept : next.Owns heapStart heapSize :=
    HeapState.Owns.perform region ⟨segments, owns⟩ allowed performed
  obtain ⟨segments', owns'⟩ := kept
  refine ⟨segments', owns', ?_⟩
  cases call with
  | allocate pmm size =>
    obtain ⟨answer, returned, rfl⟩ := Option.map_eq_some_iff.mp performed
    rw [Run.toOption_eq_some] at returned
    by_cases zero : size = 0
    · subst zero
      cases returned
      exact Blocks.unique owns.tiled owns'.tiled ▸ eighths
    · rcases owns.allocate_cases region pmm size (Nat.pos_of_ne_zero zero) with
        ⟨-, answered, -⟩ | ⟨before, segment, after, block, rfl, free, fits, front, back, -, answered⟩
      · rw [answered] at returned
        cases returned
        exact Blocks.unique owns.tiled owns'.tiled ▸ eighths
      · rw [answered] at returned
        obtain rfl := Except.ok.inj returned
        have taken := owns.take region front back free fits
        rw [← Blocks.unique taken.tiled owns'.tiled]
        exact eighths.carve _ (by rw [roundUp]; omega)
  | free pmm ptr =>
    obtain ⟨answer, returned, rfl⟩ := Option.map_eq_some_iff.mp performed
    rw [Run.toOption_eq_some] at returned
    obtain ⟨before, segment, after, heap', rfl, -, released, merged, -⟩ :=
      owns.free_cases region pmm allowed List.filter_sublist (not_mem_forgetPointer state.live ptr)
    rw [released] at returned
    obtain rfl := Except.ok.inj returned
    rw [← Blocks.unique merged.tiled owns'.tiled]
    have marked := eighths.release true
    cases shape : before ++ (⟨segment.size, true⟩ : Segment) :: after with
    | nil => exact List.isChain_nil
    | cons first rest =>
      rw [shape] at marked
      exact marked.coalesce

end HeapState

/-- The first block that fits has an odd number of blocks in front whose size is a multiple of sixteen. -/
def HeapAllocator.OddFit (heap : HeapAllocator) (heapStart heapSize size : Nat) : Prop :=
  ∃ before block, Blocks heap.memory (heapStart + heapSize) heapStart before block ∧
    heap.findFreeBlock (roundUp size) (heap.totalSize + 1) heap.firstBlock = .ok block ∧
    (before.countP fun segment => segment.size % 16 = 0) % 2 = 1

/--
A pointer that a request is answered with is aligned and has room for it exactly if rounding the size
does not wrap and an odd number of blocks in front of its block have sizes that are multiples of sixteen.

This is so in every state that a run reaches, if the region starts at a page.
-/
theorem answer_usable_iff {heapStart heapSize : Nat} (region : HeapRegion heapStart heapSize)
    (aligned : heapStart % pageSize = 0) (heap : HeapAllocator) (calls : List HeapCall)
    (state : HeapState)
    (allowed : Calls.AllMeet HeapState.perform HeapState.Allowed
      (HeapState.boot heap heapStart heapSize) calls)
    (ran : (HeapState.boot heap heapStart heapSize).run calls = some state)
    (pmm pmm' : PhysicalMemoryManager) (size ptr : Nat) (word : size < 2 ^ 64) (heap' : HeapAllocator)
    (answered : state.heap.allocate pmm size = .ok (ptr, heap', pmm')) (given : ptr ≠ 0) :
    (ptr % 16 = 0 ∧ size ≤ (heap'.memory (ptr - headerSize)).size) ↔
      size ≤ 2 ^ 64 - 16 ∧ state.heap.OddFit heapStart heapSize size := by
  have booted : (HeapState.boot heap heapStart heapSize).Even heapStart heapSize :=
    ⟨_, initializeHeap_owns heap region, List.isChain_singleton _⟩
  obtain ⟨segments, owns, eighths⟩ := Calls.run_invariant
    (fun state => HeapState.Even state heapStart heapSize)
    (fun _ _ _ kept allowed performed => kept.perform region allowed performed) calls _ _ booted
    allowed ran
  have positive : 0 < size := by
    by_contra zero
    obtain rfl : size = 0 := by omega
    cases answered
    exact given rfl
  rcases owns.allocate_cases region pmm size positive with
    ⟨-, refused, -⟩ | ⟨before, segment, after, block, rfl, free, fits, front, back, found, served⟩
  · rw [refused] at answered
    cases answered
    exact absurd rfl given
  · rw [served] at answered
    obtain ⟨null, changed⟩ := Prod.mk.inj (Except.ok.inj answered)
    obtain ⟨rfl, -⟩ := Prod.mk.inj changed
    have here : ptr = block + headerSize := by
      split at null
      · exact null.symm
      · exact absurd null.symm given
    subst here
    have residue := front.residue eighths.front
    have bounded := region.bounded
    have room := back.2.le
    have wide : headerSize = 24 := rfl
    have page : pageSize = 4096 := rfl
    simp only [Segment.width] at room
    have cut := takeBlock_size rfl back fits (by omega)
    rw [Nat.add_sub_cancel, cut]
    -- The address of the block tells how many blocks in front shift it by eight.
    have odd : state.heap.OddFit heapStart heapSize size ↔
        (before.countP fun segment => segment.size % 16 = 0) % 2 = 1 := by
      constructor
      · rintro ⟨others, block', front', found', odd⟩
        rw [found] at found'
        obtain rfl := Except.ok.inj found'
        rwa [Blocks.unique front front']
      · exact fun odd => ⟨before, block, front, found, odd⟩
    rw [odd]
    rw [page] at aligned
    have rounded : roundUp size = (size + 15) % 2 ^ 64 / 16 * 16 := rfl
    -- A block handed out whole is not large enough either for what has wrapped.
    split
    · omega
    · omega

/-- The second request after boot is answered with an aligned pointer. -/
theorem answer_usable_iff_second : ∃ state : HeapState, ∃ heap' pmm',
    (HeapState.boot blankHeap kernelHeapStart kernelHeapSize).run [.allocate oneFrame 100] =
      some state ∧
    state.heap.allocate oneFrame 200 = .ok (kernelHeapStart + 160, heap', pmm') ∧
    (kernelHeapStart + 160) % 16 = 0 ∧
    200 ≤ (heap'.memory (kernelHeapStart + 160 - headerSize)).size := by
  have ran : (HeapState.boot blankHeap kernelHeapStart kernelHeapSize).run [.allocate oneFrame 100] =
      some ⟨(blankHeap.initializeHeap kernelHeapStart kernelHeapSize).takeBlock kernelHeapStart 112,
        [(kernelHeapStart + headerSize, 112)]⟩ := by rfl
  have answered : ∃ heap' pmm',
      ((blankHeap.initializeHeap kernelHeapStart kernelHeapSize).takeBlock kernelHeapStart 112).allocate
        oneFrame 200 = .ok (kernelHeapStart + 160, heap', pmm') := ⟨_, _, rfl⟩
  obtain ⟨heap', pmm', answered⟩ := answered
  have odd : ((blankHeap.initializeHeap kernelHeapStart kernelHeapSize).takeBlock kernelHeapStart
      112).OddFit kernelHeapStart kernelHeapSize 200 :=
    ⟨[⟨112, false⟩], kernelHeapStart + 136, ⟨rfl, rfl⟩, rfl, rfl⟩
  have usable := (answer_usable_iff kernelHeap_region (by decide) blankHeap [.allocate oneFrame 100] _
    ⟨trivial, fun _ _ => trivial⟩ ran oneFrame pmm' 200 _ (by decide) heap' answered
    (by decide)).mpr ⟨by decide, odd⟩
  exact ⟨_, heap', pmm', ran, answered, usable⟩

/--
The first request after boot is answered with a pointer that is no multiple of sixteen.

A first request for nearly all of the address space is answered with an empty payload.
-/
theorem first_answers_unusable :
    kernelHeapStart % pageSize = 0 ∧ (kernelHeapStart + headerSize) % 16 = 8 ∧
    (∃ heap' pmm', (blankHeap.initializeHeap kernelHeapStart kernelHeapSize).allocate oneFrame 100 =
      .ok (kernelHeapStart + headerSize, heap', pmm')) ∧
    ∃ heap' pmm',
      (blankHeap.initializeHeap kernelHeapStart kernelHeapSize).allocate oneFrame (2 ^ 64 - 1) =
        .ok (kernelHeapStart + headerSize, heap', pmm') ∧
      (heap'.memory kernelHeapStart).size = 0 :=
  ⟨by decide, by decide, ⟨_, _, rfl⟩, _, _, rfl, rfl⟩

end Pocky
