import Pocky.Memory.HeapRuns

/-! Whether the heap's count of used bytes is what its blocks take up. -/

namespace Pocky

open HeapAllocator

/-- Bytes of the payloads that are handed out. -/
def takenBytes (segments : List Segment) : Nat :=
  ((segments.filter fun segment => !segment.free).map Segment.size).sum

/-- Bytes of the payloads that may be handed out. -/
def freeBytes (segments : List Segment) : Nat :=
  ((segments.filter fun segment => segment.free).map Segment.size).sum

/-- Bytes of all headers, and of the payloads that are handed out. -/
def usedBytes (segments : List Segment) : Nat := headerSize * segments.length + takenBytes segments

/-- The first block's payload is counted unless it is free. -/
@[simp] theorem takenBytes_cons (segment : Segment) (rest : List Segment) :
    takenBytes (segment :: rest) = (if segment.free then 0 else segment.size) + takenBytes rest := by
  cases free : segment.free <;> simp [takenBytes, free]

/-- The first block's payload is counted if it is free. -/
@[simp] theorem freeBytes_cons (segment : Segment) (rest : List Segment) :
    freeBytes (segment :: rest) = (if segment.free then segment.size else 0) + freeBytes rest := by
  cases free : segment.free <;> simp [freeBytes, free]

/-- Two runs of blocks count together. -/
@[simp] theorem takenBytes_append (left right : List Segment) :
    takenBytes (left ++ right) = takenBytes left + takenBytes right := by
  simp [takenBytes]

/-- The first block counts with its header. -/
@[simp] theorem usedBytes_cons (segment : Segment) (rest : List Segment) :
    usedBytes (segment :: rest) =
      headerSize + (if segment.free then 0 else segment.size) + usedBytes rest := by
  simp only [usedBytes, takenBytes_cons, List.length_cons, headerSize]
  omega

/-- Two runs of blocks count together, headers included. -/
@[simp] theorem usedBytes_append (left right : List Segment) :
    usedBytes (left ++ right) = usedBytes left + usedBytes right := by
  simp only [usedBytes, takenBytes_append, List.length_append, headerSize]
  omega

/-- Headers and payloads fill the region. -/
theorem HeapAllocator.Blocks.bytes {memory : Nat → HeapBlock} {stop low high : Nat}
    {segments : List Segment} (blocks : Blocks memory stop low segments high) :
    low + (usedBytes segments + freeBytes segments) = high := by
  -- By induction on the blocks, each of which starts where the last one ends.
  induction segments generalizing low with
  | nil =>
    have filled : low = high := blocks
    simpa [usedBytes, takenBytes, freeBytes] using filled
  | cons segment rest ih =>
    have later := ih blocks.2
    simp only [usedBytes_cons, freeBytes_cons, Segment.width] at later ⊢
    cases segment.free
    · simp only [Bool.false_eq_true, if_false]
      omega
    · simp only [if_true]
      omega

/-- Merging does not change what is handed out. -/
theorem takenBytes_coalesce (segment : Segment) (rest : List Segment) :
    takenBytes (coalesce segment rest) = takenBytes (segment :: rest) := by
  -- By induction on the blocks behind: only free ones are merged.
  induction rest generalizing segment with
  | nil => rfl
  | cons next rest ih =>
    unfold coalesce
    split
    · rename_i both
      rw [ih]
      simp [both.1, both.2]
    · rw [takenBytes_cons, ih, takenBytes_cons segment]

/-- The same for a whole list of blocks. -/
theorem takenBytes_coalesceAll (segments : List Segment) :
    takenBytes (coalesceAll segments) = takenBytes segments := by
  cases segments with
  | nil => rfl
  | cons segment rest => exact takenBytes_coalesce segment rest

/-- What is counted when a free block is cut for a request: the block's new size, and a new header. -/
theorem usedBytes_carve (before after : List Segment) {segment : Segment} (size : Nat)
    (free : segment.free = true) :
    usedBytes (before ++ (carve size segment ++ after)) = usedBytes (before ++ segment :: after) +
      if size + headerSize + 32 ≤ segment.size then headerSize + size else segment.size := by
  have none : usedBytes [] = 0 := rfl
  rw [usedBytes_append, usedBytes_append, usedBytes_append, usedBytes_cons, free, carve]
  split
  · simp only [usedBytes_cons, none, Bool.false_eq_true, if_false, if_true]
    omega
  · simp only [usedBytes_cons, none, Bool.false_eq_true, if_false, if_true]
    omega

/-- What the allocator counts when it cuts a block: what was asked for, and a new header. -/
theorem takeBlock_usedMemory {heap : HeapAllocator} {block : Nat} {header : HeapBlock} (size : Nat)
    (stored : heap.memory block = header) (bounded : size + headerSize + 32 < 2 ^ 64) :
    (heap.takeBlock block size).usedMemory = (heap.usedMemory +
      if size + headerSize + 32 ≤ header.size then headerSize + size else size) % 2 ^ 64 := by
  have threshold : (size + headerSize + 32) % 2 ^ 64 = size + headerSize + 32 :=
    Nat.mod_eq_of_lt bounded
  simp only [takeBlock, splitBlock, stored, threshold]
  split
  · simp only [headerSize]
    omega
  · rfl

namespace HeapState

/--
The heap counts exactly what its blocks take up.

So what it calls free is what its free blocks have to give, and the difference does not wrap.
-/
def Accounts (state : HeapState) (heapStart heapSize : Nat) : Prop :=
  ∃ segments, state.heap.Lists heapStart heapSize segments ∧
    state.heap.usedMemory = usedBytes segments ∧
    state.heap.getFreeMemory = freeBytes segments ∧
    state.heap.usedMemory ≤ state.heap.totalSize

/-- The right count of used bytes is all there is to it. -/
theorem accounts_iff (state : HeapState) {heapStart heapSize : Nat} {segments : List Segment}
    (region : HeapRegion heapStart heapSize)
    (owns : state.heap.Owns heapStart heapSize segments state.live) :
    state.Accounts heapStart heapSize ↔ state.heap.usedMemory = usedBytes segments := by
  have lists : state.heap.Lists heapStart heapSize segments := owns.tiled
  constructor
  · rintro ⟨others, lists', counted, -⟩
    rw [counted, Blocks.unique lists lists']
  · intro counted
    have filled := owns.tiled.bytes
    have bounded := region.bounded
    refine ⟨segments, lists, counted, ?_, ?_⟩
    · rw [getFreeMemory, counted, owns.total, wordSub]
      omega
    · rw [counted, owns.total]
      omega

/--
A request that the count survives.

It is for nothing, or no block fits, or the block that fits has the rounded size or is cut to it.
-/
def FitsBlock (state : HeapState) (size : Nat) : Prop :=
  size = 0 ∨ ∃ block, state.heap.findFreeBlock (roundUp size) (state.heap.totalSize + 1)
      state.heap.firstBlock = .ok block ∧
    (block = 0 ∨ (state.heap.memory block).size = roundUp size ∨
      roundUp size + headerSize + 32 ≤ (state.heap.memory block).size)

/-- A call that the count survives; every return of a pointer is one. -/
def Fits (state : HeapState) : HeapCall → Prop
  | .allocate _ size => state.FitsBlock size
  | .free _ _ => True

/-- The count stays exact in a call exactly if the call is one it survives. -/
theorem Accounts.perform_iff {state next : HeapState} {heapStart heapSize : Nat}
    (region : HeapRegion heapStart heapSize) (owned : state.Owns heapStart heapSize)
    (accounts : state.Accounts heapStart heapSize) {call : HeapCall} (allowed : state.Allowed call)
    (performed : state.perform call = some next) :
    next.Accounts heapStart heapSize ↔ state.Fits call := by
  obtain ⟨segments, owns⟩ := owned
  have counted := (accounts_iff state region owns).mp accounts
  have bounded := region.bounded
  cases call with
  | allocate pmm size =>
    obtain ⟨answer, returned, rfl⟩ := Option.map_eq_some_iff.mp performed
    rw [Run.toOption_eq_some] at returned
    by_cases zero : size = 0
    · subst zero
      cases returned
      exact ⟨fun _ => Or.inl rfl, fun _ => accounts⟩
    · rcases owns.allocate_cases region pmm size (Nat.pos_of_ne_zero zero) with
        ⟨absent, answered, -⟩ | ⟨before, segment, after, block, rfl, free, fits, front, back, found,
          answered⟩
      · -- No block fits, and nothing changes.
        rw [answered] at returned
        cases returned
        exact ⟨fun _ => Or.inr ⟨0, absent, Or.inl rfl⟩, fun _ => accounts⟩
      · rw [answered] at returned
        obtain rfl := Except.ok.inj returned
        have taken := owns.take region front back free fits
        have positive := region.positive
        have low := front.le
        have room := back.2.le
        have header : state.heap.memory block = _ := back.1
        have wide : headerSize = 24 := rfl
        simp only [Segment.width] at room
        have condition : state.FitsBlock size ↔
            segment.size = roundUp size ∨ roundUp size + headerSize + 32 ≤ segment.size := by
          simp only [FitsBlock, found, Except.ok.injEq, exists_eq_left', header, zero, false_or,
            show block ≠ 0 by omega]
        have before' := usedBytes_carve before after (roundUp size) free
        have whole := taken.tiled.bytes
        have now := takeBlock_usedMemory (roundUp size) header (by omega)
        have after' : HeapState.Accounts ⟨state.heap.takeBlock block (roundUp size),
            recordAnswer state.live (if (takeFrames block (numPages (roundUp size)) 0 pmm).1 then
              block + headerSize else 0) (roundUp size)⟩ heapStart heapSize ↔
            (state.heap.takeBlock block (roundUp size)).usedMemory =
              usedBytes (before ++ (carve (roundUp size) segment ++ after)) :=
          accounts_iff ⟨state.heap.takeBlock block (roundUp size), state.live⟩ region taken
        rw [after', Fits, condition, now, before', counted]
        rw [before'] at whole
        -- Both counts grow by the request, unless a larger block is handed out whole.
        split at whole
        · rename_i split
          simp only [if_pos split]
          omega
        · rename_i whole'
          simp only [if_neg whole']
          omega
  | free pmm ptr =>
    obtain ⟨answer, returned, rfl⟩ := Option.map_eq_some_iff.mp performed
    rw [Run.toOption_eq_some] at returned
    obtain ⟨before, segment, after, heap', rfl, inUse, released, owns', reduced,
      word⟩ :=
      owns.free_cases region pmm allowed List.filter_sublist (not_mem_forgetPointer state.live ptr)
    rw [released] at returned
    obtain rfl := Except.ok.inj returned
    refine ⟨fun _ => trivial, fun _ => ?_⟩
    have before' := owns.tiled.bytes
    have now := owns'.tiled.bytes
    have same := takenBytes_coalesceAll (before ++ ⟨segment.size, true⟩ :: after)
    refine (accounts_iff ⟨heap', forgetPointer state.live ptr⟩ region owns').mpr ?_
    -- The payload is counted no more, nor are the headers that were merged away.
    simp only [takenBytes_append, takenBytes_cons, if_true] at same
    simp only [counted, usedBytes, takenBytes_append, takenBytes_cons, inUse, Bool.false_eq_true,
      if_false, wordSub, headerSize] at reduced before' now ⊢
    omega

/--
The count is exact in every state reached by calls it survives, and one more call keeps it exact only
if it is one of them.
-/
theorem heap_accounting_run {heapStart heapSize : Nat} (region : HeapRegion heapStart heapSize)
    (heap : HeapAllocator) (calls : List HeapCall) (state : HeapState)
    (fitting : Calls.AllMeet HeapState.perform (fun state call => state.Allowed call ∧ state.Fits call)
      (boot heap heapStart heapSize) calls)
    (ran : (boot heap heapStart heapSize).run calls = some state) :
    state.Accounts heapStart heapSize ∧ ∀ call next, state.Allowed call →
      state.perform call = some next → (next.Accounts heapStart heapSize ↔ state.Fits call) := by
  have booted : (boot heap heapStart heapSize).Accounts heapStart heapSize := by
    refine (accounts_iff _ region (initializeHeap_owns heap region)).mpr ?_
    simp [boot, initializeHeap, usedBytes, takenBytes]
  have both := Calls.run_invariant
    (fun state => state.Owns heapStart heapSize ∧ state.Accounts heapStart heapSize)
    (fun _ _ _ kept condition performed => ⟨kept.1.perform region condition.1 performed,
      (kept.2.perform_iff region kept.1 condition.1 performed).mpr condition.2⟩) calls _ _
    ⟨⟨_, initializeHeap_owns heap region⟩, booted⟩ fitting ran
  exact ⟨both.2, fun call next allowed performed =>
    both.2.perform_iff region both.1 allowed performed⟩

/-- A request for a hundred bytes after boot is counted exactly. -/
theorem heap_accounting_run_one_request : ∃ state : HeapState,
    (boot blankHeap kernelHeapStart kernelHeapSize).run [.allocate oneFrame 100] = some state ∧
      state.heap.usedMemory = 160 ∧ state.Accounts kernelHeapStart kernelHeapSize := by
  have fits : (boot blankHeap kernelHeapStart kernelHeapSize).FitsBlock 100 :=
    Or.inr ⟨kernelHeapStart, by rfl, Or.inr (Or.inr (by decide))⟩
  have ran : (boot blankHeap kernelHeapStart kernelHeapSize).run [.allocate oneFrame 100] =
      some ⟨(blankHeap.initializeHeap kernelHeapStart kernelHeapSize).takeBlock kernelHeapStart 112,
        [(kernelHeapStart + headerSize, 112)]⟩ := by rfl
  exact ⟨_, ran, by rfl, (heap_accounting_run kernelHeap_region blankHeap [.allocate oneFrame 100] _
    ⟨⟨trivial, fits⟩, fun _ _ => trivial⟩ ran).1⟩

/-- A block of 128 bytes handed out for 112 is counted as 112. -/
theorem heap_accounting_drifts : ∃ state : HeapState,
    (boot blankHeap kernelHeapStart kernelHeapSize).run
      [.allocate oneFrame 128, .allocate oneFrame 16, .free oneFrame (kernelHeapStart + headerSize),
        .allocate oneFrame 100] = some state ∧
      (state.live.map Prod.fst) = [kernelHeapStart + headerSize, kernelHeapStart + 176] ∧
      state.heap.Lists kernelHeapStart kernelHeapSize
        [⟨128, false⟩, ⟨16, false⟩, ⟨kernelHeapSize - 216, true⟩] ∧
      state.heap.usedMemory = 200 ∧ ¬ state.Accounts kernelHeapStart kernelHeapSize := by
  have reached : ∃ state : HeapState,
      (boot blankHeap kernelHeapStart kernelHeapSize).run
        [.allocate oneFrame 128, .allocate oneFrame 16, .free oneFrame (kernelHeapStart + headerSize),
          .allocate oneFrame 100] = some state ∧
        (state.live.map Prod.fst) = [kernelHeapStart + headerSize, kernelHeapStart + 176] ∧
        state.heap.Lists kernelHeapStart kernelHeapSize
          [⟨128, false⟩, ⟨16, false⟩, ⟨kernelHeapSize - 216, true⟩] ∧
        state.heap.usedMemory = 200 :=
    ⟨_, rfl, rfl, ⟨rfl, rfl, rfl, rfl⟩, rfl⟩
  obtain ⟨state, ran, live, lists, used⟩ := reached
  refine ⟨state, ran, live, lists, used, ?_⟩
  rintro ⟨segments, lists', counted, -⟩
  -- The headers take 72 bytes and the payloads 144.
  rw [Blocks.unique lists' lists, used] at counted
  simp [usedBytes, takenBytes, headerSize] at counted

end HeapState

end Pocky
