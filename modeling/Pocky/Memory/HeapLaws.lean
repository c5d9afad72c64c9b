import Pocky.Lib.Tiling
import Pocky.Memory.Heap
import Pocky.Memory.PhysicalMemoryLaws
import Mathlib.Data.List.Chain
import Mathlib.Data.List.Nodup

/-! The heap's linked headers always tile its region, with free neighbours merged. -/

namespace Pocky

/-- A block as the list of blocks sees it, without its links. -/
structure Segment where
  /-- Bytes of payload. -/
  size : Nat
  /-- Whether the payload may be handed out. -/
  free : Bool
  deriving Repr, DecidableEq

/-- Bytes a segment takes up, header included. -/
def Segment.width (segment : Segment) : Nat := headerSize + segment.size

namespace HeapAllocator

/-- A pointer to the header at an address, null once the address is the end of the region. -/
def link (stop addr : Nat) : Nat := if addr = stop then 0 else addr

/-- The header stored at an address describes this segment and links to what follows it. -/
def HeaderAt (memory : Nat → HeapBlock) (stop addr : Nat) (segment : Segment) : Prop :=
  memory addr =
    { size := segment.size, free := segment.free, next := link stop (addr + segment.width) }

/-- The linked headers from one address to another are exactly these segments. -/
abbrev Blocks (memory : Nat → HeapBlock) (stop low : Nat) (segments : List Segment) (high : Nat) :
    Prop :=
  Tiles (HeaderAt memory stop) Segment.width low segments high

/-- A segment is never empty, since its header takes room. -/
theorem Segment_width_pos (segment : Segment) : 0 < segment.width := by
  simp [Segment.width, headerSize]

/-- Headers outside an interval do not matter for the blocks inside it. -/
theorem Blocks.congr {memory memory' : Nat → HeapBlock} {stop low high : Nat}
    {segments : List Segment} (blocks : Blocks memory stop low segments high)
    (same : ∀ addr, low ≤ addr → addr < high → memory' addr = memory addr) :
    Blocks memory' stop low segments high := by
  refine Tiles.imp blocks fun addr segment above below here => ?_
  have := Segment_width_pos segment
  exact (same addr above (by omega)).trans here

/-- The first-fit walk over tiled blocks finds a fitting free block, or there is none. -/
theorem findFreeBlock_spec {heap : HeapAllocator} {stop : Nat} (size : Nat)
    {segments : List Segment} {low steps : Nat} (blocks : Blocks heap.memory stop low segments stop) (positive : 0 < low)
    (enough : segments.length < steps) :
    (heap.findFreeBlock size steps (link stop low) = .ok 0 ∧
      ∀ segment ∈ segments, segment.free = true → segment.size < size) ∨
    ∃ before segment after block, segments = before ++ segment :: after ∧
      segment.free = true ∧ size ≤ segment.size ∧
      Blocks heap.memory stop low before block ∧
      Blocks heap.memory stop block (segment :: after) stop ∧
      heap.findFreeBlock size steps (link stop low) = .ok block := by
  induction segments generalizing low steps with
  | nil =>
    -- The walk has reached the null link.
    obtain ⟨steps, rfl⟩ : ∃ k, steps = k + 1 := ⟨steps - 1, by simp at enough; omega⟩
    have atEnd : low = stop := blocks
    left
    simp [findFreeBlock, link, atEnd]
  | cons segment rest ih =>
    obtain ⟨steps, rfl⟩ : ∃ k, steps = k + 1 := ⟨steps - 1, by simp at enough; omega⟩
    have header : heap.memory low = _ := blocks.1
    have room := blocks.2.le
    have wide := Segment_width_pos segment
    have here : link stop low = low := if_neg (by omega)
    have nonzero : low ≠ 0 := by omega
    rw [here]
    by_cases fits : segment.free = true ∧ size ≤ segment.size
    · right
      refine ⟨[], segment, rest, low, rfl, fits.1, fits.2, rfl, blocks, ?_⟩
      simp [findFreeBlock, nonzero, header, fits.1, fits.2]
    · -- This block does not fit, so the walk follows its link.
      have step : heap.findFreeBlock size (steps + 1) low =
          heap.findFreeBlock size steps (link stop (low + segment.width)) := by
        simp only [findFreeBlock, if_neg nonzero, header]
        exact if_neg fits
      rw [step]
      rcases ih blocks.2 (by omega) (by simpa using enough) with
        ⟨absent, none⟩ | ⟨before, found, after, block, rfl, free, large, tiles, back, walk⟩
      · refine Or.inl ⟨absent, fun other member free => ?_⟩
        rcases List.mem_cons.mp member with rfl | member
        · by_contra large
          exact fits ⟨free, by omega⟩
        · exact none other member free
      · exact Or.inr ⟨segment :: before, found, after, block, rfl, free, large,
          ⟨blocks.1, tiles⟩, back, walk⟩

/-- What a free block becomes when a payload of the given size is taken from it. -/
def carve (size : Nat) (segment : Segment) : List Segment :=
  if size + headerSize + 32 ≤ segment.size then
    [⟨size, false⟩, ⟨segment.size - size - headerSize, true⟩]
  else [⟨segment.size, false⟩]

/-- The memory after splitting a block and marking its front used. -/
def takeBlock (heap : HeapAllocator) (block size : Nat) : HeapAllocator :=
  let split := heap.splitBlock block size
  { split with
    memory := Function.update split.memory block { split.memory block with free := false }
    usedMemory := (split.usedMemory + size) % 2 ^ 64 }

/-- A block with room to spare becomes the request followed by a new free header. -/
theorem takeBlock_memory_split {heap : HeapAllocator} {block size : Nat} {header : HeapBlock}
    (stored : heap.memory block = header) (large : size + headerSize + 32 ≤ header.size)
    (bounded : block + headerSize + header.size + headerSize + 32 ≤ 2 ^ 64) :
    (heap.takeBlock block size).memory =
      Function.update
        (Function.update heap.memory (block + (headerSize + size))
          { size := header.size - size - headerSize, free := true, next := header.next })
        block { size := size, free := false, next := block + (headerSize + size) } := by
  have threshold : (size + headerSize + 32) % 2 ^ 64 = size + headerSize + 32 := by
    simp only [headerSize] at *; omega
  have newBlock : (block + headerSize + size) % 2 ^ 64 = block + (headerSize + size) := by
    simp only [headerSize] at *; omega
  have remainder : wordSub (wordSub header.size size) headerSize =
      header.size - size - headerSize := by
    simp only [wordSub, headerSize] at *; omega
  simp only [takeBlock, splitBlock, stored, threshold, if_pos large, newBlock, remainder,
    Function.update_self, Function.update_idem]

/-- A block without room to spare is handed out whole. -/
theorem takeBlock_memory_whole {heap : HeapAllocator} {block size : Nat} {header : HeapBlock}
    (stored : heap.memory block = header) (small : ¬ size + headerSize + 32 ≤ header.size)
    (bounded : size + headerSize + 32 < 2 ^ 64) :
    (heap.takeBlock block size).memory =
      Function.update heap.memory block { header with free := false } := by
  have threshold : (size + headerSize + 32) % 2 ^ 64 = size + headerSize + 32 :=
    Nat.mod_eq_of_lt bounded
  simp only [takeBlock, splitBlock, stored, threshold, if_neg small]

/-- Taking a fitting free block replaces that one segment by its carved pieces. -/
theorem takeBlock_blocks {heap : HeapAllocator} {stop low block size : Nat}
    {before after : List Segment} {segment : Segment}
    (front : Blocks heap.memory stop low before block)
    (back : Blocks heap.memory stop block (segment :: after) stop)
    (fits : size ≤ segment.size) (bounded : stop + headerSize + 32 ≤ 2 ^ 64) :
    Blocks (heap.takeBlock block size).memory stop low
      (before ++ (carve size segment ++ after)) stop := by
  obtain ⟨header, rest⟩ := back
  have room := rest.le
  have wide : headerSize = 24 := rfl
  simp only [Segment.width] at room
  unfold carve
  split
  · rename_i large
    rw [takeBlock_memory_split header large (by simp only; omega)]
    have sizes : headerSize + size + (headerSize + (segment.size - size - headerSize)) =
        headerSize + segment.size := by
      omega
    refine Tiles.append.mpr ⟨block, front.congr fun addr _ below => ?_, ?_, ?_, ?_⟩
    · rw [Function.update_of_ne (by omega), Function.update_of_ne (by omega)]
    · have inner : link stop (block + (headerSize + size)) = block + (headerSize + size) :=
        if_neg (by omega)
      rw [HeaderAt, Function.update_self, Segment.width, inner]
    · -- The new header sits strictly inside the old block's payload.
      show Function.update _ block _ (block + (headerSize + size)) = _
      rw [Function.update_of_ne (by omega), Function.update_self]
      simp only [Segment.width, Nat.add_assoc, sizes]
    · show Tiles _ _ (block + (headerSize + size) +
        (headerSize + (segment.size - size - headerSize))) after stop
      rw [Nat.add_assoc, sizes]
      refine Blocks.congr rest fun addr above _ => ?_
      rw [Function.update_of_ne (by omega), Function.update_of_ne (by omega)]
  · rename_i small
    rw [takeBlock_memory_whole header small (by omega)]
    refine Tiles.append.mpr ⟨block, front.congr fun addr _ below => ?_, ?_, ?_⟩
    · rw [Function.update_of_ne (by omega)]
    · rw [HeaderAt, Function.update_self]
      rfl
    · refine Blocks.congr rest fun addr above _ => ?_
      simp only [Segment.width] at above
      rw [Function.update_of_ne (by omega)]

/-- What the merge loop makes of a block and the blocks after it. -/
def coalesce (segment : Segment) : List Segment → List Segment
  | [] => [segment]
  | next :: rest =>
    if segment.free = true ∧ next.free = true then
      coalesce ⟨segment.size + (headerSize + next.size), true⟩ rest
    else segment :: coalesce next rest

/-- Two neighbours are not both free. -/
def Separated (left right : Segment) : Prop := ¬ (left.free = true ∧ right.free = true)

/-- Merging leaves the first block's flag as it was. -/
theorem coalesce_head (segment : Segment) (rest : List Segment) :
    ∃ head tail, coalesce segment rest = head :: tail ∧ head.free = segment.free := by
  induction rest generalizing segment with
  | nil => exact ⟨segment, [], rfl, rfl⟩
  | cons next rest ih =>
    unfold coalesce
    split
    · rename_i both
      obtain ⟨head, tail, shape, flag⟩ := ih ⟨segment.size + (headerSize + next.size), true⟩
      exact ⟨head, tail, shape, flag.trans both.1.symm⟩
    · exact ⟨segment, coalesce next rest, rfl, rfl⟩

/-- After merging, no two neighbours are both free. -/
theorem coalesce_separated (segment : Segment) (rest : List Segment) :
    (coalesce segment rest).IsChain Separated := by
  induction rest generalizing segment with
  | nil => exact List.isChain_singleton _
  | cons next rest ih =>
    unfold coalesce
    split
    · exact ih _
    · rename_i apart
      obtain ⟨head, tail, shape, flag⟩ := coalesce_head next rest
      have chain := ih next
      rw [shape] at chain ⊢
      refine List.isChain_cons_cons.mpr ⟨?_, chain⟩
      rw [Separated, flag]
      exact apart

/-- A block in use keeps its place through merging. -/
theorem located_coalesce {segment : Segment} {rest : List Segment} {low addr : Nat} {used : Segment}
    (member : (addr, used) ∈ located Segment.width low (segment :: rest))
    (inUse : used.free = false) :
    (addr, used) ∈ located Segment.width low (coalesce segment rest) := by
  induction rest generalizing segment low with
  | nil => exact member
  | cons next rest ih =>
    unfold coalesce
    split
    · -- Neither merged block is the one in use, and the wider block ends at the same address.
      rename_i both
      have width : low + Segment.width ⟨segment.size + (headerSize + next.size), true⟩ =
          low + segment.width + next.width := by
        simp only [Segment.width]; omega
      apply ih
      simp only [located, List.mem_cons, width] at member ⊢
      rcases member with same | same | member
      · obtain ⟨-, rfl⟩ := Prod.mk.inj same
        rw [inUse] at both
        exact absurd both.1 (by simp)
      · obtain ⟨-, rfl⟩ := Prod.mk.inj same
        rw [inUse] at both
        exact absurd both.2 (by simp)
      · exact Or.inr member
    · rcases List.mem_cons.mp member with same | later
      · exact List.mem_cons.mpr (Or.inl same)
      · exact List.mem_cons.mpr (Or.inr (ih later))

/-- The merge loop over tiled blocks ends and leaves the merged blocks tiled. -/
theorem mergeFreeBlocks_spec (heap : HeapAllocator) {stop low steps : Nat} {segment : Segment}
    {rest : List Segment} (blocks : Blocks heap.memory stop low (segment :: rest) stop)
    (positive : 0 < low) (bounded : stop < 2 ^ 64) (enough : rest.length < steps) :
    ∃ merged, heap.mergeFreeBlocks steps low = .ok merged ∧
      Blocks merged.memory stop low (coalesce segment rest) stop ∧
      merged.firstBlock = heap.firstBlock ∧ merged.totalSize = heap.totalSize ∧
      (∀ addr < low, merged.memory addr = heap.memory addr) ∧
      (merged.usedMemory + headerSize * (rest.length + 1)) % 2 ^ 64 =
        (heap.usedMemory + headerSize * (coalesce segment rest).length) % 2 ^ 64 ∧
      (heap.usedMemory < 2 ^ 64 → merged.usedMemory < 2 ^ 64) := by
  induction rest generalizing heap low steps segment with
  | nil =>
    obtain ⟨steps, rfl⟩ : ∃ k, steps = k + 1 := ⟨steps - 1, by omega⟩
    have header : heap.memory low = _ := blocks.1
    have atEnd : low + segment.width = stop := blocks.2
    refine ⟨heap, ?_, blocks, rfl, rfl, fun _ _ => rfl, rfl, id⟩
    simp [mergeFreeBlocks, header, link, atEnd]
  | cons next rest ih =>
    obtain ⟨steps, rfl⟩ : ∃ k, steps = k + 1 := ⟨steps - 1, by simp at enough; omega⟩
    obtain ⟨header, nextHeader, tail⟩ := blocks
    have header : heap.memory low = _ := header
    have nextHeader : heap.memory (low + segment.width) = _ := nextHeader
    have room := tail.le
    have wide := Segment_width_pos segment
    have wideNext := Segment_width_pos next
    have linked : link stop (low + segment.width) = low + segment.width := if_neg (by omega)
    rw [linked] at header
    have goOn : ¬ (low = 0 ∨ (heap.memory low).next = 0) := by
      rw [header]; simp only; omega
    rw [mergeFreeBlocks, if_neg goOn]
    simp only [header, nextHeader]
    unfold coalesce
    split
    · -- The widened header reaches to where its neighbour did.
      rename_i both
      simp only [Segment.width] at room
      have size : (segment.size + (headerSize + next.size)) % 2 ^ 64 =
          segment.size + (headerSize + next.size) := Nat.mod_eq_of_lt (by omega)
      have reach : low + Segment.width ⟨segment.size + (headerSize + next.size), true⟩ =
          low + segment.width + next.width := by
        simp only [Segment.width]; omega
      rw [size]
      have widened : Blocks
          (Function.update heap.memory low
            { size := segment.size + (headerSize + next.size), free := segment.free,
              next := link stop (low + segment.width + next.width) })
          stop low (⟨segment.size + (headerSize + next.size), true⟩ :: rest) stop := by
        refine ⟨(Function.update_self _ _ _).trans (by rw [reach, both.1]), ?_⟩
        rw [reach]
        refine Blocks.congr tail fun addr above _ => ?_
        exact Function.update_of_ne (by omega) _ _
      have shorter : rest.length < steps := by simpa using enough
      obtain ⟨merged, walk, tiled, first, total, kept, counted, word⟩ := ih
        { heap with
          memory := Function.update heap.memory low
            { size := segment.size + (headerSize + next.size), free := segment.free,
              next := link stop (low + segment.width + next.width) }
          usedMemory := wordSub heap.usedMemory headerSize }
        widened positive shorter
      refine ⟨merged, walk, tiled, first, total, fun addr below => ?_, ?_, fun _ => word ?_⟩
      · rw [kept addr below]
        exact Function.update_of_ne (by omega) _ _
      · -- One header fewer is counted, and one is gone.
        simp only [wordSub, headerSize, List.length_cons] at counted ⊢
        omega
      · exact Nat.mod_lt _ (by decide)
    · have shorter : rest.length < steps := by simpa using enough
      obtain ⟨merged, walk, tiled, first, total, kept, counted, word⟩ :=
        ih heap ⟨nextHeader, tail⟩ (by omega) shorter
      refine ⟨merged, walk, ⟨?_, tiled⟩, first, total, fun addr below => kept addr (by omega), ?_, word⟩
      · rw [HeaderAt, kept low (by omega), header, linked]
      · simp only [headerSize, List.length_cons] at counted ⊢
        omega

end HeapAllocator

open HeapAllocator

/-- A region a heap can live in: room for one header, above address zero, clear of the word limit. -/
structure HeapRegion (heapStart heapSize : Nat) : Prop where
  /-- The first header is not at the null address. -/
  positive : 0 < heapStart
  /-- At least the first header fits. -/
  header : headerSize ≤ heapSize
  /-- No size computed for a block of the region wraps. -/
  bounded : heapStart + heapSize + headerSize + 32 ≤ 2 ^ 64

/--
The blocks a heap in a given region consists of, seen with the pointers clients hold.

Each held pointer comes with the size it was requested for.
-/
structure HeapAllocator.Owns (heap : HeapAllocator) (heapStart heapSize : Nat)
    (segments : List Segment) (live : List (Nat × Nat)) : Prop where
  /-- The list starts at the start of the region. -/
  first : heap.firstBlock = heapStart
  /-- The recorded size is the region's. -/
  total : heap.totalSize = heapSize
  /-- The linked headers tile the whole region. -/
  tiled : Blocks heap.memory (heapStart + heapSize) heapStart segments (heapStart + heapSize)
  /-- No two neighbouring blocks are both free. -/
  separated : segments.IsChain Separated
  /-- Every held pointer is the payload of a block in use that is large enough. -/
  held : ∀ ptr size, (ptr, size) ∈ live → ∃ addr segment,
    (addr, segment) ∈ located Segment.width heapStart segments ∧
      segment.free = false ∧ size ≤ segment.size ∧ ptr = addr + headerSize
  /-- No pointer is held twice. -/
  distinct : (live.map Prod.fst).Nodup

/-- The heap right after set-up is one free block with no pointer held. -/
theorem initializeHeap_owns (heap : HeapAllocator) {heapStart heapSize : Nat}
    (region : HeapRegion heapStart heapSize) :
    (heap.initializeHeap heapStart heapSize).Owns heapStart heapSize
      [⟨heapSize - headerSize, true⟩] [] := by
  have header := region.header
  have bounded := region.bounded
  have size : wordSub heapSize headerSize = heapSize - headerSize := by
    unfold wordSub; omega
  have reach : heapStart + Segment.width ⟨heapSize - headerSize, true⟩ = heapStart + heapSize := by
    simp only [Segment.width]; omega
  refine ⟨rfl, rfl, ⟨?_, reach⟩, List.isChain_singleton _, ?_, List.nodup_nil⟩
  · refine (Function.update_self _ _ _).trans ?_
    rw [size, reach, link, if_pos rfl]
  · intro ptr size member
    simp at member

/-- A tiled region has at least one block. -/
theorem HeapAllocator.Owns.exists_cons {heap : HeapAllocator} {heapStart heapSize : Nat}
    {segments : List Segment} {live : List (Nat × Nat)} (region : HeapRegion heapStart heapSize)
    (owns : heap.Owns heapStart heapSize segments live) :
    ∃ segment rest, segments = segment :: rest := by
  cases segments with
  | nil =>
    have filled : heapStart = heapStart + heapSize := owns.tiled
    have header := region.header
    simp only [headerSize] at header
    omega
  | cons segment rest => exact ⟨segment, rest, rfl⟩

/-- Requests in the admitted range round up without wrapping. -/
theorem le_roundUp {size : Nat} (bounded : size ≤ 2 ^ 64 - 16) : size ≤ roundUp size := by
  unfold roundUp
  omega

/-- Enough free frames serve every page of a request. -/
theorem takeFrames_available {block pages taken : Nat} {pmm : PhysicalMemoryManager}
    (consistent : pmm.Consistent) (available : pages ≤ pmm.freeFrames) :
    (takeFrames block pages taken pmm).1 = true := by
  induction pages generalizing taken pmm with
  | zero => rfl
  | succ pages ih =>
    rcases consistent.allocateFrame_cases with ⟨empty, -⟩ | ⟨frame, free, -, served⟩
    · rw [consistent.counted, empty, Finset.card_empty] at available
      omega
    · have nonzero : pmm.memoryStart + pageSize * frame ≠ 0 := by
        have := consistent.positive
        omega
      have left : pages ≤ wordSub pmm.freeFrames 1 := by
        have := consistent.freeFrames_le
        have := consistent.totalFrames_lt
        rw [PhysicalMemoryManager.wordSub_one (by omega) (by omega)]
        omega
      simp only [takeFrames, served, if_neg nonzero]
      exact ih (consistent.take free) left

/-- Carving a free block keeps free neighbours apart. -/
theorem separated_carve {before after : List Segment} {segment : Segment} (size : Nat)
    (free : segment.free = true)
    (separated : (before ++ segment :: after).IsChain Separated) :
    (before ++ (carve size segment ++ after)).IsChain Separated := by
  obtain ⟨front, back, joint⟩ := List.isChain_append.mp separated
  -- A block in use may stand next to anything, and only the carved tail is free.
  have usedLeft : ∀ {n : Nat} {other : Segment}, Separated ⟨n, false⟩ other := by
    intro n other both
    exact Bool.noConfusion both.1
  have usedRight : ∀ {n : Nat} {other : Segment}, Separated other ⟨n, false⟩ := by
    intro n other both
    exact Bool.noConfusion both.2
  have tail : ∀ (flag : Bool) (n : Nat), (flag = true → segment.free = true) →
      ((⟨n, flag⟩ : Segment) :: after).IsChain Separated := by
    intro flag n implied
    cases after with
    | nil => exact List.isChain_singleton _
    | cons next rest =>
      obtain ⟨apart, rest⟩ := List.isChain_cons_cons.mp back
      refine List.isChain_cons_cons.mpr ⟨fun both => apart ⟨implied both.1, both.2⟩, rest⟩
  refine List.isChain_append.mpr ⟨front, ?_, ?_⟩
  · unfold carve
    split
    · exact List.isChain_cons_cons.mpr ⟨usedLeft, tail true _ fun _ => free⟩
    · exact tail false _ fun wrong => Bool.noConfusion wrong
  · unfold carve
    split
    · intro left _ right first
      obtain rfl : _ = right := by simpa using first
      exact usedRight
    · intro left _ right first
      obtain rfl : _ = right := by simpa using first
      exact usedRight

/-- Blocks in use other than the carved one keep their place. -/
theorem located_carve {memory : Nat → HeapBlock} {stop low block addr size : Nat}
    {before after : List Segment} {segment used : Segment}
    (front : Blocks memory stop low before block) (free : segment.free = true)
    (member : (addr, used) ∈ located Segment.width low (before ++ segment :: after))
    (inUse : used.free = false) :
    (addr, used) ∈ located Segment.width low (before ++ (carve size segment ++ after)) := by
  rw [front.located_append] at member ⊢
  rcases List.mem_append.mp member with early | late
  · exact List.mem_append.mpr (Or.inl early)
  · refine List.mem_append.mpr (Or.inr ?_)
    rcases List.mem_cons.mp late with same | late
    · obtain ⟨-, rfl⟩ := Prod.mk.inj same
      rw [free] at inUse
      exact Bool.noConfusion inUse
    · -- The pieces are exactly as wide as the block they replace.
      unfold carve
      split
      · rename_i large
        have width : block + Segment.width ⟨size, false⟩ +
            Segment.width ⟨segment.size - size - headerSize, true⟩ = block + segment.width := by
          simp only [Segment.width, headerSize] at *; omega
        simp only [List.cons_append, List.nil_append, located, width]
        exact List.mem_cons_of_mem _ (List.mem_cons_of_mem _ late)
      · exact List.mem_cons_of_mem _ late

/-- The carved block itself is in use, large enough, and starts where the old one did. -/
theorem carve_located {memory : Nat → HeapBlock} {stop low block size : Nat}
    {before : List Segment} (after : List Segment) {segment : Segment}
    (front : Blocks memory stop low before block) (fits : size ≤ segment.size) :
    ∃ used : Segment, used.free = false ∧ size ≤ used.size ∧
      (block, used) ∈ located Segment.width low (before ++ (carve size segment ++ after)) := by
  rw [front.located_append]
  unfold carve
  split
  · exact ⟨⟨size, false⟩, rfl, Nat.le_refl _, by simp [located]⟩
  · exact ⟨⟨segment.size, false⟩, rfl, fits, by simp [located]⟩

/--
A request either finds no free block large enough and changes nothing, or carves one.

The carved block is in use afterwards even when the frames then run out.
-/
theorem HeapAllocator.Owns.allocate_cases {heap : HeapAllocator} {heapStart heapSize : Nat}
    {segments : List Segment} {live : List (Nat × Nat)} (region : HeapRegion heapStart heapSize)
    (owns : heap.Owns heapStart heapSize segments live) (pmm : PhysicalMemoryManager) (size : Nat)
    (positive : 1 ≤ size) :
    (heap.findFreeBlock (roundUp size) (heap.totalSize + 1) heap.firstBlock = .ok 0 ∧
      heap.allocate pmm size = .ok (0, heap, pmm) ∧
      ∀ segment ∈ segments, segment.free = true → segment.size < roundUp size) ∨
    ∃ before segment after block, segments = before ++ segment :: after ∧
      segment.free = true ∧ roundUp size ≤ segment.size ∧
      Blocks heap.memory (heapStart + heapSize) heapStart before block ∧
      Blocks heap.memory (heapStart + heapSize) block (segment :: after) (heapStart + heapSize) ∧
      heap.findFreeBlock (roundUp size) (heap.totalSize + 1) heap.firstBlock = .ok block ∧
      heap.allocate pmm size = .ok
        (if (takeFrames block (numPages (roundUp size)) 0 pmm).1 then block + headerSize else 0,
          heap.takeBlock block (roundUp size),
          (takeFrames block (numPages (roundUp size)) 0 pmm).2) := by
  obtain ⟨head, rest, shape⟩ := owns.exists_cons region
  have bounded := region.bounded
  have steps : segments.length < heap.totalSize + 1 := by
    have := owns.tiled.length_le Segment_width_pos
    rw [owns.total]
    omega
  have start : heap.firstBlock = link (heapStart + heapSize) heapStart := by
    have := region.header
    simp only [headerSize] at this
    rw [owns.first, link, if_neg (by omega)]
  rcases findFreeBlock_spec (roundUp size) owns.tiled region.positive steps with
    ⟨absent, none⟩ | ⟨before, segment, after, block, cut, free, fits, front, back, found⟩
  · left
    refine ⟨by rw [start, absent], ?_, none⟩
    rw [allocate, if_neg (by omega)]
    dsimp only
    rw [start, absent]
    rfl
  · right
    have within : heapStart ≤ block := front.le
    have nonzero : block ≠ 0 := by have := region.positive; omega
    have room := back.2.le
    simp only [Segment.width] at room
    have address : (block + headerSize) % 2 ^ 64 = block + headerSize := Nat.mod_eq_of_lt (by omega)
    refine ⟨before, segment, after, block, cut, free, fits, front, back, by rw [start, found], ?_⟩
    rw [allocate, if_neg (by omega)]
    dsimp only
    rw [start, found]
    simp only [Run.ok_bind, if_neg nonzero, address]
    cases frames : takeFrames block (numPages (roundUp size)) 0 pmm with
    | mk served pmm' =>
      cases served <;> rfl

/-- Splitting and marking a block leaves the heap's region alone. -/
theorem takeBlock_region (heap : HeapAllocator) (block size : Nat) :
    (heap.takeBlock block size).firstBlock = heap.firstBlock ∧
      (heap.takeBlock block size).totalSize = heap.totalSize := by
  unfold takeBlock splitBlock
  dsimp only
  split <;> exact ⟨rfl, rfl⟩

/-- Taking a fitting free block keeps every held pointer's block where it is. -/
theorem HeapAllocator.Owns.take {heap : HeapAllocator} {heapStart heapSize block size : Nat}
    {before after : List Segment} {segment : Segment} {live : List (Nat × Nat)}
    (region : HeapRegion heapStart heapSize)
    (owns : heap.Owns heapStart heapSize (before ++ segment :: after) live)
    (front : Blocks heap.memory (heapStart + heapSize) heapStart before block)
    (back : Blocks heap.memory (heapStart + heapSize) block (segment :: after)
      (heapStart + heapSize))
    (free : segment.free = true) (fits : size ≤ segment.size) :
    (heap.takeBlock block size).Owns heapStart heapSize
      (before ++ (carve size segment ++ after)) live := by
  obtain ⟨first, total⟩ := takeBlock_region heap block size
  refine ⟨first.trans owns.first, total.trans owns.total,
    takeBlock_blocks front back fits region.bounded, separated_carve _ free owns.separated, ?_,
    owns.distinct⟩
  intro ptr size' member
  obtain ⟨addr, used, place, inUse, enough, payload⟩ := owns.held ptr size' member
  exact ⟨addr, used, located_carve front free place inUse, inUse, enough, payload⟩

/-- A pointer to a free block's payload is held by nobody. -/
theorem HeapAllocator.Owns.not_held {heap : HeapAllocator} {heapStart heapSize block : Nat}
    {segments : List Segment} {segment : Segment} {live : List (Nat × Nat)}
    (owns : heap.Owns heapStart heapSize segments live)
    (here : (block, segment) ∈ located Segment.width heapStart segments)
    (free : segment.free = true) : block + headerSize ∉ live.map Prod.fst := by
  intro again
  obtain ⟨⟨ptr, size⟩, member, same⟩ := List.mem_map.mp again
  obtain ⟨addr, used, place, inUse, -, payload⟩ := owns.held ptr size member
  have same : ptr = block + headerSize := same
  have wide := Segment_width_pos used
  have wide' := Segment_width_pos segment
  -- Two blocks at one address are the same block, and it cannot be both free and in use.
  rcases owns.tiled.located_disjoint place here with ⟨-, equal⟩ | apart | apart
  · rw [equal, free] at inUse
    exact Bool.noConfusion inUse
  · omega
  · omega

/-- The pointers clients hold after a request has been answered. -/
def recordAnswer (live : List (Nat × Nat)) (ptr size : Nat) : List (Nat × Nat) :=
  if ptr = 0 then live else (ptr, size) :: live

/--
Every request is answered, and afterwards the blocks again tile the region.

The answer may be recorded with any size up to the rounded one.
It is null only when no free block is large enough or the frames run out.
-/
theorem HeapAllocator.Owns.allocate {heap : HeapAllocator} {heapStart heapSize : Nat}
    {segments : List Segment} {live : List (Nat × Nat)} (region : HeapRegion heapStart heapSize)
    (owns : heap.Owns heapStart heapSize segments live) (pmm : PhysicalMemoryManager)
    {size recorded : Nat} (positive : 1 ≤ size) (enough : recorded ≤ roundUp size) :
    ∃ ptr heap' pmm' segments', heap.allocate pmm size = .ok (ptr, heap', pmm') ∧
      heap'.Owns heapStart heapSize segments' (recordAnswer live ptr recorded) ∧
      (pmm.Consistent → numPages (roundUp size) ≤ pmm.freeFrames → ptr = 0 →
        ∀ segment ∈ segments, segment.free = true → segment.size < roundUp size) := by
  rcases owns.allocate_cases region pmm size positive with
    ⟨-, answer, none⟩ | ⟨before, segment, after, block, rfl, free, fits, front, back, -, answer⟩
  · exact ⟨0, heap, pmm, segments, answer, owns, fun _ _ _ => none⟩
  · have taken := owns.take region front back free fits
    have positive := region.positive
    have above := front.le
    have nonzero : block + headerSize ≠ 0 := by omega
    refine ⟨_, _, _, before ++ (carve (roundUp size) segment ++ after), answer, ?_, ?_⟩
    · cases served : (takeFrames block (numPages (roundUp size)) 0 pmm).1 with
      | false => simpa [recordAnswer] using taken
      | true =>
        -- The new pointer is the payload of the carved block, which was free before.
        simp only [recordAnswer, if_true, if_neg nonzero]
        obtain ⟨used, inUse, large, place⟩ := carve_located after front fits
        have here : (block, segment) ∈
            located Segment.width heapStart (before ++ segment :: after) := by
          rw [front.located_append]
          simp [located]
        have fresh := owns.not_held here free
        refine ⟨taken.first, taken.total, taken.tiled, taken.separated, ?_,
          List.nodup_cons.mpr ⟨fresh, owns.distinct⟩⟩
        intro ptr size' member
        rcases List.mem_cons.mp member with same | old
        · obtain ⟨rfl, rfl⟩ := Prod.mk.inj same
          exact ⟨block, used, place, inUse, by omega, rfl⟩
        · exact taken.held ptr size' old
    · intro consistent available null
      -- With frames for every page the answer would be the block's payload.
      rw [if_pos (takeFrames_available consistent available)] at null
      exact absurd null nonzero

/-- Marking one block free changes nothing else about a tiling. -/
theorem release_blocks {memory : Nat → HeapBlock} {stop low block : Nat}
    {before after : List Segment} {segment : Segment}
    (front : Blocks memory stop low before block)
    (back : Blocks memory stop block (segment :: after) stop) :
    Blocks (Function.update memory block { memory block with free := true }) stop low
      (before ++ ⟨segment.size, true⟩ :: after) stop := by
  obtain ⟨header, rest⟩ := back
  have header : memory block = _ := header
  have wide := Segment_width_pos segment
  refine Tiles.append.mpr ⟨block, front.congr fun addr _ below => ?_, ?_, ?_⟩
  · exact Function.update_of_ne (by omega) _ _
  · refine (Function.update_self _ _ _).trans ?_
    rw [header]
    rfl
  · exact Blocks.congr rest fun addr (above : block + segment.width ≤ addr) _ =>
      Function.update_of_ne (by omega) _ _

/-- Blocks at other addresses are where they were before one block's flag changed. -/
theorem located_release {memory : Nat → HeapBlock} {stop low block addr : Nat}
    {before after : List Segment} {segment used : Segment}
    (front : Blocks memory stop low before block) (apart : addr ≠ block)
    (member : (addr, used) ∈ located Segment.width low (before ++ segment :: after)) :
    (addr, used) ∈ located Segment.width low (before ++ ⟨segment.size, true⟩ :: after) := by
  rw [front.located_append] at member ⊢
  rcases List.mem_append.mp member with early | late
  · exact List.mem_append.mpr (Or.inl early)
  · refine List.mem_append.mpr (Or.inr ?_)
    rcases List.mem_cons.mp late with same | late
    · exact absurd (Prod.mk.inj same).1 apart
    · exact List.mem_cons_of_mem _ late

/-- What the merge loop makes of a list of blocks. -/
def coalesceAll : List Segment → List Segment
  | [] => []
  | segment :: rest => coalesce segment rest

/--
Freeing a held pointer marks its block free and merges the blocks.

Clients may go on holding any of the other pointers.
The count of used bytes loses the payload and the headers that were merged away.
-/
theorem HeapAllocator.Owns.free_cases {heap : HeapAllocator} {heapStart heapSize : Nat}
    {segments : List Segment} {live rest : List (Nat × Nat)}
    (region : HeapRegion heapStart heapSize)
    (owns : heap.Owns heapStart heapSize segments live) (pmm : PhysicalMemoryManager)
    {ptr : Nat} (holds : ptr ∈ live.map Prod.fst) (kept : rest.Sublist live)
    (gone : ptr ∉ rest.map Prod.fst) :
    ∃ before segment after heap', segments = before ++ segment :: after ∧ segment.free = false ∧
      heap.free pmm ptr = .ok (heap', returnFrames (ptr - headerSize) pmm
        (numPages (heap.memory (ptr - headerSize)).size)) ∧
      heap'.Owns heapStart heapSize (coalesceAll (before ++ ⟨segment.size, true⟩ :: after)) rest ∧
      (heap'.usedMemory + headerSize * segments.length) % 2 ^ 64 =
        (wordSub heap.usedMemory segment.size + headerSize *
          (coalesceAll (before ++ ⟨segment.size, true⟩ :: after)).length) % 2 ^ 64 ∧
      heap'.usedMemory < 2 ^ 64 := by
  obtain ⟨⟨held, size⟩, member, same⟩ := List.mem_map.mp holds
  obtain ⟨block, segment, place, inUse, -, payload⟩ := owns.held held size member
  obtain ⟨before, after, cut, front, back⟩ := owns.tiled.cut place
  have bounds := owns.tiled.located_bounds place
  have bounded := region.bounded
  have wide := Segment_width_pos segment
  have header : headerSize = 24 := rfl
  obtain rfl : ptr = block + headerSize := same.symm.trans payload
  have addr : wordSub (block + headerSize) headerSize = block := by
    unfold wordSub; omega
  have plain : block + headerSize - headerSize = block := by omega
  have stored : (heap.memory block).size = segment.size := by
    have here : heap.memory block = _ := back.1
    rw [here]
  have released := release_blocks front back
  -- The merge starts at the first block, which the change has not moved.
  obtain ⟨head, others, shape⟩ : ∃ head others,
      before ++ (⟨segment.size, true⟩ : Segment) :: after = head :: others := by
    cases before with
    | nil => exact ⟨_, _, rfl⟩
    | cons first rest => exact ⟨_, _, rfl⟩
  have count : segments.length = others.length + 1 := by
    have lengths := congrArg List.length shape
    rw [cut]
    simpa using lengths
  rw [shape] at released
  have short : others.length < heap.totalSize + 1 := by
    have := released.length_le Segment_width_pos
    simp only [List.length_cons] at this
    rw [owns.total]
    omega
  obtain ⟨merged, walk, tiled, first, total, -, counted, word⟩ := mergeFreeBlocks_spec
    { heap with
      memory := Function.update heap.memory block { heap.memory block with free := true }
      usedMemory := wordSub heap.usedMemory (heap.memory block).size }
    released region.positive (by omega) short
  refine ⟨before, segment, after, merged, cut, inUse, ?_, ?_, ?_, word (Nat.mod_lt _ (by decide))⟩
  · rw [HeapAllocator.free, if_neg (by omega), addr, plain]
    refine Run.bind_eq_ok.mpr ⟨merged, ?_, rfl⟩
    rw [← owns.first] at walk
    exact walk
  · rw [shape, coalesceAll]
    refine ⟨first.trans owns.first, total.trans owns.total, tiled, coalesce_separated _ _, ?_,
      owns.distinct.sublist (kept.map _)⟩
    intro other size' member
    obtain ⟨place', used, located', inUse', enough, payload'⟩ :=
      owns.held other size' (kept.subset member)
    have apart : place' ≠ block := by
      rintro rfl
      exact gone (List.mem_map.mpr ⟨(other, size'), member, payload'⟩)
    refine ⟨place', used, located_coalesce ?_ inUse', inUse', enough, payload'⟩
    rw [← shape]
    exact located_release front apart (cut ▸ located')
  · rw [shape, coalesceAll, count, ← stored]
    exact counted

/--
Freeing a held pointer returns, and afterwards the blocks again tile the region.

Clients may go on holding any of the other pointers.
-/
theorem HeapAllocator.Owns.free {heap : HeapAllocator} {heapStart heapSize : Nat}
    {segments : List Segment} {live rest : List (Nat × Nat)}
    (region : HeapRegion heapStart heapSize)
    (owns : heap.Owns heapStart heapSize segments live) (pmm : PhysicalMemoryManager)
    {ptr : Nat} (holds : ptr ∈ live.map Prod.fst) (kept : rest.Sublist live)
    (gone : ptr ∉ rest.map Prod.fst) :
    ∃ heap' segments', heap.free pmm ptr = .ok (heap', returnFrames (ptr - headerSize) pmm
        (numPages (heap.memory (ptr - headerSize)).size)) ∧
      heap'.Owns heapStart heapSize segments' rest := by
  obtain ⟨_, _, _, heap', -, -, returned, owns', -⟩ := owns.free_cases region pmm holds kept gone
  exact ⟨heap', _, returned, owns'⟩

/-- Forgetting the pointer that was given back leaves the other held pointers. -/
def forgetPointer (live : List (Nat × Nat)) (ptr : Nat) : List (Nat × Nat) :=
  live.filter fun entry => entry.1 ≠ ptr

/-- A forgotten pointer is no longer held. -/
theorem not_mem_forgetPointer (live : List (Nat × Nat)) (ptr : Nat) :
    ptr ∉ (forgetPointer live ptr).map Prod.fst := by
  simp [forgetPointer]

/--
The heap states reachable from set-up, each with the pointers clients hold in it.

Every call meets an arbitrary frame allocator, so frames may run out at any request.
-/
inductive HeapReach (heapStart heapSize : Nat) : HeapAllocator → List (Nat × Nat) → Prop where
  /-- Set-up over the region, whatever the memory held before. -/
  | boot (heap : HeapAllocator) :
      HeapReach heapStart heapSize (heap.initializeHeap heapStart heapSize) []
  /-- A request, with its answer recorded when it is not null. -/
  | allocate {heap heap' : HeapAllocator} {live : List (Nat × Nat)}
      {pmm pmm' : PhysicalMemoryManager} {size ptr : Nat}
      (before : HeapReach heapStart heapSize heap live)
      (positive : 1 ≤ size) (bounded : size ≤ 2 ^ 64 - 16)
      (answer : heap.allocate pmm size = .ok (ptr, heap', pmm')) :
      HeapReach heapStart heapSize heap' (recordAnswer live ptr size)
  /-- Giving back a pointer that is held. -/
  | free {heap heap' : HeapAllocator} {live : List (Nat × Nat)}
      {pmm pmm' : PhysicalMemoryManager} {ptr : Nat}
      (before : HeapReach heapStart heapSize heap live) (holds : ptr ∈ live.map Prod.fst)
      (returned : heap.free pmm ptr = .ok (heap', pmm')) :
      HeapReach heapStart heapSize heap' (forgetPointer live ptr)

/-- Every reachable heap consists of blocks that own its region. -/
theorem HeapReach.owns {heapStart heapSize : Nat} (region : HeapRegion heapStart heapSize)
    {heap : HeapAllocator} {live : List (Nat × Nat)} (reach : HeapReach heapStart heapSize heap live) :
    ∃ segments, heap.Owns heapStart heapSize segments live := by
  induction reach with
  | boot heap => exact ⟨_, initializeHeap_owns heap region⟩
  | @allocate heap heap' live pmm pmm' size ptr before positive bounded answer ih =>
    obtain ⟨segments, owns⟩ := ih
    obtain ⟨ptr', heap'', pmm'', segments', answer', owns', -⟩ :=
      owns.allocate region pmm positive (le_roundUp bounded)
    rw [answer'] at answer
    cases answer
    exact ⟨segments', owns'⟩
  | @free heap heap' live pmm pmm' ptr before holds returned ih =>
    obtain ⟨segments, owns⟩ := ih
    obtain ⟨heap'', segments', returned', owns'⟩ := owns.free region pmm holds
      List.filter_sublist (not_mem_forgetPointer live ptr)
    rw [returned'] at returned
    cases returned
    exact ⟨segments', owns'⟩

/--
What the heap's representation promises about the blocks and the pointers clients hold.

The linked headers tile the region, free neighbours are merged, and each held pointer is the payload
of its own block in use, so payloads never overlap.
Every further call returns.
With frames available a request is refused only when no free block is large enough.
-/
def HeapAllocator.Represented (heap : HeapAllocator) (heapStart heapSize : Nat)
    (live : List (Nat × Nat)) : Prop :=
  ∃ segments : List Segment,
    heap.firstBlock = heapStart ∧
    Blocks heap.memory (heapStart + heapSize) heapStart segments (heapStart + heapSize) ∧
    segments.IsChain Separated ∧
    (live.map Prod.fst).Nodup ∧
    (∀ ptr size, (ptr, size) ∈ live → ∃ addr segment,
      (addr, segment) ∈ located Segment.width heapStart segments ∧
        segment.free = false ∧ size ≤ segment.size ∧ ptr = addr + headerSize) ∧
    (∀ ptr size ptr' size', (ptr, size) ∈ live → (ptr', size') ∈ live → ptr ≠ ptr' →
      ptr + size ≤ ptr' ∨ ptr' + size' ≤ ptr) ∧
    (∀ pmm size, 1 ≤ size → size ≤ 2 ^ 64 - 16 →
      ∃ ptr heap' pmm', heap.allocate pmm size = .ok (ptr, heap', pmm') ∧
        (pmm.Consistent → numPages (roundUp size) ≤ pmm.freeFrames → ptr = 0 →
          ∀ segment ∈ segments, segment.free = true → segment.size < roundUp size)) ∧
    (∀ pmm, ∀ ptr ∈ live.map Prod.fst, ∃ result, heap.free pmm ptr = .ok result)

/-- Every run of requests and releases keeps the heap's representation. -/
theorem heap_run_represented {heapStart heapSize : Nat} (region : HeapRegion heapStart heapSize)
    {heap : HeapAllocator} {live : List (Nat × Nat)}
    (reach : HeapReach heapStart heapSize heap live) :
    heap.Represented heapStart heapSize live := by
  obtain ⟨segments, owns⟩ := reach.owns region
  refine ⟨segments, owns.first, owns.tiled, owns.separated, owns.distinct, owns.held, ?_, ?_, ?_⟩
  · intro ptr size ptr' size' member member' apart
    obtain ⟨addr, segment, place, -, enough, payload⟩ := owns.held ptr size member
    obtain ⟨addr', segment', place', -, enough', payload'⟩ := owns.held ptr' size' member'
    rcases owns.tiled.located_disjoint place place' with ⟨same, -⟩ | below | below
    · omega
    · simp only [Segment.width] at below
      omega
    · simp only [Segment.width] at below
      omega
  · intro pmm size positive bounded
    obtain ⟨ptr, heap', pmm', -, answer, -, refused⟩ :=
      owns.allocate region pmm positive (le_roundUp bounded)
    exact ⟨ptr, heap', pmm', answer, refused⟩
  · intro pmm ptr holds
    obtain ⟨heap', -, returned, -⟩ := owns.free region pmm holds
      List.filter_sublist (not_mem_forgetPointer live ptr)
    exact ⟨_, returned⟩

/-- The kernel's heap region satisfies the conditions on a region. -/
theorem kernelHeap_region : HeapRegion kernelHeapStart kernelHeapSize :=
  ⟨by decide, by decide, by decide⟩

/-- Memory whose headers hold nothing yet. -/
def blankHeap : HeapAllocator :=
  { memory := fun _ => ⟨0, false, 0⟩, firstBlock := 0, totalSize := 0, usedMemory := 0 }

/-- A frame allocator with a single free frame. -/
def oneFrame : PhysicalMemoryManager :=
  { bitmap := fun _ => 0#32, totalFrames := 1, freeFrames := 1, memoryStart := kernelMemoryStart }

/-- The kernel's heap after one request of a hundred bytes. -/
theorem heap_run_represented_one_request :
    HeapReach kernelHeapStart kernelHeapSize
      ((blankHeap.initializeHeap kernelHeapStart kernelHeapSize).takeBlock kernelHeapStart 112)
      [(kernelHeapStart + headerSize, 100)] ∧
    HeapAllocator.Represented
      ((blankHeap.initializeHeap kernelHeapStart kernelHeapSize).takeBlock kernelHeapStart 112)
      kernelHeapStart kernelHeapSize [(kernelHeapStart + headerSize, 100)] := by
  have answer : (blankHeap.initializeHeap kernelHeapStart kernelHeapSize).allocate oneFrame 100 =
      .ok (kernelHeapStart + headerSize,
        (blankHeap.initializeHeap kernelHeapStart kernelHeapSize).takeBlock kernelHeapStart 112,
        oneFrame.allocateFrame.2) := by rfl
  have reach := HeapReach.allocate (.boot blankHeap) (by decide) (by decide) answer
  exact ⟨reach, heap_run_represented kernelHeap_region reach⟩

end Pocky
