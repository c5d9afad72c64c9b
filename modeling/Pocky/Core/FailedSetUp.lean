import Pocky.Core.LoadingLaws
import Pocky.Core.StackLaws
import Pocky.Fs.ChainLaws

/-! When a set-up that fails for lack of a frame returns the frames it was handed. -/

namespace Pocky

open PagedMemory

/-- Every frame handed out is free again, and its page is unmapped. -/
def Returns (handed : List (BitVec 64 × Nat)) (after : PagedMemory) : Prop :=
  ∀ pair ∈ handed, ¬ after.pmm.Used pair.2 ∧ after.vmm.translate pair.1 = none

/-- Every page asked for lies in one of the regions. -/
def Covers (regions : List MemoryRegion) (asked : List (BitVec 64)) : Prop :=
  ∀ addr ∈ asked, ∃ region ∈ regions, ∃ other ∈ region.pages, pageNumber other = pageNumber addr

/-- The pages asked for can all be backed, and then no frame is left. -/
structure Exhausts (memory : PagedMemory) (table : Nat → Nat → Option Nat) (broken : List Nat)
    (asked : List (BitVec 64)) : Prop where
  /-- They can be backed. -/
  supplies : Supplies memory table broken asked
  /-- The frames are just enough for them and for the tables they need. -/
  all : asked.length + (missingNodes table asked).card = memory.pmm.freeFrames

/-- Pages to be backed, and the region that is recorded once they all are. -/
structure Piece where
  /-- The addresses of the pages. -/
  pages : List (BitVec 64)
  /-- The region. -/
  region : MemoryRegion

/-- A segment is a piece of a program. -/
def ProgramHeader.piece (header : ProgramHeader) : Piece := ⟨header.pages, header.region⟩

/-- The stack is a piece of its own. -/
def stackPiece : Piece :=
  ⟨userStackPages, ⟨userStackTop - BitVec.ofNat 64 userStackSize, BitVec.ofNat 64 userStackSize⟩⟩

/-- Its pages are those of the stack. -/
theorem stackPiece_pages : stackPiece.pages = userStackPages := by
  rw [stackPiece]

/-- The frames run out just where all handed out so far are behind pages of regions recorded by then. -/
def RunsOutCovered (memory : PagedMemory) (table : Nat → Nat → Option Nat) (broken : List Nat)
    (regions : List MemoryRegion) (pieces : List Piece) : Prop :=
  ∃ earlier piece later count, pieces = earlier ++ piece :: later ∧ count < piece.pages.length ∧
    Exhausts memory table broken (earlier.flatMap Piece.pages ++ piece.pages.take count) ∧
    Covers ((earlier.map Piece.region).reverse ++ regions)
      (earlier.flatMap Piece.pages ++ piece.pages.take count)

/-- The segments a program file asks to load. -/
def FileSystem.segments (fs : FileSystem) (buffer : Buffer) (path : Name) : List ProgramHeader :=
  match fs.findFile path with
  | .ok (some found) =>
    (ProgramHeader.readAll (fs.readFile found.cluster buffer found.size)).filter (·.type == ptLoad)
  | _ => []

/-- Only loadable segments are among them. -/
theorem FileSystem.segments_type (fs : FileSystem) (buffer : Buffer) (path : Name)
    (header : ProgramHeader) (member : header ∈ fs.segments buffer path) : header.type = ptLoad := by
  rw [segments] at member
  split at member
  · exact eq_of_beq (List.mem_filter.mp member).2
  · exact absurd member List.not_mem_nil

/-- The pages of the kernel stack of the next process. -/
def Kernel.nextStackPages (kernel : Kernel) : List (BitVec 64) :=
  (List.range kernelStackPages).map (pageAt (kernelStackBase kernel.nextPid))

/-- Fewer pages need fewer tables. -/
theorem missingNodes_append (table : Nat → Nat → Option Nat) (asked more : List (BitVec 64)) :
    (missingNodes table asked).card ≤ (missingNodes table (asked ++ more)).card := by
  refine Finset.card_le_card fun node member => ?_
  obtain ⟨here, absent⟩ := Finset.mem_filter.mp member
  obtain ⟨addr, inside, way⟩ := Finset.mem_biUnion.mp here
  refine Finset.mem_filter.mpr ⟨Finset.mem_biUnion.mpr ⟨addr, ?_, way⟩, absent⟩
  rw [List.mem_toFinset] at inside ⊢
  exact List.mem_append_left _ inside

section Asked

variable {memory : PagedMemory} {table : Nat → Nat → Option Nat} {broken : List Nat}
  {asked asked' : List (BitVec 64)}

/-- What suffices for more pages suffices for the first of them. -/
theorem Supplies.first (supplies : Supplies memory table broken asked') (first : asked <+: asked') :
    Supplies memory table broken asked := by
  obtain ⟨more, rfl⟩ := first
  have fewer := missingNodes_append table asked more
  have enough := supplies.enough
  have distinct := supplies.distinct
  rw [List.map_append, List.nodup_append] at distinct
  rw [List.length_append] at enough
  exact ⟨fun addr member => supplies.unmapped addr (List.mem_append_left _ member),
    fun addr member => supplies.unblocked addr (List.mem_append_left _ member), distinct.1, by omega⟩

/-- Where pages can all be backed, every frame handed out for them ends up behind its page. -/
theorem backAll_supplied (settled : Settled memory table broken) {addrs : List (BitVec 64)}
    (ordinary : ∀ addr ∈ addrs, 4096 ≤ pageNumber addr)
    (supplies : Supplies memory table broken addrs) (writable : Bool) :
    ∃ table', Supplied memory table broken (memory.backAll writable addrs).handed
      (memory.backAll writable addrs).memory table' := by
  cases backAll_ends settled ordinary writable with
  | supplied supplied _ => exact ⟨_, supplied⟩
  | wasted wasted _ _ =>
    -- The page that could not be backed is one of them.
    obtain ⟨good, bad, rest, handed, cannot, -⟩ := wasted
    refine absurd (supplies.first ?_) cannot
    obtain ⟨taken, -⟩ := memory.backAll_handed writable addrs
    rw [handed] at taken
    refine List.IsPrefix.trans ⟨rest, ?_⟩ (taken ▸ List.take_prefix _ _)
    rw [List.append_assoc]
    rfl

/-- Two requests that exhaust the frames are the same, if one of them begins with the other. -/
theorem Exhausts.eq_of_first (exhausts : Exhausts memory table broken asked)
    (exhausts' : Exhausts memory table broken asked') (first : asked <+: asked') :
    asked = asked' := by
  obtain ⟨more, rfl⟩ := first
  have fewer := missingNodes_append table asked more
  have all := exhausts.all
  have all' := exhausts'.all
  rw [List.length_append] at all'
  rw [List.length_eq_zero_iff.mp (show more.length = 0 by omega), List.append_nil]

/-- A request that exhausts the frames is none that begins with a wasteful one, or the other way round. -/
theorem Exhausts.not_wastes (exhausts : Exhausts memory table broken asked)
    (wasted : Wastes memory table broken asked') {total : List (BitVec 64)} (first : asked <+: total)
    (first' : asked' <+: total) : False := by
  obtain ⟨good, bad, rest, rfl, cannot, enough⟩ := wasted
  have begins : good ++ [bad] <+: total := by
    obtain ⟨later, rfl⟩ := first'
    exact ⟨rest ++ later, by simp⟩
  rcases List.prefix_or_prefix_of_prefix first begins with short | long
  · rcases List.prefix_concat_iff.mp short with rfl | shorter
    · exact cannot exhausts.supplies
    · -- There is a frame left after the good pages.
      obtain ⟨more, rfl⟩ := shorter
      have fewer := missingNodes_append table asked more
      have all := exhausts.all
      rw [List.length_append] at enough
      omega
  · exact cannot (exhausts.supplies.first long)

end Asked

section Ends

variable {memory stopped : PagedMemory} {table : Nat → Nat → Option Nat} {broken : List Nat}
  {handed : List (BitVec 64 × Nat)}

/-- Frames that are all behind their pages when none is left were exhausted by them. -/
theorem Supplied.exhausts {table' : Nat → Nat → Option Nat}
    (supplied : Supplied memory table broken handed stopped table')
    (empty : stopped.pmm.freeFrames = 0) : Exhausts memory table broken (handed.map Prod.fst) := by
  refine ⟨supplied.supplies, ?_⟩
  have cost := supplied.cost []
  rw [List.append_nil, show missingNodes table' [] = ∅ from rfl, Finset.card_empty] at cost
  rw [List.length_map]
  omega

/-- A request that exhausts the frames is the one that was handed them. -/
theorem BackingEnds.exhausts_eq (ends : BackingEnds memory table broken handed true stopped)
    {asked total : List (BitVec 64)} (exhausts : Exhausts memory table broken asked)
    (first : asked <+: total) (first' : handed.map Prod.fst <+: total) :
    asked = handed.map Prod.fst := by
  cases ends with
  | supplied supplied empty =>
    have exhausts' := supplied.exhausts (empty rfl)
    rcases List.prefix_or_prefix_of_prefix first first' with short | long
    · exact exhausts.eq_of_first exhausts' short
    · exact (exhausts'.eq_of_first exhausts long).symm
  | wasted wasted member leaks => exact (exhausts.not_wastes wasted first first').elim

/-- Releasing regions returns all frames exactly if none is lost and every page is in a region. -/
theorem BackingEnds.returns_iff (ends : BackingEnds memory table broken handed true stopped)
    {regions : List MemoryRegion} (high : ∀ pair ∈ handed, 4096 ≤ pageNumber pair.1)
    (ordinary : ∀ region ∈ regions, ∀ addr ∈ region.pages, 4096 ≤ pageNumber addr) :
    Returns handed (stopped.releaseAll (regions.flatMap MemoryRegion.pages)) ↔
      Exhausts memory table broken (handed.map Prod.fst) ∧ Covers regions (handed.map Prod.fst) := by
  have ordinary' : ∀ addr ∈ regions.flatMap MemoryRegion.pages, 4096 ≤ pageNumber addr := by
    intro addr member
    obtain ⟨region, there, inside⟩ := List.mem_flatMap.mp member
    exact ordinary region there addr inside
  cases ends with
  | @supplied table' supplied empty =>
    obtain ⟨settled, shown, used⟩ := supplied.settled.releaseAll ordinary'
    rw [and_iff_right (supplied.exhausts (empty rfl))]
    constructor
    · intro returns addr member
      obtain ⟨pair, here, rfl⟩ := List.mem_map.mp member
      -- Its page is unmapped only if it has been released.
      have unmapped := (settled.tables.translate_eq_none_iff (high pair here)).mp (returns pair here).2
      rw [shown, (supplied.shows pair here).1] at unmapped
      split at unmapped
      · rename_i released
        obtain ⟨other, inside, same⟩ := List.mem_map.mp released
        obtain ⟨region, there, mine⟩ := List.mem_flatMap.mp inside
        exact ⟨region, there, other, mine, same⟩
      · cases unmapped
    · intro covers pair here
      obtain ⟨region, there, other, mine, same⟩ := covers pair.1 (List.mem_map_of_mem here)
      have inside : other ∈ regions.flatMap MemoryRegion.pages :=
        List.mem_flatMap.mpr ⟨region, there, mine⟩
      obtain ⟨shows, whole⟩ := supplied.shows pair here
      refine ⟨fun still => ?_, (settled.tables.translate_eq_none_iff (high pair here)).mpr ?_⟩
      · exact ((used pair.2).mp still).2 other inside _ (by rw [same, shows]) whole
      · rw [shown, if_pos]
        exact List.mem_map.mpr ⟨other, inside, same⟩
  | @wasted wasted pair member leaks =>
    -- The lost frame is still used, and no request that begins so exhausts the frames.
    constructor
    · intro returns
      obtain ⟨table', broken', -, lost⟩ := leaks.releaseAll ordinary'
      exact absurd lost.used (returns pair member).1
    · rintro ⟨exhausts, -⟩
      exact (exhausts.not_wastes wasted (List.prefix_refl _) (List.prefix_refl _)).elim

/-- What stops within a piece has not gone past it. -/
theorem not_longer {earlier more : List Piece} {piece : Piece} {count : Nat}
    {pages : List (BitVec 64)} (inside : count < piece.pages.length)
    (same : earlier.flatMap Piece.pages ++ piece.pages.take count =
      (earlier ++ piece :: more).flatMap Piece.pages ++ pages) : False := by
  have lengths := congrArg List.length same
  simp only [List.flatMap_append, List.flatMap_cons, List.length_append, List.length_take] at lengths
  omega

/-- Frames run out in covered pages exactly if those handed out exhaust them and are covered. -/
theorem runsOutCovered_iff (ends : BackingEnds memory table broken handed true stopped)
    {regions : List MemoryRegion} {earlier later : List Piece} {piece : Piece} {count : Nat}
    (inside : count < piece.pages.length)
    (pages : handed.map Prod.fst = earlier.flatMap Piece.pages ++ piece.pages.take count) :
    RunsOutCovered memory table broken regions (earlier ++ piece :: later) ↔
      Exhausts memory table broken (handed.map Prod.fst) ∧
        Covers ((earlier.map Piece.region).reverse ++ regions) (handed.map Prod.fst) := by
  -- What is asked for up to a piece is what the pieces begin with.
  have begins : ∀ (earlier later : List Piece) (piece : Piece) (count : Nat),
      earlier.flatMap Piece.pages ++ piece.pages.take count <+:
        (earlier ++ piece :: later).flatMap Piece.pages := by
    intro earlier later piece count
    refine ⟨piece.pages.drop count ++ later.flatMap Piece.pages, ?_⟩
    rw [List.flatMap_append, List.flatMap_cons, List.append_assoc, ← List.append_assoc (List.take _ _),
      List.take_append_drop]
  constructor
  · rintro ⟨earlier', piece', later', count', split, inside', exhausts, covers⟩
    have same : earlier'.flatMap Piece.pages ++ piece'.pages.take count' = handed.map Prod.fst := by
      refine ends.exhausts_eq exhausts (begins earlier' later' piece' count') ?_
      rw [← split, pages]
      exact begins earlier later piece count
    rw [same] at exhausts covers
    rw [pages] at same
    refine ⟨exhausts, ?_⟩
    -- So the same pieces are complete.
    have complete : earlier' = earlier := by
      rcases List.append_eq_append_iff.mp split with ⟨more, longer, rest⟩ | ⟨more, longer, rest⟩
      · cases more with
        | nil => rw [longer, List.append_nil]
        | cons first more =>
          obtain ⟨rfl, -⟩ := List.cons.inj rest
          rw [longer] at same
          exact (not_longer inside same.symm).elim
      · cases more with
        | nil => rw [longer, List.append_nil]
        | cons first more =>
          obtain ⟨rfl, -⟩ := List.cons.inj rest
          rw [longer] at same
          exact (not_longer inside' same).elim
    rwa [complete] at covers
  · rintro ⟨exhausts, covers⟩
    rw [pages] at exhausts covers
    exact ⟨earlier, piece, later, count, rfl, inside, exhausts, covers⟩

end Ends

/-- Without null answers or with them, the allocator keeps working and no frame becomes free. -/
theorem PhysicalMemoryManager.Manages.allocateFrames_keep {pmm : PhysicalMemoryManager}
    (manages : pmm.Manages) (count : Nat) :
    (pmm.allocateFrames count).2.Manages ∧
      ∀ addr, pmm.Used addr → (pmm.allocateFrames count).2.Used addr := by
  -- By induction on the number of frames asked for.
  induction count generalizing pmm with
  | zero => exact ⟨manages, fun _ used => used⟩
  | succ count ih =>
    obtain ⟨manages', null, given⟩ := manages.allocateFrame
    obtain ⟨manages'', kept⟩ := ih manages'
    refine ⟨manages'', fun addr used => kept addr ?_⟩
    by_cases none : pmm.allocateFrame.1 = 0
    · rw [null none]
      exact used
    · exact ((given none).2 addr).mpr (Or.inl used)

/-- Mapping a page takes frames for tables only. -/
theorem mapPage_keep {memory : PagedMemory} (manages : memory.pmm.Manages)
    (virtualAddr physicalAddr : BitVec 64) (writable : Bool) :
    (memory.mapPage virtualAddr physicalAddr writable).pmm.Manages ∧ ∀ addr, memory.pmm.Used addr →
      (memory.mapPage virtualAddr physicalAddr writable).pmm.Used addr :=
  -- How many depends on the tables.
  manages.allocateFrames_keep _

/-- While pages are backed, the allocator keeps working and no frame becomes free. -/
theorem backAll_keep {memory : PagedMemory} (manages : memory.pmm.Manages) (writable : Bool)
    (addrs : List (BitVec 64)) : (memory.backAll writable addrs).memory.pmm.Manages ∧
      ∀ addr, memory.pmm.Used addr → (memory.backAll writable addrs).memory.pmm.Used addr := by
  -- By induction on the pages.
  induction addrs generalizing memory with
  | nil => exact ⟨manages, fun _ used => used⟩
  | cons addr addrs ih =>
    have one : memory.allocateFrame.2.pmm.Manages ∧
        ∀ addr, memory.pmm.Used addr → memory.allocateFrame.2.pmm.Used addr :=
      manages.allocateFrames_keep 1
    by_cases null : memory.allocateFrame.1 = 0
    · simp only [PagedMemory.backAll, if_pos null]
      exact one
    · simp only [PagedMemory.backAll, if_neg null]
      obtain ⟨manages', kept⟩ :=
        mapPage_keep one.1 addr (BitVec.ofNat 64 memory.allocateFrame.1) writable
      obtain ⟨manages'', kept'⟩ := ih manages'
      exact ⟨manages'', fun frame used => kept' frame (kept frame (one.2 frame used))⟩

/-- One more page is backed if the others have been. -/
theorem backAll_snoc (memory : PagedMemory) (writable : Bool) (addrs : List (BitVec 64))
    (last : BitVec 64) :
    memory.backAll writable (addrs ++ [last]) =
      if (memory.backAll writable addrs).short then memory.backAll writable addrs
      else
        { (memory.backAll writable addrs).memory.backAll writable [last] with
          handed := (memory.backAll writable addrs).handed ++
            ((memory.backAll writable addrs).memory.backAll writable [last]).handed } := by
  -- By induction on the other pages.
  induction addrs generalizing memory with
  | nil => rfl
  | cons addr addrs ih =>
    by_cases null : memory.allocateFrame.1 = 0
    · simp only [List.cons_append, PagedMemory.backAll, if_pos null, if_true]
    · simp only [List.cons_append, PagedMemory.backAll, if_neg null, ih]
      split <;> rfl

/-- Backing pages from a base address on is backing their addresses. -/
theorem backPages_eq_backAll (memory : PagedMemory) (base : BitVec 64) (count : Nat) :
    (memory.backPages base count).2 =
        (memory.backAll true ((List.range count).map (pageAt base))).memory ∧
      ((memory.backPages base count).1 = none ↔
        (memory.backAll true ((List.range count).map (pageAt base))).short = false) := by
  -- By induction on the number of pages.
  induction count with
  | zero => exact ⟨rfl, by simp [PagedMemory.backPages, PagedMemory.backAll]⟩
  | succ count ih =>
    rw [List.range_succ, List.map_append, List.map_singleton, backAll_snoc, PagedMemory.backPages]
    generalize memory.backAll true ((List.range count).map (pageAt base)) = backing at *
    obtain ⟨same, reached⟩ := ih
    split
    · rename_i failed rest told
      rw [told] at same reached
      have short : backing.short = true := by
        rw [← Bool.not_eq_false, ← reached]
        exact Option.some_ne_none _
      rw [if_pos short]
      exact ⟨same, by simp [short]⟩
    · rename_i rest told
      rw [told] at same reached
      have enough : ¬ backing.short = true := by
        rw [reached.mp rfl]
        exact Bool.false_ne_true
      rw [if_neg enough]
      obtain rfl : rest = backing.memory := same
      by_cases null : backing.memory.allocateFrame.1 = 0
      · simp [PagedMemory.backAll, null]
      · simp [PagedMemory.backAll, null]

/-- Nothing is handed out exactly if no frame is free. -/
theorem backAll_nothing {memory : PagedMemory} (manages : memory.pmm.Manages) (writable : Bool)
    (addr : BitVec 64) (addrs : List (BitVec 64)) :
    (memory.backAll writable (addr :: addrs)).handed = [] ↔ memory.pmm.freeFrames = 0 := by
  rw [← manages.allocateFrame_null_iff]
  show _ ↔ memory.allocateFrame.1 = 0
  by_cases null : memory.allocateFrame.1 = 0
  · simp [PagedMemory.backAll, null]
  · simp [PagedMemory.backAll, null]

/-- Every frame handed out is used afterwards. -/
theorem backAll_used {memory : PagedMemory} (manages : memory.pmm.Manages) (writable : Bool)
    (addrs : List (BitVec 64)) {pair : BitVec 64 × Nat}
    (member : pair ∈ (memory.backAll writable addrs).handed) :
    (memory.backAll writable addrs).memory.pmm.Used pair.2 := by
  -- By induction on the pages.
  induction addrs generalizing memory with
  | nil => exact absurd member List.not_mem_nil
  | cons addr addrs ih =>
    by_cases null : memory.allocateFrame.1 = 0
    · simp only [PagedMemory.backAll, if_pos null] at member
      exact absurd member List.not_mem_nil
    · simp only [PagedMemory.backAll, if_neg null] at member ⊢
      obtain ⟨manages', -, given⟩ := manages.allocateFrame
      obtain ⟨manages'', kept⟩ := @mapPage_keep memory.allocateFrame.2 manages' addr
        (BitVec.ofNat 64 memory.allocateFrame.1) writable
      rcases List.mem_cons.mp member with rfl | later
      · -- The frame has been given out before the page is mapped.
        exact (backAll_keep manages'' writable addrs).2 _
          (kept _ (((given null).2 _).mpr (Or.inr rfl)))
      · exact ih manages'' later


namespace Kernel

variable {kernel after : Kernel}

/-- A process that is not created returns nothing, so it must have been handed nothing. -/
theorem createProcess_returns_iff (manages : kernel.memory.pmm.Manages) {address : Nat} {pid : Int}
    (created : kernel.createProcess address = .ok (pid, after)) :
    after.memory = (kernel.memory.backAll true kernel.nextStackPages).memory ∧
      (Returns (kernel.memory.backAll true kernel.nextStackPages).handed after.memory ↔
        kernel.memory.pmm.freeFrames = 0) := by
  have memory : after.memory = (kernel.memory.backAll true kernel.nextStackPages).memory :=
    (createProcess_memory created).trans (backPages_eq_backAll _ _ _).1
  refine ⟨memory, ?_⟩
  rw [← backAll_nothing manages true (pageAt (kernelStackBase kernel.nextPid) 0)
    ([1, 2, 3].map (pageAt (kernelStackBase kernel.nextPid)))]
  show _ ↔ (kernel.memory.backAll true kernel.nextStackPages).handed = []
  constructor
  · intro returns
    refine List.eq_nil_iff_forall_not_mem.mpr fun pair member => (returns pair member).1 ?_
    rw [memory]
    exact backAll_used manages true _ member
  · intro nothing
    rw [nothing]
    exact fun pair member => absurd member List.not_mem_nil

/-- Cleaning up releases the regions recorded, and leaves no kernel stack. -/
theorem cleanupProcessMemory_releases {process : Nat} {memory : PagedMemory}
    {regions : List MemoryRegion}
    (cleaned : (kernel.setRegions process memory regions).cleanupProcessMemory process = .ok after) :
    (after.records process).kernelStack = 0#64 ∧ ((kernel.records process).kernelStack = 0#64 →
      after.memory = memory.releaseAll (regions.flatMap MemoryRegion.pages)) := by
  rw [cleanupProcessMemory] at cleaned
  obtain ⟨released, regions', done⟩ := Run.bind_eq_ok.mp cleaned
  cases done
  refine ⟨by simp, fun none => ?_⟩
  simp only [setRegions, Function.update_self] at regions' ⊢
  rw [if_pos none]
  exact releaseRegions_eq regions'

/-- A call that gives up restores everything exactly if there was no stack and all pages are in regions. -/
theorem cleanupProcessMemory_restores_iff {table : Nat → Nat → Option Nat} {broken : List Nat}
    {process : Nat} {stopped : PagedMemory} {handed : List (BitVec 64 × Nat)}
    {regions : List MemoryRegion}
    (ends : BackingEnds kernel.memory table broken handed true stopped)
    (high : ∀ pair ∈ handed, 4096 ≤ pageNumber pair.1)
    (ordinary : ∀ region ∈ regions, ∀ addr ∈ region.pages, 4096 ≤ pageNumber addr)
    (cleaned : (kernel.setRegions process stopped regions).cleanupProcessMemory process = .ok after) :
    Returns handed after.memory ∧
        (after.records process).kernelStack = (kernel.records process).kernelStack ↔
      (kernel.records process).kernelStack = 0#64 ∧
        Exhausts kernel.memory table broken (handed.map Prod.fst) ∧
          Covers regions (handed.map Prod.fst) := by
  obtain ⟨gone, released⟩ := cleanupProcessMemory_releases cleaned
  rw [gone]
  constructor
  · rintro ⟨returns, none⟩
    rw [released none.symm] at returns
    exact ⟨none.symm, (ends.returns_iff high ordinary).mp returns⟩
  · rintro ⟨none, condition⟩
    rw [released none]
    exact ⟨(ends.returns_iff high ordinary).mpr condition, none.symm⟩

end Kernel
namespace Kernel

variable {kernel : Kernel} {program : ProgramState} {process : Nat} {setUp : SetUp}

/-- A call that gives up hands out what it is told to, and cleans up. -/
theorem abandonSetUp_eq {short : Bool} {handed : List (BitVec 64 × Nat)}
    (abandoned : kernel.abandonSetUp process program short handed = .ok setUp) :
    setUp.short = short ∧ setUp.handed = handed ∧
      kernel.cleanupProcessMemory process = .ok setUp.kernel := by
  obtain ⟨after, cleaned, done⟩ := Run.bind_eq_ok.mp abandoned
  cases done
  exact ⟨rfl, rfl, cleaned⟩

/-- A program whose pages run short of frames has its segments loaded up to there, and then cleaned up. -/
theorem loadProgram_short {fs : FileSystem} {buffer : Buffer} {path : Name}
    (loaded : kernel.loadProgram fs buffer program process path = .ok (some setUp))
    (short : setUp.short = true) :
    ∃ file loading, kernel.memory.loadSegments file (kernel.records process).memoryRegions 0#64
        (fs.segments buffer path) = some loading ∧
      loading.backing.short = true ∧ setUp.handed = loading.backing.handed ∧
      (kernel.setRegions process loading.backing.memory loading.regions).cleanupProcessMemory process =
        .ok setUp.kernel := by
  rw [loadProgram] at loaded
  obtain ⟨looked, there, loaded⟩ := Run.bind_eq_ok.mp loaded
  cases looked with
  | none =>
    cases loaded
    cases short
  | some found =>
    dsimp only at loaded
    split at loaded
    · cases loaded
      cases short
    · split at loaded
      · cases loaded
        cases short
      · rw [loadSegments_filter] at loaded
        have segments : fs.segments buffer path = (ProgramHeader.readAll
            (fs.readFile found.cluster buffer found.size)).filter (·.type == ptLoad) := by
          rw [FileSystem.segments, there]
        rw [← segments] at loaded
        split at loaded
        · cases loaded
        · rename_i loading loads
          split at loaded
          · rename_i stops
            obtain ⟨failed, abandoned, done⟩ := Run.bind_eq_ok.mp loaded
            cases done
            obtain ⟨-, handed, cleaned⟩ := abandonSetUp_eq abandoned
            exact ⟨_, loading, loads, stops, handed, cleaned⟩
          · cases loaded
            cases short

/-- A stack whose pages run short of frames is cleaned up at once. -/
theorem setupProcessStack_short {argv envp : Option (List (BitVec 64))}
    (done : kernel.setupProcessStack program process argv envp = .ok (some setUp))
    (short : setUp.short = true) :
    (kernel.memory.backAll true userStackPages).short = true ∧
      setUp.handed = (kernel.memory.backAll true userStackPages).handed ∧
      (kernel.setRegions process (kernel.memory.backAll true userStackPages).memory
        (kernel.records process).memoryRegions).cleanupProcessMemory process = .ok setUp.kernel := by
  rw [setupProcessStack] at done
  generalize kernel.memory.backAll true userStackPages = backing at done ⊢
  dsimp only at done
  split at done
  · rename_i stops
    obtain ⟨failed, abandoned, done⟩ := Run.bind_eq_ok.mp done
    cases done
    obtain ⟨-, handed, cleaned⟩ := abandonSetUp_eq abandoned
    exact ⟨stops, handed, cleaned⟩
  · split at done
    · obtain ⟨failed, abandoned, done⟩ := Run.bind_eq_ok.mp done
      cases done
      obtain ⟨told, -⟩ := abandonSetUp_eq abandoned
      rw [told] at short
      cases short
    · split at done
      · cases done
      · cases done
        cases short

/-- The pages of a program's stack lie above the large ones. -/
theorem userStackPages_ordinary : ∀ addr ∈ userStackPages, 4096 ≤ pageNumber addr := by
  intro addr member
  obtain ⟨index, inside, rfl⟩ := List.mem_map.mp member
  have few : index < 2048 := List.mem_range.mp inside
  -- The stack ends far above them and is eight megabytes long.
  have start : (userStackTop - BitVec.ofNat 64 userStackSize).toNat = 0x7FFFFF7FFFFF := by decide
  rw [pageNumber, pageAt, BitVec.toNat_add, start, BitVec.toNat_ofNat]
  omega

end Kernel

/-- The regions a process has so far lie above the large pages. -/
def Kernel.OrdinaryRegions (kernel : Kernel) (process : Nat) : Prop :=
  ∀ region ∈ (kernel.records process).memoryRegions, ∀ addr ∈ region.pages, 4096 ≤ pageNumber addr

/-- Every frame handed out is returned, and the process keeps its kernel stack. -/
def SetUp.Restores (setUp : SetUp) (kernel : Kernel) (process : Nat) : Prop :=
  Returns setUp.handed setUp.kernel.memory ∧
    (setUp.kernel.records process).kernelStack = (kernel.records process).kernelStack

/--
When a set-up that fails for lack of a frame returns the frames it was handed.

A process that is not created returns none, so no frame may have been free.
The others restore the process only if it has no kernel stack to lose.
Besides, the frames must run out at a page before which all lie in recorded regions.
-/
theorem failed_setUp_restores_iff (kernel : Kernel) (process : Nat) :
    (kernel.memory.pmm.Manages → ∀ address after, kernel.createProcess address = .ok (-1, after) →
      after.memory = (kernel.memory.backAll true kernel.nextStackPages).memory ∧
        (Returns (kernel.memory.backAll true kernel.nextStackPages).handed after.memory ↔
          kernel.memory.pmm.freeFrames = 0)) ∧
    (∀ fs buffer program path setUp,
      kernel.loadProgram fs buffer program process path = .ok (some setUp) → setUp.short = true →
        (setUp.Restores kernel process → (kernel.records process).kernelStack = 0#64) ∧
        ∀ table broken, Settled kernel.memory table broken → kernel.OrdinaryRegions process →
          (∀ header ∈ fs.segments buffer path, header.Ordinary) →
            (setUp.Restores kernel process ↔ (kernel.records process).kernelStack = 0#64 ∧
              RunsOutCovered kernel.memory table broken (kernel.records process).memoryRegions
                ((fs.segments buffer path).map ProgramHeader.piece))) ∧
    ∀ program argv envp setUp,
      kernel.setupProcessStack program process argv envp = .ok (some setUp) → setUp.short = true →
        (setUp.Restores kernel process → (kernel.records process).kernelStack = 0#64) ∧
        ∀ table broken, Settled kernel.memory table broken → kernel.OrdinaryRegions process →
          (setUp.Restores kernel process ↔ (kernel.records process).kernelStack = 0#64 ∧
            RunsOutCovered kernel.memory table broken (kernel.records process).memoryRegions
              [stackPiece]) := by
  refine ⟨fun manages address after created => Kernel.createProcess_returns_iff manages created,
    ?_, ?_⟩
  · intro fs buffer program path setUp loaded short
    obtain ⟨file, loading, loads, stops, handed, cleaned⟩ := Kernel.loadProgram_short loaded short
    refine ⟨fun restores => ?_, fun table broken settled ordinary above => ?_⟩
    · rw [← restores.2]
      exact (Kernel.cleanupProcessMemory_releases cleaned).1
    have load : ∀ header ∈ fs.segments buffer path, header.type = ptLoad ∧ header.Ordinary :=
      fun header member => ⟨fs.segments_type buffer path header member, above header member⟩
    have ends := loadSegments_ends settled load loads
    rw [stops] at ends
    rcases loadSegments_handed load loads with
      ⟨enough, -⟩ | ⟨-, earlier, header, later, count, split, inside, pages, regions⟩
    · rw [enough] at stops
      cases stops
    · -- The regions of complete segments have the segments' pages.
      have covered : ∀ region ∈ loading.regions, ∀ addr ∈ region.pages, 4096 ≤ pageNumber addr := by
        intro region member addr
        rw [regions] at member
        rcases List.mem_append.mp member with new | old
        · obtain ⟨other, there, rfl⟩ := List.mem_map.mp (List.mem_reverse.mp new)
          rw [other.region_pages]
          exact (load other (by rw [split]; exact List.mem_append_left _ there)).2.pages addr
        · exact ordinary region old addr
      have high : ∀ pair ∈ loading.backing.handed, 4096 ≤ pageNumber pair.1 := by
        intro pair member
        obtain ⟨other, there, mine⟩ := loadSegments_mem load loads member
        exact (load other there).2.pages _ mine
      rw [SetUp.Restores, handed, Kernel.cleanupProcessMemory_restores_iff ends high covered cleaned]
      have pieces : ∀ headers : List ProgramHeader,
          (headers.map ProgramHeader.piece).flatMap Piece.pages = headers.flatMap ProgramHeader.pages ∧
            (headers.map ProgramHeader.piece).map Piece.region = headers.map ProgramHeader.region :=
        fun headers => ⟨by rw [List.flatMap_map]; rfl, by rw [List.map_map]; rfl⟩
      refine and_congr_right fun _ => ?_
      have inside' : count < header.piece.pages.length := inside
      rw [split, List.map_append, List.map_cons, runsOutCovered_iff ends inside'
        (by rw [(pieces earlier).1]; exact pages), (pieces earlier).2, regions]
  · intro program argv envp setUp done short
    obtain ⟨stops, handed, cleaned⟩ := Kernel.setupProcessStack_short done short
    refine ⟨fun restores => ?_, fun table broken settled ordinary => ?_⟩
    · rw [← restores.2]
      exact (Kernel.cleanupProcessMemory_releases cleaned).1
    have ends := backAll_ends settled Kernel.userStackPages_ordinary true
    rw [stops] at ends
    have high : ∀ pair ∈ (kernel.memory.backAll true userStackPages).handed, 4096 ≤ pageNumber pair.1 :=
      fun pair member => Kernel.userStackPages_ordinary _ (handed_mem _ _ _ member)
    obtain ⟨pages, -, some⟩ := kernel.memory.backAll_handed true userStackPages
    rw [SetUp.Restores, handed, Kernel.cleanupProcessMemory_restores_iff ends high ordinary cleaned]
    have whole : (kernel.memory.backAll true userStackPages).handed.map Prod.fst =
        ([] : List Piece).flatMap Piece.pages ++ stackPiece.pages.take
          (kernel.memory.backAll true userStackPages).handed.length := by
      rw [List.flatMap_nil, List.nil_append, stackPiece_pages]
      exact pages
    have inside : (kernel.memory.backAll true userStackPages).handed.length <
        stackPiece.pages.length := by
      rw [stackPiece_pages]
      exact some stops
    have runsOut := @runsOutCovered_iff _ _ _ _ _ ends (kernel.records process).memoryRegions _ [] _ _
      inside whole
    rw [List.map_nil, List.reverse_nil, List.nil_append, List.nil_append] at runsOut
    rw [runsOut]

/-- Memory with the tables built at boot and no frame left. -/
def fullMemory : PagedMemory :=
  { pmm := ⟨fun _ => 0xFFFFFFFF#32, 16384, 0, kernelMemoryStart⟩
    vmm := { fourFrames.initializeTables with frames := [] }
    answers := [] }

/-- The full memory is in order. -/
theorem fullMemory_settled : ∃ table, Settled fullMemory table [] := by
  obtain ⟨table, tables, -, own⟩ := PageTables.boot rfl fourFrames_fit.1 fourFrames_fit.2
  -- Every bit is set.
  have set : ∀ frame, PhysicalMemoryManager.bitSet fullMemory.pmm.bitmap frame = true := by
    intro frame
    have inside : frame % 32 < 32 := Nat.mod_lt _ (by decide)
    show (0xFFFFFFFF#32 &&& (1#32 <<< (frame % 32)) != 0#32) = true
    generalize frame % 32 = bit at inside
    revert bit
    decide
  have manages : fullMemory.pmm.Manages := by
    refine ⟨⟨?_, by decide, by decide⟩, rfl, rfl⟩
    show 0 = fullMemory.pmm.freeSet.card
    rw [eq_comm, Finset.card_eq_zero, Finset.eq_empty_iff_forall_notMem]
    intro frame member
    rw [PhysicalMemoryManager.mem_freeSet, set frame] at member
    exact absurd member.2 (by decide)
  refine ⟨table, Settled.ofBoot manages (tables.resupply List.nodup_nil
    (fun _ member => absurd member List.not_mem_nil) fun _ _ _ _ => List.not_mem_nil) rfl ?_⟩
  intro level number addr here
  obtain ⟨member, upper⟩ := own level number addr here
  refine ⟨⟨(addr - kernelMemoryStart) / pageSize, ?_, ?_, set _⟩, upper⟩
  · show _ < 16384
    clear here
    revert addr
    decide
  · show addr = kernelMemoryStart + _
    clear here
    revert addr
    decide

/-- A kernel over the full memory. -/
def fullKernel : Kernel :=
  bootKernel .roundRobin 1 fullMemory (fun _ => ⟨.ready, 0⟩) (fun _ => newRecord 0)

/-- Its memory is in order, and all of it is used. -/
theorem fullKernel_settled : (∃ table, Settled fullKernel.memory table []) ∧
    fullKernel.memory.pmm.freeFrames = 0 := by
  rw [fullKernel, bootKernel]
  exact ⟨fullMemory_settled, by rw [fullMemory]⟩

/-- A program of a hundred and twenty bytes that asks for one page at one gigabyte. -/
def smallProgram : Buffer :=
  putWord (putWord (putWord (putWord (putWord (putWord (putWord (putWord (putWord (putWord
    (fun _ => 0) 0 0x464C457F) 4 0x102) 16 2) 32 64) 56 1) 60 1) 64 1) 68 2) 80 0x40000000) 104 4096

/-- A volume with that program as its only file. -/
def programVolume : FileSystem :=
  FileSystem.smallVolume
    (putBytes (putWord (FileSystem.withEntry 2 0 [0x61] 0x20 3 <|
      FileSystem.withLink 2 endMark <| FileSystem.withLink 3 endMark fun _ => 0)
      (512 * 2 + 28) 120) (512 * 3) 120 smallProgram) 2

/-- The fields of a process without a program. -/
def noProgram : ProgramState := ⟨0, 0, 0, 0, 0, [], [], 0, 0, 0, 0, 0, 0⟩

/-- The header of its only segment. -/
def gigabyteHeader : ProgramHeader := ⟨1, 2, 0#64, 0x40000000#64, 0#64, 4096#64⟩

/-- The program asks for one page. -/
theorem programVolume_segments : programVolume.segments (fun _ => 0) [0x61] =
    [gigabyteHeader] := by
  decide +kernel

/-- That page is the one at one gigabyte. -/
theorem gigabyteHeader_pages : gigabyteHeader.pages = [0x40000000#64] := by
  decide +kernel

/-- It lies far above the large pages. -/
theorem gigabyteHeader_ordinary : gigabyteHeader.Ordinary := by
  refine ⟨fun addr member => ?_, fun index inside => ?_⟩
  · rw [gigabyteHeader_pages] at member
    rw [List.mem_singleton.mp member]
    decide
  · rw [show max gigabyteHeader.filesz.toNat gigabyteHeader.memsz.toNat = 4096 by decide] at inside
    rw [pageNumber, BitVec.toNat_add, BitVec.toNat_ofNat,
      show gigabyteHeader.vaddr.toNat = 0x40000000 by decide]
    omega

/-- With no frame left, the frames run out before the first page. -/
theorem runsOutCovered_full {memory : PagedMemory} {table : Nat → Nat → Option Nat}
    {broken : List Nat} (settled : Settled memory table broken) (empty : memory.pmm.freeFrames = 0)
    (regions : List MemoryRegion) {piece : Piece} (some : 0 < piece.pages.length) :
    RunsOutCovered memory table broken regions [piece] := by
  refine ⟨[], piece, [], 0, rfl, some, ⟨(Supplied.refl settled).supplies, empty.symm⟩, ?_⟩
  exact fun addr member => absurd member List.not_mem_nil

/-- A call that answers minus one has returned some kernel. -/
theorem exists_of_failed {result : Run (Int × Kernel)}
    (told : result.toOption.map Prod.fst = some (-1)) : ∃ after, result = .ok (-1, after) := by
  obtain ⟨⟨pid, after⟩, done, rfl⟩ := Option.map_eq_some_iff.mp told
  exact ⟨after, Run.toOption_eq_some.mp done⟩

/-- A call that reports a null answer has returned. -/
theorem exists_of_short {result : Run (Option SetUp)}
    (told : (result.toOption.bind id).map SetUp.short = some true) :
    ∃ setUp, result = .ok (some setUp) ∧ setUp.short = true := by
  obtain ⟨setUp, there, short⟩ := Option.map_eq_some_iff.mp told
  obtain ⟨answer, done, rfl⟩ := Option.bind_eq_some_iff.mp there
  exact ⟨setUp, Run.toOption_eq_some.mp done, short⟩

/-- With no frame left, each of the three fails and restores what there was. -/
theorem failed_setUp_restores_full :
    (∃ after, fullKernel.createProcess 16 = .ok (-1, after) ∧
      Returns (fullKernel.memory.backAll true fullKernel.nextStackPages).handed after.memory) ∧
    (∃ setUp, fullKernel.loadProgram programVolume (fun _ => 0) noProgram 16 [0x61] = .ok (some setUp) ∧
      setUp.short = true ∧ setUp.Restores fullKernel 16) ∧
    ∃ setUp, fullKernel.setupProcessStack noProgram 16 none none = .ok (some setUp) ∧
      setUp.short = true ∧ setUp.Restores fullKernel 16 := by
  obtain ⟨⟨table, settled⟩, empty⟩ := fullKernel_settled
  obtain ⟨create, load, stack⟩ := failed_setUp_restores_iff fullKernel 16
  have ordinary : fullKernel.OrdinaryRegions 16 := fun region member => absurd member List.not_mem_nil
  refine ⟨?_, ?_, ?_⟩
  · obtain ⟨after, done⟩ := exists_of_failed
      (show (fullKernel.createProcess 16).toOption.map Prod.fst = some (-1) by decide +kernel)
    exact ⟨after, done, (create settled.manages 16 after done).2.mpr empty⟩
  · obtain ⟨setUp, done, short⟩ := exists_of_short
      (show ((fullKernel.loadProgram programVolume (fun _ => 0) noProgram 16 [0x61]).toOption.bind
        id).map SetUp.short = some true by decide +kernel)
    refine ⟨setUp, done, short, ((load _ _ _ _ setUp done short).2 table [] settled ordinary ?_).mpr
      ⟨rfl, ?_⟩⟩
    · rw [programVolume_segments]
      intro header member
      rw [List.mem_singleton.mp member]
      exact gigabyteHeader_ordinary
    · rw [programVolume_segments]
      exact runsOutCovered_full settled empty _ (by
        rw [ProgramHeader.piece, gigabyteHeader_pages]
        decide)
  · obtain ⟨setUp, done, short⟩ := exists_of_short
      (show ((fullKernel.setupProcessStack noProgram 16 none none).toOption.bind id).map
        SetUp.short = some true by decide +kernel)
    refine ⟨setUp, done, short, ((stack _ _ _ setUp done short).2 table [] settled ordinary).mpr
      ⟨rfl, runsOutCovered_full settled empty _ ?_⟩⟩
    rw [stackPiece_pages]
    decide +kernel

/-- The same kernel with one frame left, at thirty-three megabytes. -/
def lastFrameKernel : Kernel :=
  { fullKernel with
    memory := { fullMemory with
      pmm := ⟨fun word => if word = 256 then 0xFFFFFFFE#32 else 0xFFFFFFFF#32, 16384, 1,
        kernelMemoryStart⟩ } }

/-- With one frame left no process can be created, and then the frame is gone. -/
theorem createProcess_loses_frame :
    ¬ ∀ address after, lastFrameKernel.createProcess address = .ok (-1, after) →
      Returns (lastFrameKernel.memory.backAll true lastFrameKernel.nextStackPages).handed
        after.memory := by
  intro claimed
  obtain ⟨after, done⟩ := exists_of_failed
    (show (lastFrameKernel.createProcess 16).toOption.map Prod.fst = some (-1) by decide +kernel)
  have same := (Kernel.createProcess_memory done).trans (backPages_eq_backAll _ _ _).1
  -- It was handed out for the first page of the stack.
  have handed : (lastFrameKernel.memory.backAll true lastFrameKernel.nextStackPages).handed =
      [(0xFFFFFFFF80004000#64, 0x2100000)] := by decide +kernel
  have returns := claimed 16 after done
  rw [handed] at returns
  refine (returns _ List.mem_cons_self).1 ?_
  rw [same]
  exact ⟨8192, by decide +kernel, by decide +kernel, by decide +kernel⟩


end Pocky
