import Pocky.Memory.PagedMemoryLaws
import Pocky.Memory.ShownPages

/-! Frames and page tables that agree on who owns what, also after frames have run out. -/

namespace Pocky

open PageTableEntry VirtualMemoryManager PhysicalMemoryManager

/-- The allocator gives null exactly when no frame is free. -/
theorem PhysicalMemoryManager.Manages.allocateFrame_null_iff {pmm : PhysicalMemoryManager}
    (manages : pmm.Manages) : pmm.allocateFrame.1 = 0 ↔ pmm.freeFrames = 0 := by
  constructor
  · intro null
    by_contra some
    exact (manages.allocateFrame_available (Nat.pos_of_ne_zero some)).1 null
  · intro none
    rw [PhysicalMemoryManager.allocateFrame, if_pos none]

/-- Asked for more frames than are free, the allocator gives those and then nulls. -/
theorem PhysicalMemoryManager.Manages.allocateFrames_split {pmm : PhysicalMemoryManager}
    (manages : pmm.Manages) (count : Nat) :
    pmm.allocateFrames count =
      ((pmm.allocateFrames (min count pmm.freeFrames)).1 ++
        List.replicate (count - min count pmm.freeFrames) 0,
      (pmm.allocateFrames (min count pmm.freeFrames)).2) := by
  -- By induction on the number of frames asked for.
  induction count generalizing pmm with
  | zero => simp [PhysicalMemoryManager.allocateFrames]
  | succ count ih =>
    by_cases none : pmm.freeFrames = 0
    · have null : pmm.allocateFrame = (0, pmm) := by
        rw [PhysicalMemoryManager.allocateFrame, if_pos none]
      have rest := ih manages
      simp only [none, Nat.min_zero, Nat.sub_zero, PhysicalMemoryManager.allocateFrames,
        List.nil_append] at rest
      simp only [none, Nat.min_zero, Nat.sub_zero, PhysicalMemoryManager.allocateFrames, null, rest,
        List.nil_append, List.replicate_succ]
    · obtain ⟨-, fewer⟩ := manages.allocateFrame_available (Nat.pos_of_ne_zero none)
      have rest := ih manages.allocateFrame.1
      rw [show min (count + 1) pmm.freeFrames = min count pmm.allocateFrame.2.freeFrames + 1 by omega]
      simp only [PhysicalMemoryManager.allocateFrames, List.cons_append]
      rw [rest, show count + 1 - (min count pmm.allocateFrame.2.freeFrames + 1) =
        count - min count pmm.allocateFrame.2.freeFrames by omega]

namespace VirtualMemoryManager

/-- The same state with nulls behind the frames to come; some are gone only after those are. -/
def Padded (count : Nat) (vmm padded : VirtualMemoryManager) : Prop :=
  ∃ left ≤ count, padded = { vmm with frames := vmm.frames ++ List.replicate left 0 } ∧
    (left = count ∨ vmm.frames = [])

namespace Padded

variable {count : Nat} {vmm padded : VirtualMemoryManager}

/-- Memory is the same. -/
theorem readEntry (pads : Padded count vmm padded) (table index : Nat) :
    padded.readEntry table index = vmm.readEntry table index := by
  obtain ⟨left, -, rfl, -⟩ := pads
  rfl

/-- So is what is written to it. -/
theorem writeEntry (pads : Padded count vmm padded) (table index : Nat) (entry : PageTableEntry) :
    Padded count (vmm.writeEntry table index entry) (padded.writeEntry table index entry) := by
  obtain ⟨left, few, rfl, spent⟩ := pads
  exact ⟨left, few, rfl, spent⟩

/-- A null is as good as no answer. -/
theorem createPageTable (pads : Padded count vmm padded) :
    padded.createPageTable.1 = vmm.createPageTable.1 ∧
      Padded count vmm.createPageTable.2 padded.createPageTable.2 := by
  obtain ⟨left, few, rfl, spent⟩ := pads
  cases frames : vmm.frames with
  | cons frame rest =>
    -- The first frame is the same.
    have same : left = count := spent.resolve_right (by rw [frames]; exact List.cons_ne_nil _ _)
    simp only [VirtualMemoryManager.createPageTable, nextFrame, frames, List.cons_append]
    exact ⟨trivial, left, few, rfl, Or.inl same⟩
  | nil =>
    cases left with
    | zero =>
      simp only [VirtualMemoryManager.createPageTable, nextFrame, frames, List.replicate_zero,
        List.append_nil]
      refine ⟨trivial, 0, few, ?_, Or.inr frames⟩
      simp only [clearTable, frames, List.replicate_zero, List.append_nil]
    | succ left =>
      simp only [VirtualMemoryManager.createPageTable, nextFrame, frames, List.replicate_succ,
        List.nil_append]
      refine ⟨trivial, left, by omega, ?_, Or.inr frames⟩
      simp only [clearTable, frames, List.nil_append]

/-- A step of the walk does the same. -/
theorem getNextLevel (pads : Padded count vmm padded) (table index : Nat) (create : Bool) :
    (padded.getNextLevel table index create).1 = (vmm.getNextLevel table index create).1 ∧
      Padded count (vmm.getNextLevel table index create).2
        (padded.getNextLevel table index create).2 := by
  -- Creating a table first, if one is missing and asked for.
  have created : Padded count
      (if !(vmm.readEntry table index).present && create then
        vmm.createPageTable.2.writeEntry table index (pointTo
          (vmm.createPageTable.2.readEntry table index)
          (BitVec.ofNat 64 vmm.createPageTable.1) true)
      else vmm)
      (if !(padded.readEntry table index).present && create then
        padded.createPageTable.2.writeEntry table index (pointTo
          (padded.createPageTable.2.readEntry table index)
          (BitVec.ofNat 64 padded.createPageTable.1) true)
      else padded) := by
    rw [pads.readEntry]
    split
    · obtain ⟨same, pads'⟩ := pads.createPageTable
      rw [same, pads'.readEntry]
      exact pads'.writeEntry _ _ _
    · exact pads
  -- Then the entry is followed.
  have follow : ∀ {before before' : VirtualMemoryManager}, Padded count before before' →
      (if !(before'.readEntry table index).present then ((0 : Nat), before')
        else ((before'.readEntry table index).address.toNat, before')).1 =
      (if !(before.readEntry table index).present then ((0 : Nat), before)
        else ((before.readEntry table index).address.toNat, before)).1 ∧
      Padded count (if !(before.readEntry table index).present then ((0 : Nat), before)
        else ((before.readEntry table index).address.toNat, before)).2
        (if !(before'.readEntry table index).present then ((0 : Nat), before')
          else ((before'.readEntry table index).address.toNat, before')).2 := by
    intro before before' pads'
    rw [pads'.readEntry]
    split
    · exact ⟨rfl, pads'⟩
    · exact ⟨rfl, pads'⟩
  exact follow created

/-- So does the whole walk. -/
theorem walk (pads : Padded count vmm padded) (virtualAddr : BitVec 64) (create : Bool) :
    (padded.walk virtualAddr create).1 = (vmm.walk virtualAddr create).1 ∧
      Padded count (vmm.walk virtualAddr create).2 (padded.walk virtualAddr create).2 := by
  have root : padded.pml4 = vmm.pml4 := by
    obtain ⟨left, -, rfl, -⟩ := pads
    rfl
  obtain ⟨same₁, pads₁⟩ := pads.getNextLevel vmm.pml4 (pml4Index virtualAddr) create
  simp only [VirtualMemoryManager.walk, root]
  rw [same₁]
  split
  · exact ⟨rfl, pads₁⟩
  · obtain ⟨same₂, pads₂⟩ := pads₁.getNextLevel
      (vmm.getNextLevel vmm.pml4 (pml4Index virtualAddr) create).1 (pdptIndex virtualAddr) create
    rw [same₂]
    split
    · exact ⟨rfl, pads₂⟩
    · exact pads₂.getNextLevel _ _ _

/-- So does mapping a page. -/
theorem mapPage (pads : Padded count vmm padded) (virtualAddr physicalAddr : BitVec 64)
    (writable : Bool) : Padded count (vmm.mapPage virtualAddr physicalAddr writable)
      (padded.mapPage virtualAddr physicalAddr writable) := by
  obtain ⟨same, pads'⟩ := pads.walk (virtualAddr &&& pageMask) true
  simp only [VirtualMemoryManager.mapPage]
  rw [same, pads'.readEntry]
  split
  · exact pads'
  · split
    · exact pads'.writeEntry _ _ _
    · exact pads'

end Padded

end VirtualMemoryManager

/-- The frames to come may be others, if they are fit for tables, all different and no tables yet. -/
theorem PageTables.resupply {vmm : VirtualMemoryManager} {table : Nat → Nat → Option Nat}
    {broken : List Nat} (tables : PageTables vmm table broken) {frames : List Nat}
    (nodup : frames.Nodup) (fit : ∀ frame ∈ frames, TableFrame frame)
    (unused : ∀ level number addr, table level number = some addr → addr ∉ frames) :
    PageTables { vmm with frames := frames } table broken := by
  -- Only the tree speaks of the frames to come.
  obtain ⟨pages, tree⟩ := tables.tree
  exact ⟨⟨pages, tree.resupply nodup fit unused⟩, tables.low, tables.clean, tables.nulls,
    tables.blank⟩

/-- Tables and pages lie in used frames, each in one of its own. -/
structure Settled (memory : PagedMemory) (table : Nat → Nat → Option Nat) (broken : List Nat) :
    Prop where
  /-- The allocator works. -/
  manages : memory.pmm.Manages
  /-- The tables are in order, but perhaps for some broken entries. -/
  tables : PageTables memory.vmm table broken
  /-- No answer of the allocator is waiting. -/
  idle : memory.vmm.frames = []
  /-- A table lies in a used frame. -/
  owned : ∀ level number addr, table level number = some addr → memory.pmm.Used addr
  /-- A page is backed by a used frame, and not by a table. -/
  mapped : ∀ page frame, 4096 ≤ page → memory.vmm.shown table page = some frame →
    memory.pmm.Used frame.toNat ∧ ∀ level number, table level number ≠ some frame.toNat
  /-- No frame backs two pages. -/
  unshared : ∀ page page' frame, 4096 ≤ page → 4096 ≤ page' →
    memory.vmm.shown table page = some frame → memory.vmm.shown table page' = some frame →
      page = page'

/-- What mapping a page to a used frame that is neither a table nor behind a page comes to. -/
inductive MapsFrame (memory : PagedMemory) (table : Nat → Nat → Option Nat) (broken : List Nat)
    (virtualAddr physicalAddr : BitVec 64) : PagedMemory → Prop where
  /-- The page was not mapped, and now it is; each missing table has cost a frame. -/
  | filled {after : PagedMemory} {table' : Nat → Nat → Option Nat}
      (settled : Settled after table' broken)
      (grow : ∀ level number addr, table level number = some addr → table' level number = some addr)
      (absent : memory.vmm.shown table (pageNumber virtualAddr) = none)
      (unblocked : ¬ BlockedPage table broken (pageNumber virtualAddr))
      (shown : ∀ other, after.vmm.shown table' other =
        if other = pageNumber virtualAddr then some physicalAddr
        else memory.vmm.shown table other)
      (used : ∀ addr, memory.pmm.Used addr → after.pmm.Used addr)
      (clear : ∀ addr, memory.pmm.Used addr → (∀ level number, table level number ≠ some addr) →
        ∀ level number, table' level number ≠ some addr)
      (cost : ∀ addrs, (missingNodes table (virtualAddr :: addrs)).card + after.pmm.freeFrames =
        (missingNodes table' addrs).card + memory.pmm.freeFrames) :
      MapsFrame memory table broken virtualAddr physicalAddr after
  /-- The page was mapped already, its way is blocked, or the frames are too few for the tables. -/
  | kept {after : PagedMemory} {table' : Nat → Nat → Option Nat} {broken' : List Nat}
      (settled : Settled after table' broken')
      (shown : ∀ other, after.vmm.shown table' other = memory.vmm.shown table other)
      (used : ∀ addr, memory.pmm.Used addr → after.pmm.Used addr)
      (clear : ∀ addr, memory.pmm.Used addr → (∀ level number, table level number ≠ some addr) →
        ∀ level number, table' level number ≠ some addr)
      (why : memory.vmm.shown table (pageNumber virtualAddr) ≠ none ∨
        BlockedPage table broken (pageNumber virtualAddr) ∨
        memory.pmm.freeFrames < (missingNodes table [virtualAddr]).card) :
      MapsFrame memory table broken virtualAddr physicalAddr after

namespace Settled

variable {memory : PagedMemory} {table : Nat → Nat → Option Nat} {broken : List Nat}

/-- Mapping a page asks the allocator for the frames of its tables only, as long as it gives any. -/
theorem mapPage_supply (settled : Settled memory table broken) (virtualAddr physicalAddr : BitVec 64)
    (writable : Bool) :
    ∃ frames, frames.Nodup ∧ (∀ frame ∈ frames, TableFrame frame ∧ ¬ memory.pmm.Used frame) ∧
      frames.length = min 3 memory.pmm.freeFrames ∧ ∀ taken,
      frames = taken ++ (VirtualMemoryManager.mapPage { memory.vmm with frames := frames } virtualAddr
        physicalAddr writable).frames →
      (memory.mapPage virtualAddr physicalAddr writable).vmm =
        { VirtualMemoryManager.mapPage { memory.vmm with frames := frames } virtualAddr physicalAddr
          writable with frames := [] } ∧
      (memory.mapPage virtualAddr physicalAddr writable).pmm.Manages ∧
      (memory.mapPage virtualAddr physicalAddr writable).pmm.freeFrames + taken.length =
        memory.pmm.freeFrames ∧
      ∀ addr, (memory.mapPage virtualAddr physicalAddr writable).pmm.Used addr ↔
        memory.pmm.Used addr ∨ addr ∈ taken := by
  have manages := settled.manages
  obtain ⟨given, -⟩ := manages.allocateFrames_available (Nat.min_le_right 3 memory.pmm.freeFrames)
  obtain ⟨manages', nodup, fresh, used⟩ := manages.allocateFrames given
  refine ⟨(memory.pmm.allocateFrames (min 3 memory.pmm.freeFrames)).1, nodup,
    fun frame member => ⟨(manages'.used_fit ((used frame).mpr (Or.inr member))).1, fresh frame member⟩,
    PhysicalMemoryManager.length_allocateFrames _ _, fun taken split => ?_⟩
  -- The call sees nulls behind the frames there are.
  have pads : Padded (3 - min 3 memory.pmm.freeFrames)
      { memory.vmm with frames := (memory.pmm.allocateFrames (min 3 memory.pmm.freeFrames)).1 }
      { memory.vmm with frames := (memory.pmm.allocateFrames 3).1 } :=
    ⟨_, Nat.le_refl _, by rw [manages.allocateFrames_split 3], Or.inl rfl⟩
  obtain ⟨left, few, reached, spent⟩ := pads.mapPage virtualAddr physicalAddr writable
  generalize called : VirtualMemoryManager.mapPage
    { memory.vmm with frames := (memory.pmm.allocateFrames (min 3 memory.pmm.freeFrames)).1 }
    virtualAddr physicalAddr writable = vmm at split reached spent
  have length := congrArg List.length split
  rw [PhysicalMemoryManager.length_allocateFrames, List.length_append] at length
  -- So the frames it has taken are those the allocator gives.
  have count : min (3 - (vmm.frames ++ List.replicate left 0).length) memory.pmm.freeFrames =
      taken.length := by
    rw [List.length_append, List.length_replicate]
    rcases spent with rfl | none
    · omega
    · rw [none, List.length_nil] at length ⊢
      omega
  have after : memory.mapPage virtualAddr physicalAddr writable =
      { pmm := (memory.pmm.allocateFrames taken.length).2
        vmm := { vmm with frames := [] }
        answers := (memory.mapPage virtualAddr physicalAddr writable).answers } := by
    have asked := manages.allocateFrames_split (3 - (vmm.frames ++ List.replicate left 0).length)
    rw [count] at asked
    simp only [PagedMemory.mapPage, PagedMemory.takingFrames, reached]
    rw [asked]
  have own : (memory.pmm.allocateFrames taken.length).1 = taken := by
    rw [PhysicalMemoryManager.allocateFrames_take _ (show taken.length ≤
      min 3 memory.pmm.freeFrames by omega), split, List.take_left]
  obtain ⟨given', left'⟩ := manages.allocateFrames_available
    (show taken.length ≤ memory.pmm.freeFrames by omega)
  obtain ⟨manages'', -, -, used'⟩ := manages.allocateFrames given'
  rw [own] at used'
  rw [after]
  exact ⟨rfl, manages'', left', used'⟩

/-- A frame used before holds a table now only if it held one then. -/
theorem clear_of_new {table' : Nat → Nat → Option Nat} {taken : List Nat}
    (new : ∀ level number addr, table' level number = some addr → table level number = some addr ∨
      addr ∈ taken) (fresh : ∀ frame ∈ taken, ¬ memory.pmm.Used frame) {addr : Nat}
    (used : memory.pmm.Used addr) (none : ∀ level number, table level number ≠ some addr) :
    ∀ level number, table' level number ≠ some addr := by
  -- New tables lie in frames that were free.
  intro level number here
  rcases new level number addr here with old | member
  · exact none level number old
  · exact fresh addr member used

/-- New tables in frames that were free keep the rest in order. -/
theorem addTables (settled : Settled memory table broken) (page : Nat) {after : PagedMemory}
    {table' : Nat → Nat → Option Nat} {broken' taken : List Nat}
    (manages : after.pmm.Manages) (tables : PageTables after.vmm table' broken')
    (idle : after.vmm.frames = [])
    (new : ∀ level number addr, table' level number = some addr → table level number = some addr ∨
      addr ∈ taken) (fresh : ∀ frame ∈ taken, ¬ memory.pmm.Used frame)
    (used : ∀ addr, after.pmm.Used addr ↔ memory.pmm.Used addr ∨ addr ∈ taken)
    {physicalAddr : BitVec 64} (backs : memory.pmm.Used physicalAddr.toNat)
    (apart : ∀ level number, table level number ≠ some physicalAddr.toNat)
    (unshown : ∀ page, 4096 ≤ page → memory.vmm.shown table page ≠ some physicalAddr)
    (shown : ∀ other, after.vmm.shown table' other = memory.vmm.shown table other ∨
      other = page ∧ after.vmm.shown table' other = some physicalAddr) :
    Settled after table' broken' := by
  refine ⟨manages, tables, idle, ?_, ?_, ?_⟩
  · intro level number addr here
    rw [used]
    exact (new level number addr here).imp_left (settled.owned level number addr)
  · intro other frame ordinary shows
    rcases shown other with same | ⟨-, mine⟩
    · rw [same] at shows
      obtain ⟨before, none⟩ := settled.mapped other frame ordinary shows
      exact ⟨(used _).mpr (Or.inl before), clear_of_new new fresh before none⟩
    · obtain rfl := Option.some.inj (mine.symm.trans shows)
      exact ⟨(used _).mpr (Or.inl backs), clear_of_new new fresh backs apart⟩
  · intro other other' frame ordinary ordinary' shows shows'
    rcases shown other with same | ⟨rfl, mine⟩
    · rcases shown other' with same' | ⟨rfl, mine'⟩
      · exact settled.unshared other other' frame ordinary ordinary' (same ▸ shows) (same' ▸ shows')
      · obtain rfl := Option.some.inj (mine'.symm.trans shows')
        exact absurd (same ▸ shows) (unshown other ordinary)
    · rcases shown other' with same' | ⟨rfl, -⟩
      · obtain rfl := Option.some.inj (mine.symm.trans shows)
        exact absurd (same' ▸ shows') (unshown other' ordinary')
      · rfl

/-- Mapping a page to a used frame that is neither a table nor behind a page. -/
theorem mapPage (settled : Settled memory table broken) {virtualAddr physicalAddr : BitVec 64}
    (ordinary : 4096 ≤ pageNumber virtualAddr) (backs : memory.pmm.Used physicalAddr.toNat)
    (apart : ∀ level number, table level number ≠ some physicalAddr.toNat)
    (unshown : ∀ page, 4096 ≤ page → memory.vmm.shown table page ≠ some physicalAddr)
    (writable : Bool) :
    MapsFrame memory table broken virtualAddr physicalAddr
      (memory.mapPage virtualAddr physicalAddr writable) := by
  obtain ⟨frames, nodup, fit, length, outcome⟩ :=
    settled.mapPage_supply virtualAddr physicalAddr writable
  generalize memory.mapPage virtualAddr physicalAddr writable = after at outcome
  have supplied : PageTables { memory.vmm with frames := frames } table broken :=
    settled.tables.resupply nodup (fun frame member => (fit frame member).1)
      fun level number addr here member => (fit addr member).2 (settled.owned level number addr here)
  have ending := supplied.mapPage_ending ordinary (settled.manages.used_fit backs).1 writable
  generalize VirtualMemoryManager.mapPage { memory.vmm with frames := frames } virtualAddr
    physicalAddr writable = vmm at ending outcome
  cases ending with
  | @filled table' taken tables adds here absent shown =>
    obtain ⟨same, manages, cost, used⟩ := outcome taken adds.frames
    have split : frames = taken ++ vmm.frames := adds.frames
    have fresh : ∀ frame ∈ taken, ¬ memory.pmm.Used frame := fun frame member =>
      (fit frame (by rw [split]; exact List.mem_append_left _ member)).2
    have tables' : PageTables after.vmm table' broken := by
      rw [same]
      exact tables.resupply List.nodup_nil (fun _ member => absurd member List.not_mem_nil)
        fun _ _ _ _ => List.not_mem_nil
    have shown' : ∀ other, after.vmm.shown table' other =
        if other = pageNumber virtualAddr then some physicalAddr
        else memory.vmm.shown table other := by
      rw [same]
      exact shown
    have new := fun level number addr there => (adds.new level number addr there).imp_right And.left
    -- With its last table in place the page cannot be blocked.
    have unblocked : ¬ BlockedPage table broken (pageNumber virtualAddr) := by
      rintro ⟨level, upper, addr, there, member⟩
      obtain ⟨level', upper', -, -, -, none⟩ := tables.blocked_at ordinary (fun _ _ _ there => there)
        tables ⟨level, upper, addr, adds.grow _ _ _ there, member⟩
      have last := tables.way_missing (show level' + 1 ≤ 3 by omega) (Nat.le_refl 3) none
      rw [show 4 - 3 = 1 from rfl, Nat.pow_one] at last
      rw [last] at here
      cases here
    refine .filled (settled.addTables (pageNumber virtualAddr) manages tables' (by rw [same]) new fresh
      used backs apart unshown fun other => ?_) adds.grow absent unblocked shown'
      (fun addr before => (used addr).mpr (Or.inl before))
      (fun addr before none => clear_of_new new fresh before none) fun addrs => ?_
    · rw [shown']
      split
      · rename_i this
        exact Or.inr ⟨this, rfl⟩
      · exact Or.inl rfl
    · rw [supplied.adds_reached tables adds here addrs]
      omega
  | @kept table' broken' taken tables adds shown why =>
    obtain ⟨same, manages, cost, used⟩ := outcome taken adds.frames
    have split : frames = taken ++ vmm.frames := adds.frames
    have fresh : ∀ frame ∈ taken, ¬ memory.pmm.Used frame := fun frame member =>
      (fit frame (by rw [split]; exact List.mem_append_left _ member)).2
    have tables' : PageTables after.vmm table' broken' := by
      rw [same]
      exact tables.resupply List.nodup_nil (fun _ member => absurd member List.not_mem_nil)
        fun _ _ _ _ => List.not_mem_nil
    have shown' : ∀ other, after.vmm.shown table' other = memory.vmm.shown table other := by
      rw [same]
      exact shown
    have new := fun level number addr there => (adds.new level number addr there).imp_right And.left
    refine .kept (settled.addTables 0 manages tables' (by rw [same]) new fresh used backs apart unshown
      fun other => Or.inl (shown' other)) shown' (fun addr before => (used addr).mpr (Or.inl before))
      (fun addr before none => clear_of_new new fresh before none)
      (why.imp_right (Or.imp_right ?_))
    -- All the frames there were have been taken, and the last table is still missing.
    rintro ⟨all, absent⟩
    have whole : taken = frames := all
    have few := supplied.adds_short tables adds absent
    rw [whole, length] at few
    have three := PageTables.missingNodes_single table virtualAddr
    omega

/-- Taking a frame keeps everything in order, and the frame is neither a table nor behind a page. -/
theorem allocateFrame (settled : Settled memory table broken)
    (given : memory.allocateFrame.1 ≠ 0) :
    Settled memory.allocateFrame.2 table broken ∧
      memory.allocateFrame.2.pmm.freeFrames + 1 = memory.pmm.freeFrames ∧
      (BitVec.ofNat 64 memory.allocateFrame.1).toNat = memory.allocateFrame.1 ∧
      memory.allocateFrame.2.pmm.Used memory.allocateFrame.1 ∧
      (∀ addr, memory.pmm.Used addr → memory.allocateFrame.2.pmm.Used addr) ∧
      (∀ level number, table level number ≠ some memory.allocateFrame.1) ∧
      ∀ page, 4096 ≤ page →
        memory.vmm.shown table page ≠ some (BitVec.ofNat 64 memory.allocateFrame.1) := by
  obtain ⟨manages, -, one⟩ := settled.manages.allocateFrame
  obtain ⟨fresh, used⟩ := one given
  have free : memory.pmm.freeFrames ≠ 0 :=
    fun none => given (settled.manages.allocateFrame_null_iff.mpr none)
  have fewer := (settled.manages.allocateFrame_available (Nat.pos_of_ne_zero free)).2
  have before : ∀ addr, memory.pmm.Used addr → memory.pmm.allocateFrame.2.Used addr :=
    fun addr held => (used addr).mpr (Or.inl held)
  have taken : memory.pmm.allocateFrame.2.Used memory.pmm.allocateFrame.1 :=
    (used _).mpr (Or.inr rfl)
  have whole : (BitVec.ofNat 64 memory.allocateFrame.1).toNat = memory.allocateFrame.1 :=
    manages.toNat_used taken
  refine ⟨⟨manages, settled.tables, settled.idle,
    fun level number addr here => before addr (settled.owned level number addr here), ?_,
    settled.unshared⟩, fewer, whole, taken, before, ?_, ?_⟩
  · intro page frame ordinary shows
    obtain ⟨held, clear⟩ := settled.mapped page frame ordinary shows
    exact ⟨before _ held, clear⟩
  · exact fun level number here => fresh (settled.owned level number _ here)
  · intro page ordinary shows
    have held := (settled.mapped page _ ordinary shows).1
    rw [whole] at held
    exact fresh held

/-- Releasing a page unmaps it alone, and frees exactly the frame behind it, if there is one. -/
theorem releasePage (settled : Settled memory table broken) {virtualAddr : BitVec 64}
    (ordinary : 4096 ≤ pageNumber virtualAddr) :
    Settled (memory.releasePage virtualAddr) table broken ∧
      (∀ other, (memory.releasePage virtualAddr).vmm.shown table other =
        if other = pageNumber virtualAddr then none else memory.vmm.shown table other) ∧
      ∀ addr, (memory.releasePage virtualAddr).pmm.Used addr ↔ memory.pmm.Used addr ∧
        ∀ frame, memory.vmm.shown table (pageNumber virtualAddr) = some frame →
          frame.toNat ≠ addr := by
  have looked : memory.getPhysicalAddress virtualAddr =
      (memory.vmm.shown table (pageNumber virtualAddr)).getD 0#64 :=
    settled.tables.getPhysicalAddress_shown ordinary fun frame shows =>
      (settled.manages.used_fit (settled.mapped _ frame ordinary shows).1).1
  cases shows : memory.vmm.shown table (pageNumber virtualAddr) with
  | none =>
    -- Without a frame nothing is done.
    rw [shows, Option.getD_none] at looked
    have same : memory.releasePage virtualAddr = memory := if_pos looked
    rw [same]
    refine ⟨settled, fun other => ?_, fun addr => ?_⟩
    · split
      · rename_i this
        rw [this, shows]
      · rfl
    · simp
  | some frame =>
    rw [shows, Option.getD_some] at looked
    obtain ⟨used, clear⟩ := settled.mapped _ frame ordinary shows
    obtain ⟨⟨nonzero, -⟩, -⟩ := settled.manages.used_fit used
    have freed : memory.releasePage virtualAddr =
        (memory.freeFrame frame.toNat).unmapPage virtualAddr := by
      rw [PagedMemory.releasePage, looked]
      refine if_neg ?_
      rintro rfl
      exact nonzero rfl
    obtain ⟨manages, left⟩ := settled.manages.freeFrame used
    have shown := settled.tables.unmapPage_shown ordinary
    rw [freed]
    -- Every other page keeps its frame, which is another one.
    have elsewhere : ∀ page other, (memory.vmm.unmapPage virtualAddr).shown table page = some other →
        page ≠ pageNumber virtualAddr ∧ memory.vmm.shown table page = some other := by
      intro page other shows'
      rw [shown] at shows'
      split at shows'
      · cases shows'
      · rename_i apart
        exact ⟨apart, shows'⟩
    refine ⟨⟨manages, settled.tables.unmapPage ordinary, ?_, ?_, ?_, ?_⟩, shown, ?_⟩
    · rcases settled.tables.unmapPage_cases ordinary with same | ⟨pt, -, same⟩
      · exact (congrArg VirtualMemoryManager.frames same).trans settled.idle
      · exact (congrArg VirtualMemoryManager.frames same).trans settled.idle
    · intro level number addr here
      refine (left addr).mpr ⟨settled.owned level number addr here, ?_⟩
      rintro rfl
      exact clear level number here
    · intro page other high shows'
      obtain ⟨apart, before⟩ := elsewhere page other shows'
      obtain ⟨used', clear'⟩ := settled.mapped page other high before
      refine ⟨(left _).mpr ⟨used', fun same => apart ?_⟩, clear'⟩
      obtain rfl := BitVec.eq_of_toNat_eq same
      exact settled.unshared _ _ _ high ordinary before shows
    · intro page page' other high high' shows' shows''
      exact settled.unshared _ _ other high high' (elsewhere _ _ shows').2 (elsewhere _ _ shows'').2
    · intro addr
      show (memory.pmm.freeFrame frame.toNat).Used addr ↔ _
      rw [left addr]
      refine and_congr_right fun _ => ⟨fun apart other same => ?_, fun apart => ?_⟩
      · obtain rfl := Option.some.inj same
        exact Ne.symm apart
      · exact Ne.symm (apart frame rfl)

/-- A word stored in a used frame that holds no table changes nothing about tables and pages. -/
theorem writeWord (settled : Settled memory table broken) {frame place : Nat}
    (used : memory.pmm.Used frame) (clear : ∀ level number, table level number ≠ some frame)
    (inside : frame ≤ place ∧ place < frame + 4096) (word : BitVec 64) :
    Settled { memory with
      vmm := { memory.vmm with memory := Function.update memory.vmm.memory place word } } table broken ∧
    ∀ other, VirtualMemoryManager.shown
      { memory.vmm with memory := Function.update memory.vmm.memory place word } table other =
        memory.vmm.shown table other := by
  obtain ⟨⟨nonzero, aligned, -⟩, -⟩ := settled.manages.used_fit used
  -- The word lies in no table and not in the null page.
  have same : ∀ level number addr index, table level number = some addr → index < 512 →
      Function.update memory.vmm.memory place word (addr + 8 * index) =
        memory.vmm.memory (addr + 8 * index) := by
    intro level number addr index here within
    obtain ⟨⟨-, aligned', -⟩, -⟩ := settled.tables.placed here
    have apart : addr ≠ frame := fun equal => clear level number (equal ▸ here)
    exact Function.update_of_ne (by omega) ..
  have nullPage : ∀ low < 4096,
      Function.update memory.vmm.memory place word low = memory.vmm.memory low :=
    fun low few => Function.update_of_ne (by omega) ..
  have shown : ∀ other, VirtualMemoryManager.shown
      { memory.vmm with memory := Function.update memory.vmm.memory place word } table other =
        memory.vmm.shown table other := fun other =>
    PageTables.shown_congr fun pt last => same 3 _ pt _ last (Nat.mod_lt _ (by decide))
  refine ⟨⟨settled.manages, settled.tables.congr same nullPage, settled.idle, settled.owned, ?_, ?_⟩,
    shown⟩
  · intro page other high shows
    exact settled.mapped page other high ((shown page).symm.trans shows)
  · intro page page' other high high' shows shows'
    exact settled.unshared page page' other high high' ((shown page).symm.trans shows)
      ((shown page').symm.trans shows')

end Settled

/-- Without tables of the last level no page is shown. -/
theorem VirtualMemoryManager.shown_eq_none {vmm : VirtualMemoryManager}
    {table : Nat → Nat → Option Nat} (upper : ∀ level number addr, table level number = some addr →
      level < 3) (page : Nat) : vmm.shown table page = none := by
  cases last : table 3 (page / 512) with
  | none => rw [shown, last, Option.bind_none]
  | some pt => exact absurd (upper 3 _ pt last) (by decide)

/-- With tables in used frames and none of the last level, everything is in order. -/
theorem Settled.ofBoot {memory : PagedMemory} {table : Nat → Nat → Option Nat}
    (manages : memory.pmm.Manages) (tables : PageTables memory.vmm table [])
    (idle : memory.vmm.frames = [])
    (own : ∀ level number addr, table level number = some addr → memory.pmm.Used addr ∧ level < 3) :
    Settled memory table [] := by
  have unshown : ∀ page frame, memory.vmm.shown table page ≠ some frame := fun page frame => by
    rw [VirtualMemoryManager.shown_eq_none fun level number addr here => (own level number addr here).2]
    exact (Option.some_ne_none frame).symm
  exact ⟨manages, tables, idle, fun level number addr here => (own level number addr here).1,
    fun page frame _ shows => absurd shows (unshown page frame),
    fun page _ frame _ _ shows => absurd shows (unshown page frame)⟩

/-- Building the tables at boot takes four frames, leaves everything in order and shows no page. -/
theorem initializeTables_settled {boot : PhysicalMemoryManager} (manages : boot.Manages)
    (available : 7 ≤ boot.freeFrames) (memory : Nat → PageTableEntry) :
    let after := PagedMemory.takingFrames ⟨boot, ⟨memory, 0, []⟩, []⟩ 7
      VirtualMemoryManager.initializeTables
    after.pmm.freeFrames + 4 = boot.freeFrames ∧
      ∃ table, Settled after table [] ∧ ∀ page, after.vmm.shown table page = none := by
  intro after
  obtain ⟨seven, -⟩ := manages.allocateFrames_available available
  obtain ⟨four, fewer⟩ := manages.allocateFrames_available (show 4 ≤ boot.freeFrames by omega)
  obtain ⟨manages₇, nodup, -, used₇⟩ := manages.allocateFrames seven
  obtain ⟨manages₄, -, -, used⟩ := manages.allocateFrames four
  have fit : ∀ frame ∈ (boot.allocateFrames 7).1, TableFrame frame := fun frame member =>
    (manages₇.used_fit ((used₇ frame).mpr (Or.inr member))).1
  have length := boot.length_allocateFrames 7
  have first := boot.allocateFrames_take (show 4 ≤ 7 by decide)
  -- Four of the answers become tables, and the other three are never asked for.
  generalize answered : (boot.allocateFrames 7).1 = frames at nodup fit length first
  obtain ⟨pml4, pdpt, pd, kernelPdpt, rest, rfl⟩ : ∃ pml4 pdpt pd kernelPdpt rest,
      frames = pml4 :: pdpt :: pd :: kernelPdpt :: rest := by
    match frames, length with
    | pml4 :: pdpt :: pd :: kernelPdpt :: rest, _ => exact ⟨_, _, _, _, _, rfl⟩
  have shorter : rest.length = 3 := by simpa using length
  have taken : (boot.allocateFrames 4).1 = [pml4, pdpt, pd, kernelPdpt] := first
  obtain ⟨table, tables, left, own⟩ := @PageTables.boot
    ⟨memory, 0, pml4 :: pdpt :: pd :: kernelPdpt :: rest⟩ _ _ _ _ _ rfl nodup fit
  have reached : after =
        { pmm := (boot.allocateFrames 4).2
          vmm := { VirtualMemoryManager.initializeTables
            ⟨memory, 0, pml4 :: pdpt :: pd :: kernelPdpt :: rest⟩ with frames := [] }
          answers := (boot.allocateFrames 4).1 } := by
    simp only [after, PagedMemory.takingFrames, answered, left, shorter, List.nil_append]
  rw [reached]
  refine ⟨fewer, table, Settled.ofBoot manages₄ (tables.resupply List.nodup_nil
    (fun _ member => absurd member List.not_mem_nil) fun _ _ _ _ => List.not_mem_nil) rfl ?_,
    VirtualMemoryManager.shown_eq_none fun level number addr here => (own level number addr here).2⟩
  intro level number addr here
  obtain ⟨member, upper⟩ := own level number addr here
  exact ⟨(used addr).mpr (Or.inr (taken ▸ member)), upper⟩

/-- After boot everything is in order, no page is shown, and there are frames left. -/
theorem bootMemory_settled (pmm : PhysicalMemoryManager) (memory : Nat → PageTableEntry) :
    (bootMemory pmm memory).pmm.freeFrames + 4 = 12027 ∧
      ∃ table, Settled (bootMemory pmm memory) table [] ∧
        ∀ page, (bootMemory pmm memory).vmm.shown table page = none := by
  -- Far more than seven frames are free.
  obtain ⟨manages, available⟩ := pmm.initializeFrames_manages
  obtain ⟨fewer, settled⟩ := initializeTables_settled manages (by omega) memory
  rw [available] at fewer
  rw [bootMemory]
  exact ⟨fewer, settled⟩

end Pocky
