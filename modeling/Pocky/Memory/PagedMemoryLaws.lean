import Pocky.Memory.FrameOwnership

/-! Every used frame is reserved, holds a table, or backs exactly one page. -/

namespace Pocky

open PhysicalMemoryManager PagedMemory

/--
Between calls, the page tables and the frame allocator agree on who owns each frame.

Some frames are reserved from the start and belong to neither tables nor pages.
-/
structure Backed (reserved : Nat → Prop) (memory : PagedMemory) (table : Nat → Nat → Option Nat)
    (pages : Nat → Option (BitVec 64)) : Prop where
  /-- The allocator works. -/
  manages : memory.pmm.Manages
  /-- The tables form a tree that represents the pages. -/
  tree : PageTree 8 memory.vmm table pages
  /-- The table of the first large pages is there. -/
  low : (table 2 0).isSome
  /-- No answer of the allocator is waiting. -/
  idle : memory.vmm.frames = []
  /-- A table lies in a used frame. -/
  tables : ∀ level number addr, table level number = some addr → memory.pmm.Used addr
  /-- A page is backed by a used frame, and not by a table. -/
  mapped : ∀ page physicalAddr, pages page = some physicalAddr →
    memory.pmm.Used physicalAddr.toNat ∧
      ∀ level number, table level number ≠ some physicalAddr.toNat
  /-- No frame backs two pages. -/
  unshared : ∀ page page' physicalAddr, pages page = some physicalAddr →
    pages page' = some physicalAddr → page = page'
  /-- A frame used for neither is reserved. -/
  accounted : ∀ addr, memory.pmm.Used addr → reserved addr ∨
    (∃ level number, table level number = some addr) ∨
    ∃ page physicalAddr, pages page = some physicalAddr ∧ physicalAddr.toNat = addr

/-- A frame's address as a machine word. -/
theorem PhysicalMemoryManager.Manages.toNat_used {pmm : PhysicalMemoryManager} {addr : Nat}
    (manages : pmm.Manages) (used : pmm.Used addr) : (BitVec.ofNat 64 addr).toNat = addr := by
  -- The region ends far below the last address.
  obtain ⟨⟨-, -, small⟩, -⟩ := manages.used_fit used
  rw [BitVec.toNat_ofNat, Nat.mod_eq_of_lt (by omega)]

/-- The page at a page-aligned address starts there. -/
theorem pageAddress_aligned {physicalAddr : BitVec 64} (aligned : physicalAddr.toNat % 4096 = 0) :
    pageAddress physicalAddr = physicalAddr := by
  -- The bits that are masked out are clear already.
  apply BitVec.eq_of_getLsbD_eq
  intro i inside
  obtain ⟨-, -, page⟩ := PageTableEntry.getLsbD_masks i inside
  rw [pageAddress, BitVec.getLsbD_and, page]
  by_cases high : 12 ≤ i
  · simp [high]
  · have low := Nat.testBit_mod_two_pow physicalAddr.toNat 12 i
    rw [show 2 ^ 12 = 4096 from rfl, aligned, Nat.zero_testBit] at low
    simp only [show i < 12 by omega, decide_true, Bool.true_and] at low
    simp [high, BitVec.getLsbD, ← low]

/-- Frames fit for tables that lie behind the kernel's region. -/
def spareFrames : List Nat := [0x10000000, 0x10001000, 0x10002000]

/-- The spare frames are all different and fit for tables. -/
theorem spareFrames_fit : spareFrames.Nodup ∧ ∀ frame ∈ spareFrames, TableFrame frame ∧
    kernelMemoryStart + kernelMemorySize ≤ frame := by
  unfold TableFrame
  decide

namespace PagedMemory

variable {reserved : Nat → Prop} {memory : PagedMemory} {table : Nat → Nat → Option Nat}
  {pages : Nat → Option (BitVec 64)}

/-- Mapping a page takes frames for tables, and if none was null the tables made of them are in place. -/
theorem mapPage_tree (memory : PagedMemory) (manages : memory.pmm.Manages) (tree : PageTree 8 memory.vmm table pages)
    (low : (table 2 0).isSome)
    (tables : ∀ level number addr, table level number = some addr → memory.pmm.Used addr)
    {virtualAddr : BitVec 64} (ordinary : 4096 ≤ pageNumber virtualAddr) (physicalAddr : BitVec 64)
    (small : physicalAddr.toNat < 2 ^ 48) (writable : Bool)
    (given : 0 ∉ (memory.mapPage virtualAddr physicalAddr writable).answers) :
    (memory.mapPage virtualAddr physicalAddr writable).pmm.Manages ∧
    (memory.mapPage virtualAddr physicalAddr writable).vmm.frames = [] ∧
    ∃ (table' : Nat → Nat → Option Nat) (taken : List Nat),
      PageTree 8 (memory.mapPage virtualAddr physicalAddr writable).vmm table'
        (Function.update pages (pageNumber virtualAddr)
          (some ((pages (pageNumber virtualAddr)).getD physicalAddr))) ∧
      (∀ level number addr, table level number = some addr → table' level number = some addr) ∧
      (∀ level number addr, table' level number = some addr → table level number = some addr ∨
        addr ∈ taken ∧ level ≤ 3 ∧ number = pageNumber virtualAddr / 512 ^ (4 - level)) ∧
      (∀ frame ∈ taken, ¬ memory.pmm.Used frame ∧ ∃ level number, table' level number = some frame) ∧
      ∀ addr, (memory.mapPage virtualAddr physicalAddr writable).pmm.Used addr ↔
        memory.pmm.Used addr ∨ addr ∈ taken := by
  -- The call sees three answers, and looks at some of them.
  obtain ⟨taken, few, split, same⟩ := VirtualMemoryManager.mapPage_takesFrames
    { memory.vmm with frames := (memory.pmm.allocateFrames 3).1 }
    (by simp) virtualAddr physicalAddr writable
  dsimp only at split same
  generalize reached : VirtualMemoryManager.mapPage
    { memory.vmm with frames := (memory.pmm.allocateFrames 3).1 } virtualAddr physicalAddr writable =
    vmm' at split same
  have after : memory.mapPage virtualAddr physicalAddr writable =
      { pmm := (memory.pmm.allocateFrames (3 - vmm'.frames.length)).2
        vmm := { vmm' with frames := [] }
        answers := memory.answers ++ (memory.pmm.allocateFrames (3 - vmm'.frames.length)).1 } := by
    simp only [mapPage, takingFrames, reached]
  have length := congrArg List.length split
  rw [length_allocateFrames, List.length_append] at length
  -- Those it looks at are the ones the allocator has given.
  have answered : (memory.pmm.allocateFrames (3 - vmm'.frames.length)).1 = taken := by
    rw [allocateFrames_take _ (Nat.sub_le 3 _), split, show 3 - vmm'.frames.length = taken.length by
      omega, List.take_left]
  rw [after] at given ⊢
  have nonzero : 0 ∉ (memory.pmm.allocateFrames (3 - vmm'.frames.length)).1 :=
    fun null => given (List.mem_append_right _ null)
  obtain ⟨manages', nodup, fresh, used⟩ := manages.allocateFrames nonzero
  rw [answered] at nodup fresh used
  refine ⟨manages', rfl, ?_⟩
  -- With spare frames behind them the call does the same, and there are enough of those.
  obtain ⟨spare, outside⟩ := spareFrames_fit
  have supplied : PageTree 8 { memory.vmm with frames := taken ++ spareFrames } table pages := by
    refine tree.resupply ?_ ?_ ?_
    · refine List.nodup_append.mpr ⟨nodup, spare, ?_⟩
      rintro frame member other spared rfl
      have inside := (manages'.used_fit ((used frame).mpr (Or.inr member))).2
      have behind := (outside frame spared).2
      omega
    · intro frame member
      rcases List.mem_append.mp member with member | member
      · exact (manages'.used_fit ((used frame).mpr (Or.inr member))).1
      · exact (outside frame member).1
    · intro level number addr here member
      rcases List.mem_append.mp member with member | member
      · exact fresh addr member (tables level number addr here)
      · have inside := (manages.used_fit (tables level number addr here)).2
        have behind := (outside addr member).2
        omega
  obtain ⟨table', tree', grow, taken', split', -, new, made⟩ :=
    supplied.mapPage low ordinary small writable (by simp [spareFrames])
  have reached' := congrArg Prod.snd (same spareFrames)
  dsimp only at reached'
  rw [reached'] at tree' split'
  obtain rfl : taken = taken' := List.append_cancel_right split'
  refine ⟨table', taken, ?_, grow, new, fun frame member => ⟨fresh frame member, made frame member⟩,
    used⟩
  exact tree'.resupply List.nodup_nil (fun _ member => absurd member List.not_mem_nil)
    fun _ _ _ _ => List.not_mem_nil

/-- What the allocator has answered stays answered. -/
theorem mapPage_answers (memory : PagedMemory) (virtualAddr physicalAddr : BitVec 64)
    (writable : Bool) : ∃ frames,
      (memory.mapPage virtualAddr physicalAddr writable).answers = memory.answers ++ frames :=
  ⟨_, rfl⟩

/-- Backing a page asks for its frame first and then for those of its tables. -/
theorem backPage_answers (memory : PagedMemory) (virtualAddr : BitVec 64) :
    ∃ frames, (memory.allocateFrame.2.mapPage virtualAddr
        (BitVec.ofNat 64 memory.allocateFrame.1) true).answers =
      memory.answers ++ memory.allocateFrame.1 :: frames := by
  -- The frame's answer is the last one before the page is mapped.
  obtain ⟨frames, answers⟩ := memory.allocateFrame.2.mapPage_answers virtualAddr
    (BitVec.ofNat 64 memory.allocateFrame.1) true
  refine ⟨frames, answers.trans ?_⟩
  rw [show memory.allocateFrame.2.answers = memory.answers ++ [memory.allocateFrame.1] from rfl,
    List.append_assoc, List.singleton_append]

/-- Releasing a page asks the allocator for nothing. -/
theorem releasePage_answers (memory : PagedMemory) (virtualAddr : BitVec 64) :
    (memory.releasePage virtualAddr).answers = memory.answers := by
  unfold releasePage
  dsimp only
  split <;> rfl

/-- Releasing pages asks the allocator for nothing. -/
theorem releasePages_answers (memory : PagedMemory) (base : BitVec 64) (count : Nat) :
    (memory.releasePages base count).answers = memory.answers := by
  -- By induction on the number of pages.
  induction count with
  | zero => rfl
  | succ count ih => rw [releasePages, releasePage_answers, ih]

/-- Zeroing pages asks the allocator for nothing. -/
theorem zeroPages_answers (memory : PagedMemory) (base : BitVec 64) (count : Nat) :
    (memory.zeroPages base count).2.answers = memory.answers := by
  -- By induction on the number of pages.
  induction count with
  | zero => rfl
  | succ count ih =>
    rw [zeroPages]
    generalize memory.zeroPages base count = before at ih
    obtain ⟨_ | _, memory'⟩ := before
    · exact ih
    · dsimp only
      split <;> exact ih

/-- Backing one more page keeps what has been answered before. -/
theorem backPages_answers (memory : PagedMemory) (base : BitVec 64) (count : Nat) :
    ∃ frames, (memory.backPages base (count + 1)).2.answers =
      (memory.backPages base count).2.answers ++ frames := by
  rw [backPages]
  generalize memory.backPages base count = before
  obtain ⟨_ | reached, memory'⟩ := before
  · -- The frame of the page is asked for, and perhaps some for tables.
    dsimp only
    split
    · exact ⟨[memory'.allocateFrame.1], rfl⟩
    · obtain ⟨frames, answers⟩ := memory'.backPage_answers (pageAt base count)
      exact ⟨_, answers⟩
  · exact ⟨[], (List.append_nil _).symm⟩

/-- What the allocator has answered stays answered while pages are backed. -/
theorem backPages_extends (memory : PagedMemory) (base : BitVec 64) (count : Nat) :
    ∃ frames, (memory.backPages base count).2.answers = memory.answers ++ frames := by
  -- By induction on the number of pages.
  induction count with
  | zero => exact ⟨[], (List.append_nil _).symm⟩
  | succ count ih =>
    obtain ⟨earlier, before⟩ := ih
    obtain ⟨later, after⟩ := memory.backPages_answers base count
    exact ⟨earlier ++ later, by rw [after, before, List.append_assoc]⟩

/-- A call on the tables is given every frame it asks for while there are enough. -/
theorem takingFrames_available (memory : PagedMemory) (manages : memory.pmm.Manages)
    (given : 0 ∉ memory.answers) {limit : Nat} (available : limit ≤ memory.pmm.freeFrames)
    (call : VirtualMemoryManager → VirtualMemoryManager) :
    (memory.takingFrames limit call).pmm.Manages ∧ 0 ∉ (memory.takingFrames limit call).answers ∧
      memory.pmm.freeFrames ≤ (memory.takingFrames limit call).pmm.freeFrames + limit := by
  simp only [takingFrames]
  generalize (call { memory.vmm with frames := (memory.pmm.allocateFrames limit).1 }).frames = left
  -- It asks for no more than the limit.
  obtain ⟨nonzero, fewer⟩ :=
    manages.allocateFrames_available (show limit - left.length ≤ memory.pmm.freeFrames by omega)
  obtain ⟨manages', -⟩ := manages.allocateFrames nonzero
  refine ⟨manages', fun null => ?_, by omega⟩
  rcases List.mem_append.mp null with before | now
  · exact given before
  · exact nonzero now

/-- Pages are all backed while there are four free frames for each. -/
theorem backPages_available {memory : PagedMemory} (manages : memory.pmm.Manages)
    (given : 0 ∉ memory.answers) (base : BitVec 64) {count : Nat}
    (available : 4 * count ≤ memory.pmm.freeFrames) :
    (memory.backPages base count).2.pmm.Manages ∧ 0 ∉ (memory.backPages base count).2.answers ∧
      memory.pmm.freeFrames ≤ (memory.backPages base count).2.pmm.freeFrames + 4 * count := by
  -- By induction on the number of pages, each with a frame of its own and up to three for tables.
  induction count with
  | zero => exact ⟨manages, given, Nat.le_refl _⟩
  | succ count ih =>
    obtain ⟨manages', given', left⟩ := ih (by omega)
    rw [backPages]
    generalize memory.backPages base count = before at manages' given' left
    obtain ⟨_ | reached, memory'⟩ := before
    · dsimp only at manages' given' left ⊢
      obtain ⟨nonzero, fewer⟩ := manages'.allocateFrame_available (by omega)
      have nonnull : memory'.allocateFrame.1 ≠ 0 := nonzero
      have given'' : 0 ∉ memory'.allocateFrame.2.answers := fun null => by
        rcases List.mem_append.mp null with before | now
        · exact given' before
        · exact nonzero (List.mem_singleton.mp now).symm
      have enough : 3 ≤ memory'.allocateFrame.2.pmm.freeFrames := by
        show 3 ≤ memory'.pmm.allocateFrame.2.freeFrames
        omega
      obtain ⟨manages'', answered, left'⟩ := takingFrames_available
        memory'.allocateFrame.2 manages'.allocateFrame.1 given'' enough
        fun vmm => vmm.mapPage (pageAt base count) (BitVec.ofNat 64 memory'.allocateFrame.1) true
      have same : memory'.allocateFrame.2.pmm = memory'.pmm.allocateFrame.2 := rfl
      rw [if_neg nonnull]
      refine ⟨manages'', answered, ?_⟩
      rw [same] at left'
      simp only [mapPage]
      omega
    · exact ⟨manages', given', by dsimp only at left ⊢; omega⟩

end PagedMemory

namespace Backed

variable {reserved : Nat → Prop} {memory : PagedMemory} {table : Nat → Nat → Option Nat}
  {pages : Nat → Option (BitVec 64)}

/-- Looking a page up answers what the map says. -/
theorem getPhysicalAddress (backed : Backed reserved memory table pages) {virtualAddr : BitVec 64}
    (ordinary : 4096 ≤ pageNumber virtualAddr) :
    memory.getPhysicalAddress virtualAddr = (pages (pageNumber virtualAddr)).getD 0#64 := by
  -- A page is backed by a whole frame, so no bits are masked out.
  cases backs : pages (pageNumber virtualAddr) with
  | none => rw [PagedMemory.getPhysicalAddress, backed.tree.translates ordinary, backs]; rfl
  | some physicalAddr =>
    obtain ⟨⟨-, aligned, -⟩, -⟩ := backed.manages.used_fit (backed.mapped _ _ backs).1
    rw [PagedMemory.getPhysicalAddress, backed.tree.translates ordinary, backs, Option.map_some,
      pageAddress_aligned aligned]

/-- A page that is mapped is not translated to the null address. -/
theorem nonzero (backed : Backed reserved memory table pages) {page : Nat}
    {physicalAddr : BitVec 64} (backs : pages page = some physicalAddr) : physicalAddr ≠ 0#64 := by
  -- The frame behind it is used, and no used frame is null.
  obtain ⟨⟨nonzero, -⟩, -⟩ := backed.manages.used_fit (backed.mapped _ _ backs).1
  rintro rfl
  exact nonzero rfl

/-- Backing a page with a new frame. -/
theorem backPage (backed : Backed reserved memory table pages) {virtualAddr : BitVec 64}
    (ordinary : 4096 ≤ pageNumber virtualAddr) (absent : pages (pageNumber virtualAddr) = none)
    (given : 0 ∉ (memory.allocateFrame.2.mapPage virtualAddr
      (BitVec.ofNat 64 memory.allocateFrame.1) true).answers) :
    ∃ table', Backed reserved
        (memory.allocateFrame.2.mapPage virtualAddr (BitVec.ofNat 64 memory.allocateFrame.1) true)
        table' (Function.update pages (pageNumber virtualAddr)
          (some (BitVec.ofNat 64 memory.allocateFrame.1))) ∧
      ∀ level number addr, table' level number = some addr → table level number = some addr ∨
        level ≤ 3 ∧ number = pageNumber virtualAddr / 512 ^ (4 - level) := by
  -- The frame for the page is a new one.
  obtain ⟨frames, answers⟩ := memory.backPage_answers virtualAddr
  have nonzero : memory.pmm.allocateFrame.1 ≠ 0 := by
    intro null
    apply given
    rw [answers]
    exact List.mem_append_right _ (null ▸ List.mem_cons_self)
  obtain ⟨manages, -, one⟩ := backed.manages.allocateFrame
  obtain ⟨fresh, used⟩ := one nonzero
  have taken : memory.pmm.allocateFrame.2.Used memory.pmm.allocateFrame.1 :=
    (used _).mpr (Or.inr rfl)
  have whole : (BitVec.ofNat 64 memory.allocateFrame.1).toNat = memory.pmm.allocateFrame.1 :=
    manages.toNat_used taken
  obtain ⟨⟨-, -, small⟩, -⟩ := manages.used_fit taken
  -- Then the page is mapped, with new tables on the way to it.
  obtain ⟨manages', idle, table', made, tree, grow, new, tables, used'⟩ :=
    mapPage_tree memory.allocateFrame.2 manages backed.tree backed.low
      (fun level number addr here => (used addr).mpr (Or.inl (backed.tables _ _ _ here))) ordinary
      (BitVec.ofNat 64 memory.allocateFrame.1) (by rw [← whole] at small; exact small)
      true given
  rw [absent, Option.getD_none] at tree
  have still : ∀ addr, memory.pmm.Used addr → memory.pmm.allocateFrame.2.Used addr :=
    fun addr before => (used addr).mpr (Or.inl before)
  refine ⟨table', ⟨manages', tree, PageTree.isSome_of_grow grow backed.low, idle, ?_, ?_, ?_, ?_⟩, ?_⟩
  · intro level number addr here
    rw [used']
    rcases new level number addr here with here | ⟨member, -⟩
    · exact Or.inl (still addr (backed.tables _ _ _ here))
    · exact Or.inr member
  · -- The frame behind the page is no table, since tables were used before or made afterwards.
    intro page physicalAddr backs
    have apart : ∀ addr, memory.pmm.allocateFrame.2.Used addr →
        (∀ level number, table level number ≠ some addr) →
        memory.pmm.allocateFrame.2.Used addr ∧ ∀ level number, table' level number ≠ some addr := by
      intro addr before clear
      refine ⟨before, fun level number here => ?_⟩
      rcases new level number addr here with here | ⟨member, -⟩
      · exact clear level number here
      · exact (tables addr member).1 before
    rw [used']
    by_cases this : page = pageNumber virtualAddr
    · rw [this, Function.update_self] at backs
      cases backs
      rw [whole]
      obtain ⟨now, clear⟩ := apart _ taken fun level number here =>
        fresh (backed.tables level number _ here)
      exact ⟨Or.inl now, clear⟩
    · rw [Function.update_of_ne this] at backs
      obtain ⟨before, clear⟩ := backed.mapped page physicalAddr backs
      obtain ⟨now, clear⟩ := apart _ (still _ before) clear
      exact ⟨Or.inl now, clear⟩
  · -- No other page was backed by the new frame.
    have other : ∀ page, pages page ≠ some (BitVec.ofNat 64 memory.allocateFrame.1) := by
      intro page backs
      have before := (backed.mapped page _ backs).1
      rw [whole] at before
      exact fresh before
    intro page page' physicalAddr backs backs'
    by_cases this : page = pageNumber virtualAddr <;> by_cases that : page' = pageNumber virtualAddr
    · rw [this, that]
    · rw [this, Function.update_self] at backs
      rw [Function.update_of_ne that, ← backs] at backs'
      exact absurd backs' (other page')
    · rw [that, Function.update_self] at backs'
      rw [Function.update_of_ne this, ← backs'] at backs
      exact absurd backs (other page)
    · rw [Function.update_of_ne this] at backs
      rw [Function.update_of_ne that] at backs'
      exact backed.unshared page page' physicalAddr backs backs'
  · -- Every frame given was for the page or for a table.
    intro addr now
    rcases (used' addr).mp now with now | member
    · rcases (used addr).mp now with before | rfl
      · rcases backed.accounted addr before with kept | ⟨level, number, here⟩ | ⟨page, phys, backs, same⟩
        · exact Or.inl kept
        · exact Or.inr (Or.inl ⟨level, number, grow level number addr here⟩)
        · refine Or.inr (Or.inr ⟨page, phys, ?_, same⟩)
          rw [Function.update_of_ne]
          · exact backs
          · rintro rfl
            rw [absent] at backs
            cases backs
      · exact Or.inr (Or.inr ⟨_, _, Function.update_self _ _ _, whole⟩)
    · exact Or.inr (Or.inl (tables addr member).2)
  · intro level number addr here
    rcases new level number addr here with here | ⟨-, place⟩
    · exact Or.inl here
    · exact Or.inr place

/-- Releasing a page unmaps it, and frees exactly the frame behind it, if there is one. -/
theorem releasePage (backed : Backed reserved memory table pages) {virtualAddr : BitVec 64}
    (ordinary : 4096 ≤ pageNumber virtualAddr) :
    Backed reserved (memory.releasePage virtualAddr) table
        (Function.update pages (pageNumber virtualAddr) none) ∧
      ∀ addr, (memory.releasePage virtualAddr).pmm.Used addr ↔ memory.pmm.Used addr ∧
        ∀ physicalAddr, pages (pageNumber virtualAddr) = some physicalAddr →
          physicalAddr.toNat ≠ addr := by
  have looked := backed.getPhysicalAddress ordinary
  cases backs : pages (pageNumber virtualAddr) with
  | none =>
    -- Without a frame nothing is done.
    rw [backs] at looked
    have same : memory.releasePage virtualAddr = memory := by
      rw [PagedMemory.releasePage, looked]
      rfl
    rw [same, ← backs, Function.update_eq_self]
    simp [backed, backs]
  | some physicalAddr =>
    rw [backs] at looked
    have freed : memory.releasePage virtualAddr =
        (memory.freeFrame physicalAddr.toNat).unmapPage virtualAddr := by
      rw [PagedMemory.releasePage, looked]
      exact if_neg (backed.nonzero backs)
    obtain ⟨used, clear⟩ := backed.mapped _ _ backs
    obtain ⟨manages, left⟩ := backed.manages.freeFrame used
    obtain ⟨tree, idle⟩ := backed.tree.unmapPage ordinary
    -- Every other page keeps its frame, which is another one.
    have elsewhere : ∀ page phys,
        Function.update pages (pageNumber virtualAddr) none page = some phys →
        page ≠ pageNumber virtualAddr ∧ pages page = some phys := by
      intro page phys backs'
      by_cases this : page = pageNumber virtualAddr
      · rw [this, Function.update_self] at backs'
        cases backs'
      · rw [Function.update_of_ne this] at backs'
        exact ⟨this, backs'⟩
    rw [freed]
    refine ⟨⟨manages, tree, backed.low, idle.trans backed.idle, ?_, ?_, ?_, ?_⟩, ?_⟩
    · intro level number addr here
      refine (left addr).mpr ⟨backed.tables level number addr here, ?_⟩
      rintro rfl
      exact clear level number here
    · intro page phys backs'
      obtain ⟨other, backs'⟩ := elsewhere page phys backs'
      obtain ⟨used', clear'⟩ := backed.mapped page phys backs'
      refine ⟨(left phys.toNat).mpr ⟨used', fun same => other ?_⟩, clear'⟩
      rw [BitVec.eq_of_toNat_eq same] at backs'
      exact backed.unshared _ _ _ backs' backs
    · intro page page' phys backs' backs''
      exact backed.unshared page page' phys (elsewhere _ _ backs').2 (elsewhere _ _ backs'').2
    · intro addr now
      obtain ⟨before, other⟩ := (left addr).mp now
      rcases backed.accounted addr before with kept | here | ⟨page, phys, backs', rfl⟩
      · exact Or.inl kept
      · exact Or.inr (Or.inl here)
      · refine Or.inr (Or.inr ⟨page, phys, ?_, rfl⟩)
        rw [Function.update_of_ne]
        · exact backs'
        · rintro rfl
          rw [backs] at backs'
          cases backs'
          exact other rfl
    · intro addr
      show (memory.pmm.freeFrame physicalAddr.toNat).Used addr ↔ _
      rw [left addr]
      constructor
      · rintro ⟨before, other⟩
        refine ⟨before, fun phys same => ?_⟩
        cases same
        exact Ne.symm other
      · rintro ⟨before, other⟩
        exact ⟨before, Ne.symm (other physicalAddr rfl)⟩

end Backed

/-- Pages in a row whose addresses count up from a base, none of them under the large pages. -/
structure Window (base : BitVec 64) (first count : Nat) : Prop where
  /-- The large pages end before. -/
  ordinary : 4096 ≤ first
  /-- Each address names the page its index says. -/
  numbered : ∀ index < count, pageNumber (pageAt base index) = first + index

/-- The first pages of a window are a window. -/
theorem Window.fewer {base : BitVec 64} {first count fewer : Nat} (window : Window base first count)
    (few : fewer ≤ count) : Window base first fewer :=
  ⟨window.ordinary, fun index inside => window.numbered index (Nat.lt_of_lt_of_le inside few)⟩

/-- A map of pages without those of a window. -/
def withoutPages (pages : Nat → Option (BitVec 64)) (first count : Nat) : Nat → Option (BitVec 64) :=
  fun page => if first ≤ page ∧ page < first + count then none else pages page

namespace Backed

variable {reserved : Nat → Prop} {memory : PagedMemory} {table : Nat → Nat → Option Nat}
  {pages : Nat → Option (BitVec 64)} {base : BitVec 64} {first count : Nat}

/-- Releasing a window unmaps its pages, and frees exactly the frames that backed them. -/
theorem releasePages (backed : Backed reserved memory table pages)
    (window : Window base first count) :
    Backed reserved (memory.releasePages base count) table (withoutPages pages first count) ∧
      ∀ addr, (memory.releasePages base count).pmm.Used addr ↔ memory.pmm.Used addr ∧
        ∀ index < count, ∀ physicalAddr, pages (first + index) = some physicalAddr →
          physicalAddr.toNat ≠ addr := by
  -- By induction on the number of pages, the last of which is released last.
  induction count with
  | zero =>
    have same : withoutPages pages first 0 = pages := by
      funext page
      rw [withoutPages, if_neg (by omega)]
    rw [same]
    simp [PagedMemory.releasePages, backed]
  | succ count ih =>
    obtain ⟨backed', left⟩ := ih (window.fewer (Nat.le_succ count))
    have here := window.numbered count (Nat.lt_succ_self count)
    have ordinary : 4096 ≤ pageNumber (pageAt base count) := by
      have := window.ordinary
      omega
    obtain ⟨backed'', left'⟩ := backed'.releasePage ordinary
    have still : withoutPages pages first count (first + count) = pages (first + count) := by
      rw [withoutPages, if_neg (by omega)]
    rw [here] at backed'' left'
    rw [still] at left'
    refine ⟨?_, ?_⟩
    · -- The pages left out are one more.
      have same : withoutPages pages first (count + 1) =
          Function.update (withoutPages pages first count) (first + count) none := by
        funext page
        by_cases this : page = first + count
        · rw [this, Function.update_self, withoutPages, if_pos (by omega)]
        · rw [Function.update_of_ne this]
          simp only [withoutPages]
          by_cases inside : first ≤ page ∧ page < first + count
          · rw [if_pos inside, if_pos (by omega)]
          · rw [if_neg inside, if_neg (by omega)]
      rw [same]
      exact backed''
    · intro addr
      rw [PagedMemory.releasePages, left' addr, left addr, and_assoc]
      refine and_congr_right fun _ => ⟨?_, ?_⟩
      · rintro ⟨before, last⟩ index inside
        rcases Nat.lt_succ_iff_lt_or_eq.mp inside with inside | rfl
        · exact before index inside
        · exact last
      · intro all
        exact ⟨fun index inside => all index (Nat.lt_succ_of_lt inside),
          all count (Nat.lt_succ_self count)⟩

/-- Backing a window with new frames maps its pages and no others. -/
theorem backPages (backed : Backed reserved memory table pages) (window : Window base first count)
    (absent : ∀ index < count, pages (first + index) = none)
    (given : 0 ∉ (memory.backPages base count).2.answers) :
    (memory.backPages base count).1 = none ∧
    ∃ table' pages', Backed reserved (memory.backPages base count).2 table' pages' ∧
      withoutPages pages' first count = withoutPages pages first count ∧
      (∀ index < count, (pages' (first + index)).isSome) ∧
      ∀ level number addr, table' level number = some addr → table level number = some addr ∨
        level ≤ 3 ∧ ∃ index < count, number = (first + index) / 512 ^ (4 - level) := by
  -- By induction on the number of pages, the last of which is backed last.
  induction count with
  | zero =>
    refine ⟨rfl, table, pages, backed, rfl, fun index inside => absurd inside (Nat.not_lt_zero _),
      fun _ _ _ here => Or.inl here⟩
  | succ count ih =>
    obtain ⟨later, answers⟩ := memory.backPages_answers base count
    have given' : 0 ∉ (memory.backPages base count).2.answers := by
      intro null
      apply given
      rw [answers]
      exact List.mem_append_left _ null
    obtain ⟨reached, table', pages', backed', outside, inside, new⟩ :=
      ih (window.fewer (Nat.le_succ count))
        (fun index below => absent index (Nat.lt_succ_of_lt below)) given'
    have here := window.numbered count (Nat.lt_succ_self count)
    have ordinary : 4096 ≤ pageNumber (pageAt base count) := by
      have := window.ordinary
      omega
    -- The page behind those mapped so far is still free.
    have still : pages' (pageNumber (pageAt base count)) = none := by
      have same := congrFun outside (first + count)
      rw [withoutPages, withoutPages, if_neg (by omega), if_neg (by omega)] at same
      rw [here, same]
      exact absent count (Nat.lt_succ_self count)
    rw [PagedMemory.backPages] at given ⊢
    generalize memory.backPages base count = before at reached backed' given
    obtain ⟨_, memory'⟩ := before
    dsimp only at reached backed' given
    subst reached
    dsimp only at given ⊢
    by_cases null : memory'.allocateFrame.1 = 0
    · rw [if_pos null] at given
      exact absurd (List.mem_append_right _ (List.mem_singleton.mpr null.symm)) given
    rw [if_neg null] at given ⊢
    obtain ⟨table'', backed'', new'⟩ := backed'.backPage ordinary still given
    rw [here] at backed'' new'
    refine ⟨rfl, table'', _, backed'', ?_, ?_, ?_⟩
    · -- Outside the window the last page changes nothing either.
      funext page
      have same := congrFun outside page
      simp only [withoutPages] at same ⊢
      by_cases inside : first ≤ page ∧ page < first + (count + 1)
      · rw [if_pos inside, if_pos inside]
      · rw [if_neg inside, if_neg inside, Function.update_of_ne (by omega)]
        rw [if_neg (by omega), if_neg (by omega)] at same
        exact same
    · intro index below
      by_cases last : index = count
      · rw [last, Function.update_self]
        rfl
      · rw [Function.update_of_ne (by omega)]
        exact inside index (by omega)
    · intro level number addr there
      rcases new' level number addr there with there | ⟨upper, place⟩
      · rcases new level number addr there with there | ⟨upper, index, below, place⟩
        · exact Or.inl there
        · exact Or.inr ⟨upper, index, Nat.lt_succ_of_lt below, place⟩
      · exact Or.inr ⟨upper, count, Nat.lt_succ_self count, place⟩

/-- Zeroing the pages of a window that are all mapped changes none of the translations. -/
theorem zeroPages (backed : Backed reserved memory table pages) (window : Window base first count)
    (inside : ∀ index < count, (pages (first + index)).isSome) :
    ∃ memory', memory.zeroPages base count = (true, memory') ∧
      Backed reserved memory' table pages ∧ memory'.pmm = memory.pmm ∧
      memory'.answers = memory.answers := by
  -- By induction on the number of pages, the last of which is zeroed last.
  induction count with
  | zero => exact ⟨memory, rfl, backed, rfl, rfl⟩
  | succ count ih =>
    obtain ⟨memory', zeroed, backed', frames, answers⟩ := ih (window.fewer (Nat.le_succ count))
      fun index below => inside index (Nat.lt_succ_of_lt below)
    have here := window.numbered count (Nat.lt_succ_self count)
    have ordinary : 4096 ≤ pageNumber (pageAt base count) := by
      have := window.ordinary
      omega
    obtain ⟨physicalAddr, backs⟩ :=
      Option.isSome_iff_exists.mp (inside count (Nat.lt_succ_self count))
    have looked := backed'.getPhysicalAddress ordinary
    rw [here, backs, Option.getD_some] at looked
    -- The frame behind the page is no table, so the tables do not notice.
    obtain ⟨used, clear⟩ := backed'.mapped _ _ backs
    obtain ⟨⟨-, aligned, -⟩, -⟩ := backed'.manages.used_fit used
    refine ⟨{ memory' with vmm := memory'.vmm.clearTable physicalAddr.toNat }, ?_,
      ⟨backed'.manages, backed'.tree.clearFrame aligned clear, backed'.low, backed'.idle,
        backed'.tables, backed'.mapped, backed'.unshared, backed'.accounted⟩, frames, answers⟩
    simp only [PagedMemory.zeroPages, zeroed, looked, if_neg (backed'.nonzero backs)]

end Backed

/-- The frames that are used before the first table is built. -/
def reservedFrames (pmm : PhysicalMemoryManager) (addr : Nat) : Prop :=
  (pmm.initializeFrames kernelMemoryStart kernelMemorySize).Used addr

/-- Building the tables takes four frames, and nothing else becomes used. -/
theorem initializeTables_backed {boot : PhysicalMemoryManager} (manages : boot.Manages)
    (available : 7 ≤ boot.freeFrames) (memory : Nat → PageTableEntry) :
    let after := takingFrames ⟨boot, ⟨memory, 0, []⟩, []⟩ 7 VirtualMemoryManager.initializeTables
    0 ∉ after.answers ∧ ∃ table, Backed boot.Used after table (fun _ => none) ∧
      ∀ level number addr, table level number = some addr →
        (level, number) ∈ [(0, 0), (1, 0), (2, 0), (1, 511)] := by
  intro after
  obtain ⟨seven, -⟩ := manages.allocateFrames_available available
  obtain ⟨four, -⟩ := manages.allocateFrames_available (show 4 ≤ boot.freeFrames by omega)
  obtain ⟨manages₇, nodup, -, used₇⟩ := manages.allocateFrames seven
  obtain ⟨manages₄, -, fresh, used⟩ := manages.allocateFrames four
  have fit : ∀ frame ∈ (boot.allocateFrames 7).1, TableFrame frame := fun frame member =>
    (manages₇.used_fit ((used₇ frame).mpr (Or.inr member))).1
  have length := boot.length_allocateFrames 7
  have first := boot.allocateFrames_take (show 4 ≤ 7 by decide)
  -- Four of the answers become tables, and the other three are never asked for.
  generalize answered : (boot.allocateFrames 7).1 = frames at nodup fit length first
  obtain ⟨pml4, pdpt, pd, kernelPdpt, rest, rfl⟩ : ∃ pml4 pdpt pd kernelPdpt rest,
      frames = pml4 :: pdpt :: pd :: kernelPdpt :: rest := by
    match frames, length with
    | pml4 :: pdpt :: pd :: kernelPdpt :: rest, _ => exact ⟨_, _, _, _, _, rfl⟩
  have shorter : rest.length = 3 := by simpa using length
  have taken : (boot.allocateFrames 4).1 = [pml4, pdpt, pd, kernelPdpt] := first
  obtain ⟨table, tree, -, low, left, only⟩ := @initializeTables_tree
    ⟨memory, 0, pml4 :: pdpt :: pd :: kernelPdpt :: rest⟩ _ _ _ _ _ rfl nodup fit
  have reached : after =
      { pmm := (boot.allocateFrames 4).2
        vmm := { VirtualMemoryManager.initializeTables
          ⟨memory, 0, pml4 :: pdpt :: pd :: kernelPdpt :: rest⟩ with frames := [] }
        answers := (boot.allocateFrames 4).1 } := by
    simp only [after, takingFrames, answered, left, shorter, List.nil_append]
  have bare := tree.resupply List.nodup_nil (fun _ member => absurd member List.not_mem_nil)
    fun _ _ _ _ => List.not_mem_nil
  have every : ∀ addr, (∃ level number, table level number = some addr) ↔
      addr ∈ [pml4, pdpt, pd, kernelPdpt] := by
    intro addr
    simp only [only, List.mem_cons, List.not_mem_nil, or_false, Prod.mk.injEq]
    constructor
    · rintro ⟨level, number, ⟨-, -, rfl⟩ | ⟨-, -, rfl⟩ | ⟨-, -, rfl⟩ | ⟨-, -, rfl⟩⟩ <;> simp
    · rintro (rfl | rfl | rfl | rfl)
      · exact ⟨0, 0, by simp⟩
      · exact ⟨1, 0, by simp⟩
      · exact ⟨2, 0, by simp⟩
      · exact ⟨1, 511, by simp⟩
  rw [reached]
  refine ⟨four, table, ⟨manages₄, bare, low, rfl, ?_, ?_, ?_, ?_⟩, ?_⟩
  · intro level number addr here
    exact (used addr).mpr (Or.inr (taken ▸ (every addr).mp ⟨level, number, here⟩))
  · intro page physicalAddr backs
    cases backs
  · intro page page' physicalAddr backs
    cases backs
  · intro addr now
    rcases (used addr).mp now with before | member
    · exact Or.inl before
    · exact Or.inr (Or.inl ((every addr).mpr (taken ▸ member)))
  · intro level number addr here
    have member := (only level number addr).mp here
    simp only [List.mem_cons, List.not_mem_nil, or_false, Prod.mk.injEq] at member ⊢
    omega

/--
After boot there are four tables and no pages.

Nothing else is used but the reserved frames.
-/
theorem bootMemory_backed (pmm : PhysicalMemoryManager) (memory : Nat → PageTableEntry) :
    0 ∉ (bootMemory pmm memory).answers ∧
    ∃ table, Backed (reservedFrames pmm) (bootMemory pmm memory) table (fun _ => none) ∧
      ∀ level number addr, table level number = some addr →
        (level, number) ∈ [(0, 0), (1, 0), (2, 0), (1, 511)] := by
  -- Far more than seven frames are free.
  obtain ⟨manages, available⟩ := pmm.initializeFrames_manages
  exact initializeTables_backed manages (by omega) memory

/-- After boot thousands of frames are free. -/
theorem bootMemory_available (pmm : PhysicalMemoryManager) (memory : Nat → PageTableEntry) :
    12020 ≤ (bootMemory pmm memory).pmm.freeFrames := by
  -- Of those the allocator starts with, at most seven have been taken.
  obtain ⟨manages, available⟩ := pmm.initializeFrames_manages
  obtain ⟨-, -, left⟩ := takingFrames_available
    ⟨pmm.initializeFrames kernelMemoryStart kernelMemorySize, ⟨memory, 0, []⟩, []⟩ manages
    List.not_mem_nil (show 7 ≤ _ by rw [available]; decide) VirtualMemoryManager.initializeTables
  rw [available] at left
  rw [bootMemory]
  omega

end Pocky
