import Mathlib.Data.Finset.Card
import Mathlib.Data.Finset.Union
import Pocky.Memory.FrameShortage

/-! Which pages the last tables show, and what walks, mapping and unmapping change of it. -/

namespace Pocky

open PageTableEntry VirtualMemoryManager

/-- The frame that the last table of a page shows for it. -/
def VirtualMemoryManager.shown (vmm : VirtualMemoryManager) (table : Nat → Nat → Option Nat)
    (page : Nat) : Option (BitVec 64) :=
  (table 3 (page / 512)).bind fun pt =>
    if (vmm.readEntry pt (page % 512)).present then some (vmm.readEntry pt (page % 512)).frameBits
    else none

/-- The tables on the way to a page, below the top one, by their levels and numbers. -/
def wayTo (page : Nat) : Finset (Nat × Nat) :=
  {(1, page / 512 ^ 3), (2, page / 512 ^ 2), (3, page / 512)}

/-- The tables missing on the ways to the pages of some addresses. -/
def missingNodes (table : Nat → Nat → Option Nat) (addrs : List (BitVec 64)) : Finset (Nat × Nat) :=
  (addrs.toFinset.biUnion fun addr => wayTo (pageNumber addr)).filter fun node =>
    table node.1 node.2 = none

/-- An entry on the way to a page is broken. -/
def BlockedPage (table : Nat → Nat → Option Nat) (broken : List Nat) (page : Nat) : Prop :=
  ∃ level < 3, ∃ addr, table level (page / 512 ^ (4 - level)) = some addr ∧
    addr + 8 * (page / 512 ^ (3 - level) % 512) ∈ broken

/-- A table on the way to a page. -/
theorem mem_wayTo {page level number : Nat} :
    (level, number) ∈ wayTo page ↔ 1 ≤ level ∧ level ≤ 3 ∧ number = page / 512 ^ (4 - level) := by
  simp only [wayTo, Finset.mem_insert, Finset.mem_singleton, Prod.mk.injEq]
  constructor
  · rintro (⟨rfl, rfl⟩ | ⟨rfl, rfl⟩ | ⟨rfl, rfl⟩)
    · exact ⟨by decide, by decide, rfl⟩
    · exact ⟨by decide, by decide, rfl⟩
    · exact ⟨by decide, by decide, by rw [show 4 - 3 = 1 from rfl, Nat.pow_one]⟩
  · rintro ⟨low, high, rfl⟩
    obtain rfl | rfl | rfl : level = 1 ∨ level = 2 ∨ level = 3 := by omega
    · exact Or.inl ⟨rfl, rfl⟩
    · exact Or.inr (Or.inl ⟨rfl, rfl⟩)
    · exact Or.inr (Or.inr ⟨rfl, by rw [show 4 - 3 = 1 from rfl, Nat.pow_one]⟩)

/-- Some new tables have been hung into the way to a page. -/
structure AddsTables (vmm : VirtualMemoryManager) (table : Nat → Nat → Option Nat) (page : Nat)
    (taken : List Nat) (after : VirtualMemoryManager) (table' : Nat → Nat → Option Nat) : Prop where
  /-- Frames are taken from the front. -/
  frames : vmm.frames = taken ++ after.frames
  /-- No table goes. -/
  grow : ∀ level number addr, table level number = some addr → table' level number = some addr
  /-- A new table lies in a frame taken, on the way. -/
  new : ∀ level number addr, table' level number = some addr → table level number = some addr ∨
    addr ∈ taken ∧ (level, number) ∈ wayTo page
  /-- Every frame taken holds a table. -/
  made : ∀ frame ∈ taken, ∃ level number, table' level number = some frame

namespace AddsTables

variable {vmm after last : VirtualMemoryManager} {table table' table'' : Nat → Nat → Option Nat}
  {page : Nat} {taken taken' : List Nat}

/-- Doing nothing. -/
theorem refl (vmm : VirtualMemoryManager) (table : Nat → Nat → Option Nat) (page : Nat) :
    AddsTables vmm table page [] vmm table :=
  ⟨rfl, fun _ _ _ here => here, fun _ _ _ here => Or.inl here,
    fun _ member => absurd member List.not_mem_nil⟩

/-- One step after another. -/
theorem trans (first : AddsTables vmm table page taken after table')
    (second : AddsTables after table' page taken' last table'') :
    AddsTables vmm table page (taken ++ taken') last table'' := by
  refine ⟨?_, fun level number addr here => second.grow _ _ _ (first.grow _ _ _ here), ?_, ?_⟩
  · rw [first.frames, second.frames, List.append_assoc]
  · intro level number addr here
    rcases second.new level number addr here with here | ⟨member, way⟩
    · rcases first.new level number addr here with here | ⟨member, way⟩
      · exact Or.inl here
      · exact Or.inr ⟨List.mem_append_left _ member, way⟩
    · exact Or.inr ⟨List.mem_append_right _ member, way⟩
  · intro frame member
    rcases List.mem_append.mp member with member | member
    · obtain ⟨level, number, here⟩ := first.made frame member
      exact ⟨level, number, second.grow _ _ _ here⟩
    · exact second.made frame member

end AddsTables

namespace PageTables

variable {vmm : VirtualMemoryManager} {table : Nat → Nat → Option Nat} {broken : List Nat}

/-- Where the entries of the last tables are the same, the same pages are shown. -/
theorem shown_congr {after : VirtualMemoryManager} {page : Nat}
    (same : ∀ pt, table 3 (page / 512) = some pt →
      after.readEntry pt (page % 512) = vmm.readEntry pt (page % 512)) :
    after.shown table page = vmm.shown table page := by
  unfold shown
  cases last : table 3 (page / 512) with
  | none => rfl
  | some pt => rw [Option.bind_some, Option.bind_some, same pt last]

/-- Hanging a fresh table into an empty entry on the way to a page adds just that table. -/
theorem hang_adds {frame : Nat} {rest : List Nat} (next : vmm.frames = frame :: rest)
    {page level levels addr : Nat} (depth : level + (levels + 1) = 3)
    (absent : table (level + 1) (page / 512 ^ (levels + 1)) = none) (index : Nat)
    (entry : PageTableEntry) :
    AddsTables vmm table page [frame] (PageTree.hangTable vmm frame rest addr index entry)
      (PageTree.attach table (level + 1) (page / 512 ^ (levels + 1)) frame) := by
  refine ⟨next, ?_, ?_, ?_⟩
  · exact PageTables.attach_grow absent frame
  · intro level' number' addr' here'
    unfold PageTree.attach at here'
    split at here'
    · rename_i new
      obtain ⟨rfl, rfl⟩ := new
      cases here'
      exact Or.inr ⟨List.mem_singleton_self _, mem_wayTo.mpr
        ⟨by omega, by omega, by rw [show 4 - (level + 1) = levels + 1 by omega]⟩⟩
    · exact Or.inl here'
  · intro other member
    rw [List.mem_singleton.mp member]
    exact ⟨_, _, if_pos ⟨rfl, rfl⟩⟩

/-- An entry of an upper table is none of a last one. -/
theorem upper_apart (tables : PageTables vmm table broken) {level number addr index : Nat}
    (upper : level < 3) (here : table level number = some addr) (inside : index < 512) {page pt : Nat}
    (last : table 3 (page / 512) = some pt) : pt + 8 * (page % 512) ≠ addr + 8 * index := by
  -- No frame holds two tables.
  intro equal
  obtain ⟨⟨-, aligned, -⟩, -⟩ := tables.placed here
  obtain ⟨⟨-, aligned', -⟩, -⟩ := tables.placed last
  obtain ⟨rfl, -⟩ := PageTree.entry_apart aligned' aligned (Nat.mod_lt _ (by decide)) inside equal
  have levels := (tables.distinct here last).1
  omega

/-- Hanging a fresh table into an empty entry shows no other pages. -/
theorem hang_shown (tables : PageTables vmm table broken) {frame : Nat} {rest : List Nat}
    (next : vmm.frames = frame :: rest) {level number addr index below : Nat} (upper : level < 3)
    (here : table level number = some addr) (inside : index < 512)
    (absent : table (level + 1) below = none) (entry : PageTableEntry) (other : Nat) :
    (PageTree.hangTable vmm frame rest addr index entry).shown
      (PageTree.attach table (level + 1) below frame) other = vmm.shown table other := by
  have fresh : frame ∈ vmm.frames := next ▸ List.mem_cons_self
  by_cases new : 3 = level + 1 ∧ other / 512 = below
  · -- The new table is a last one, and shows nothing.
    obtain ⟨last, rfl⟩ := new
    obtain ⟨⟨-, aligned, -⟩, unowned⟩ := tables.placed here
    obtain ⟨-, aligned', -⟩ := tables.supply.2 frame fresh
    have apart : frame + 8 * (other % 512) ≠ addr + 8 * index := by
      intro same
      obtain ⟨rfl, -⟩ := PageTree.entry_apart aligned' aligned (Nat.mod_lt _ (by decide)) inside same
      exact unowned fresh
    have before : vmm.shown table other = none := by
      rw [shown, last, absent]
      rfl
    have blank : (PageTree.hangTable vmm frame rest addr index entry).readEntry frame (other % 512) =
        emptyEntry := by
      rw [readEntry, memory_hangTable, if_neg apart, if_pos (by omega)]
    rw [before, shown, PageTree.attach, if_pos ⟨last, rfl⟩, Option.bind_some, blank]
    rfl
  · -- The other last tables are there as before, and neither write lies in them.
    have same : PageTree.attach table (level + 1) below frame 3 (other / 512) =
        table 3 (other / 512) := by
      rw [PageTree.attach, if_neg new]
    rw [shown, same, ← shown]
    refine shown_congr fun pt last => ?_
    rw [readEntry, memory_hangTable, if_neg (tables.upper_apart upper here inside last),
      if_neg (tables.frame_apart last (Nat.mod_lt _ (by decide)) fresh), readEntry]

/-- Failing to hang a table into an empty entry shows no other pages. -/
theorem breaks_shown (tables : PageTables vmm table broken) {level number addr index : Nat}
    (upper : level < 3) (here : table level number = some addr) (inside : index < 512) (other : Nat) :
    (vmm.breakEntry addr index).shown table other = vmm.shown table other := by
  -- The entry that breaks is one of an upper table, and the null page holds none.
  refine shown_congr fun pt last => ?_
  have high := tables.above_null last (other % 512)
  rw [readEntry, breakEntry, memory_writeEntry, if_neg (tables.upper_apart upper here inside last),
    memory_clearTable, if_neg (by omega), readEntry]

/-- Below a missing table on the way to a page every other one is missing. -/
theorem way_missing (tables : PageTables vmm table broken) {page low high : Nat} (order : low ≤ high)
    (few : high ≤ 3) (absent : table low (page / 512 ^ (4 - low)) = none) :
    table high (page / 512 ^ (4 - high)) = none := by
  -- By induction on the lower one.
  induction high, order using Nat.le_induction with
  | base => exact absent
  | succ high order ih =>
    apply tables.missing_below
    rw [Nat.div_div_eq_div_mul, ← Nat.pow_succ, show (4 - (high + 1)).succ = 4 - high by omega]
    exact ih (by omega)

/-- A page blocked after tables have been added was blocked before, and nothing is below the entry. -/
theorem blocked_at (tables : PageTables vmm table broken) {after : VirtualMemoryManager}
    {table' : Nat → Nat → Option Nat} {page : Nat} (ordinary : 4096 ≤ page)
    (grow : ∀ level number addr, table level number = some addr → table' level number = some addr)
    (tables' : PageTables after table' broken) (met : BlockedPage table' broken page) :
    ∃ level < 3, ∃ addr, table level (page / 512 ^ (4 - level)) = some addr ∧
      addr + 8 * (page / 512 ^ (3 - level) % 512) ∈ broken ∧
      table (level + 1) (page / 512 ^ (4 - (level + 1))) = none := by
  obtain ⟨level, upper, addr, here, member⟩ := met
  obtain ⟨-, level', number', addr', index', -, here', inside', same⟩ := tables.nulls _ member
  have inside : page / 512 ^ (3 - level) % 512 < 512 := Nat.mod_lt _ (by decide)
  -- The entry lies in the same table as it did.
  obtain ⟨⟨-, aligned, -⟩, -⟩ := tables'.placed here
  obtain ⟨⟨-, aligned', -⟩, -⟩ := tables.placed here'
  obtain ⟨rfl, -⟩ := PageTree.entry_apart aligned aligned' inside inside' same
  obtain ⟨rfl, rfl⟩ := tables'.distinct here (grow _ _ _ here')
  obtain ⟨levels, depth⟩ : ∃ levels, level + (levels + 1) = 3 := ⟨2 - level, by omega⟩
  have number := step_number page levels
  have outside := step_ordinary ordinary depth
  refine ⟨level, upper, addr, here', member, ?_⟩
  rw [show 4 - level = levels + 2 by omega] at here'
  rw [show 3 - level = levels + 1 by omega] at member inside
  rw [show 4 - (level + 1) = levels + 1 by omega]
  rcases tables.entry_cases upper here' inside outside with
    ⟨-, present, -, -, nonzero⟩ | ⟨absent, -⟩ | ⟨-, -, whole⟩
  · -- A broken entry shows address zero.
    obtain ⟨-, -, address, -⟩ := nullEntry_spec
    have null : vmm.readEntry addr (page / 512 ^ (levels + 1) % 512) = nullEntry :=
      (tables.nulls _ member).1
    rw [null, address] at nonzero
    exact absurd rfl nonzero
  · rw [number] at absent
    exact absent
  · exact absurd member whole

/-- How a walk that creates tables can end. -/
inductive Ending (vmm : VirtualMemoryManager) (table : Nat → Nat → Option Nat) (broken : List Nat)
    (page : Nat) : Nat × VirtualMemoryManager → Prop where
  /-- The last table is there or has been created. -/
  | reached {pt : Nat} {after : VirtualMemoryManager} {table' : Nat → Nat → Option Nat}
      {taken : List Nat} (tables : PageTables after table' broken)
      (adds : AddsTables vmm table page taken after table')
      (shown : ∀ other, after.shown table' other = vmm.shown table other)
      (here : table' 3 (page / 512) = some pt) :
      Ending vmm table broken page (pt, after)
  /-- An entry on the way is broken. -/
  | blocked (met : BlockedPage table broken page) : Ending vmm table broken page (0, vmm)
  /-- A frame is missing. -/
  | short {after : VirtualMemoryManager} {table' : Nat → Nat → Option Nat} {place : Nat}
      (tables : PageTables after table' (place :: broken))
      (adds : AddsTables vmm table page vmm.frames after table')
      (shown : ∀ other, after.shown table' other = vmm.shown table other)
      (absent : table' 3 (page / 512) = none) : Ending vmm table broken page (0, after)

/-- A walk that creates tables ends in one of the three ways, and changes no page that is shown. -/
theorem walkDown_ending {page : Nat} (ordinary : 4096 ≤ page) (levels level : Nat)
    (depth : level + levels = 3) {addr : Nat} (tables : PageTables vmm table broken)
    (here : table level (page / 512 ^ (levels + 1)) = some addr) :
    Ending vmm table broken page (walkDown page true levels vmm addr) := by
  -- By induction on the levels left, with the state the walk has come to.
  induction levels generalizing level vmm table addr with
  | zero =>
    obtain rfl : level = 3 := depth
    rw [Nat.zero_add, Nat.pow_one] at here
    exact .reached tables (AddsTables.refl vmm table page) (fun _ => rfl) here
  | succ levels ih =>
    have inside : page / 512 ^ (levels + 1) % 512 < 512 := Nat.mod_lt _ (by decide)
    have outside := step_ordinary ordinary depth
    have number := step_number page levels
    rcases tables.entry_cases (by omega) here inside outside with
      ⟨child, present, -, -, nonzero⟩ | ⟨absent, null, member⟩ | ⟨absent, empty, whole⟩
    · -- The table is there, and the walk goes on from it.
      rw [number] at child
      simp only [walkDown, getNextLevel_present present, if_neg nonzero]
      exact ih (level + 1) (by omega) tables child
    · -- The entry is broken, and the walk ends.
      simp only [walkDown, getNextLevel_broken null, if_true]
      refine .blocked ⟨level, by omega, addr, ?_, ?_⟩
      · rw [show 4 - level = levels + 2 by omega]
        exact here
      · rw [show 3 - level = levels + 1 by omega]
        exact member
    · rw [number] at absent
      cases frames : vmm.frames with
      | nil =>
        -- There is no frame for the missing table.
        simp only [walkDown, tables.getNextLevel_breaks frames here empty, if_true]
        obtain ⟨tables', -⟩ := tables.breaks (by omega) here inside empty whole
        refine .short tables' ?_ (tables.breaks_shown (by omega) here inside)
          (tables.last_missing (show level + 1 + levels = 3 by omega) absent)
        rw [frames]
        exact ⟨rfl, fun _ _ _ there => there, fun _ _ _ there => Or.inl there,
          fun _ member => absurd member List.not_mem_nil⟩
      | cons frame rest =>
        -- A table is hung into the entry, and the walk goes on from it.
        have nonzero := (tables.supply.2 frame (frames ▸ List.mem_cons_self)).1
        simp only [walkDown, tables.getNextLevel_hangs frames here inside empty, if_neg nonzero]
        have free := @second_free _ _ _ tables (page / 512 ^ (levels + 2))
          (page / 512 ^ (levels + 1) % 512) level (by rw [number]; exact absent)
        obtain ⟨tables', -, fresh, -⟩ := tables.hang frames (by omega) here inside outside
          (by rw [number]; exact absent) free empty whole
        rw [number] at tables'
        have first := @hang_adds _ _ _ _ frames _ _ _ addr depth absent (page / 512 ^ (levels + 1) % 512)
          (pointTo emptyEntry (BitVec.ofNat 64 frame) true)
        have same := tables.hang_shown frames (by omega) here inside absent
          (pointTo emptyEntry (BitVec.ofNat 64 frame) true)
        have next := ih (level + 1) (by omega) tables' (if_pos ⟨rfl, rfl⟩)
        generalize walked : walkDown page true levels _ frame = result at next
        cases next with
        | reached last adds same' here' =>
          exact .reached last (first.trans adds) (fun other => (same' other).trans (same other)) here'
        | blocked met =>
          -- The broken entry would lie in a table passed already, or below the missing one.
          exact absurd (tables.blocked_at ordinary first.grow tables' met) fun blocked => by
            obtain ⟨level', upper, addr', here', member, below⟩ := blocked
            rcases Nat.lt_trichotomy level' level with earlier | rfl | later
            · have missing := tables.way_missing (show level' + 1 ≤ level by omega) (by omega) below
              rw [show 4 - level = levels + 2 by omega, here] at missing
              cases missing
            · rw [show 4 - level' = levels + 2 by omega] at here'
              obtain rfl := Option.some.inj (here.symm.trans here')
              rw [show 3 - level' = levels + 1 by omega] at member
              exact whole member
            · have missing := @way_missing _ _ _ tables page _ _ (show level + 1 ≤ level' by omega)
                (by omega) (by rw [show 4 - (level + 1) = levels + 1 by omega]; exact absent)
              rw [here'] at missing
              cases missing
        | short last adds same' absent' =>
          refine .short last ?_ (fun other => (same' other).trans (same other)) absent'
          rw [frames]
          exact first.trans adds
/-- What mapping a page outside the large ones does to the pages that are shown. -/
inductive MapEnding (vmm : VirtualMemoryManager) (table : Nat → Nat → Option Nat)
    (broken : List Nat) (virtualAddr physicalAddr : BitVec 64) : VirtualMemoryManager → Prop where
  /-- The page was not shown, and now it is. -/
  | filled {after : VirtualMemoryManager} {table' : Nat → Nat → Option Nat} {taken : List Nat}
      (tables : PageTables after table' broken)
      (adds : AddsTables vmm table (pageNumber virtualAddr) taken after table')
      (here : (table' 3 (pageNumber virtualAddr / 512)).isSome)
      (absent : vmm.shown table (pageNumber virtualAddr) = none)
      (shown : ∀ other, after.shown table' other =
        if other = pageNumber virtualAddr then some physicalAddr else vmm.shown table other) :
      MapEnding vmm table broken virtualAddr physicalAddr after
  /-- The page was shown already, its way is blocked, or a frame for a table is missing. -/
  | kept {after : VirtualMemoryManager} {table' : Nat → Nat → Option Nat} {broken' taken : List Nat}
      (tables : PageTables after table' broken')
      (adds : AddsTables vmm table (pageNumber virtualAddr) taken after table')
      (shown : ∀ other, after.shown table' other = vmm.shown table other)
      (why : vmm.shown table (pageNumber virtualAddr) ≠ none ∨
        BlockedPage table broken (pageNumber virtualAddr) ∨
        taken = vmm.frames ∧ table' 3 (pageNumber virtualAddr / 512) = none) :
      MapEnding vmm table broken virtualAddr physicalAddr after

/-- A frame fit for a table is what an entry pointing to it shows. -/
theorem frameBits_fit {physicalAddr : BitVec 64} (fit : TableFrame physicalAddr.toNat) :
    frameBits physicalAddr = physicalAddr := by
  obtain ⟨-, aligned, bounded⟩ := fit
  have masked := (masked_eq_self_iff physicalAddr).mpr ⟨aligned, bounded⟩
  -- The hardware's mask keeps all that the code's mask keeps.
  rw [frameBits, ← masked, BitVec.and_assoc,
    show (0xFFFFFFFFF000#64 : BitVec 64) &&& 0xFFFFFFFFFF000#64 = 0xFFFFFFFFF000#64 by decide]

/-- Writing an entry of a last table shows its page differently, and no other. -/
theorem writeLeaf_shown (tables : PageTables vmm table broken) {page pt : Nat}
    (here : table 3 (page / 512) = some pt) (entry : PageTableEntry) (other : Nat) :
    (vmm.writeEntry pt (page % 512) entry).shown table other =
      if other = page then if entry.present then some entry.frameBits else none
      else vmm.shown table other := by
  by_cases same : other = page
  · subst same
    rw [if_pos rfl, shown, here, Option.bind_some, readEntry, memory_writeEntry, if_pos rfl]
  · rw [if_neg same]
    refine shown_congr fun pt' last => ?_
    have apart : pt' + 8 * (other % 512) ≠ pt + 8 * (page % 512) := by
      intro equal
      obtain ⟨⟨-, aligned, -⟩, -⟩ := tables.placed here
      obtain ⟨⟨-, aligned', -⟩, -⟩ := tables.placed last
      obtain ⟨rfl, index⟩ := PageTree.entry_apart aligned' aligned (Nat.mod_lt _ (by decide))
        (Nat.mod_lt _ (by decide)) equal
      have number := (tables.distinct here last).2
      exact same (by omega)
    rw [readEntry, memory_writeEntry, if_neg apart, readEntry]

/-- Mapping a page outside the large ones, to whatever address, ends in one of the two ways. -/
theorem mapPage_endingBits (tables : PageTables vmm table broken) {virtualAddr : BitVec 64}
    (ordinary : 4096 ≤ pageNumber virtualAddr) (physicalAddr : BitVec 64) (writable : Bool) :
    MapEnding vmm table broken virtualAddr (frameBits physicalAddr)
      (vmm.mapPage virtualAddr physicalAddr writable) := by
  obtain ⟨-, -, -, last⟩ := tableIndex_pageNumber virtualAddr
  have inside : pageNumber virtualAddr % 512 < 512 := Nat.mod_lt _ (by decide)
  have walk := walkDown_ending ordinary 3 0 rfl tables (tables.root_of_page virtualAddr)
  simp only [mapPage, walk_eq_walkDown]
  generalize walkDown (pageNumber virtualAddr) true 3 vmm vmm.pml4 = result at walk
  cases walk with
  | @reached pt after table' taken tables' adds same here =>
    have nonzero := (tables'.placed here).1.1
    simp only [if_neg nonzero, last]
    have before : vmm.shown table (pageNumber virtualAddr) =
        if (after.readEntry pt (pageNumber virtualAddr % 512)).present then
          some (after.readEntry pt (pageNumber virtualAddr % 512)).frameBits else none := by
      rw [← same, shown, here, Option.bind_some]
    rcases tables'.leaf_cases here inside with empty | ⟨present, -⟩
    · -- The entry is empty, and is filled.
      simp only [empty, emptyEntry_flags.1, Bool.not_false, if_true]
      obtain ⟨page, leaf⟩ := leaf_pointTo physicalAddr writable
      have small := (pointTo_spec emptyEntry_flags.2 (physicalAddr &&& pageMask) writable).2.1
      rw [empty, emptyEntry_flags.1, if_neg Bool.false_ne_true] at before
      refine .filled (tables'.writeLeaf here inside leaf small)
        ⟨adds.frames, adds.grow, adds.new, adds.made⟩ (by rw [here]; rfl) before fun other => ?_
      rw [tables'.writeLeaf_shown here, pointTo_present, if_pos rfl, frameBits_pointTo, same]
    · -- The entry is present, and stays.
      simp only [present, Bool.not_true, Bool.false_eq_true, if_false]
      refine .kept tables' adds same (Or.inl ?_)
      rw [before, present, if_pos rfl]
      exact Option.some_ne_none _
  | blocked met =>
    simp only [if_true]
    exact .kept tables (AddsTables.refl vmm table _) (fun _ => rfl) (Or.inr (Or.inl met))
  | short tables' adds same absent =>
    simp only [if_true]
    exact .kept tables' adds same (Or.inr (Or.inr ⟨rfl, absent⟩))

/-- Mapping a page outside the large ones to a frame ends in one of the two ways. -/
theorem mapPage_ending (tables : PageTables vmm table broken) {virtualAddr physicalAddr : BitVec 64}
    (ordinary : 4096 ≤ pageNumber virtualAddr) (fit : TableFrame physicalAddr.toNat)
    (writable : Bool) :
    MapEnding vmm table broken virtualAddr physicalAddr
      (vmm.mapPage virtualAddr physicalAddr writable) := by
  have ending := tables.mapPage_endingBits ordinary physicalAddr writable
  rwa [frameBits_fit fit] at ending

/-- After a page outside the large ones has been unmapped, it alone is shown no more. -/
theorem unmapPage_shown (tables : PageTables vmm table broken) {virtualAddr : BitVec 64}
    (ordinary : 4096 ≤ pageNumber virtualAddr) (other : Nat) :
    (vmm.unmapPage virtualAddr).shown table other =
      if other = pageNumber virtualAddr then none else vmm.shown table other := by
  obtain ⟨-, -, -, last⟩ := tableIndex_pageNumber virtualAddr
  simp only [VirtualMemoryManager.unmapPage, walk_eq_walkDown]
  rcases walkDown_find ordinary 3 0 rfl tables (tables.root_of_page virtualAddr) with
    ⟨ended, absent⟩ | ⟨pt, found, here⟩
  · -- Without a last table the page is not shown anyway.
    simp only [ended, if_true]
    split
    · rename_i same
      rw [same, shown, absent]
      rfl
    · rfl
  · have nonzero := (tables.placed here).1.1
    simp only [found, if_neg nonzero, last]
    rw [tables.writeLeaf_shown here, emptyEntry_flags.1, if_neg Bool.false_ne_true]

/-- The hardware translates an address to the frame shown for its page. -/
theorem translate_shown (tables : PageTables vmm table broken) {virtualAddr : BitVec 64}
    (ordinary : 4096 ≤ pageNumber virtualAddr) :
    vmm.translate virtualAddr =
      (vmm.shown table (pageNumber virtualAddr)).map (· ||| (virtualAddr &&& 0xFFF#64)) := by
  cases last : table 3 (pageNumber virtualAddr / 512) with
  | none =>
    rw [tables.translate_none ordinary last, shown, last]
    rfl
  | some pt =>
    rw [tables.translate_last ordinary last, shown, last, Option.bind_some]
    split <;> rfl

/-- An address is translated exactly if its page is shown. -/
theorem translate_eq_none_iff (tables : PageTables vmm table broken) {virtualAddr : BitVec 64}
    (ordinary : 4096 ≤ pageNumber virtualAddr) :
    vmm.translate virtualAddr = none ↔ vmm.shown table (pageNumber virtualAddr) = none := by
  rw [tables.translate_shown ordinary, Option.map_eq_none_iff]

/-- The lookup answers the frame shown, if it is fit for a table. -/
theorem getPhysicalAddress_shown (tables : PageTables vmm table broken) {virtualAddr : BitVec 64}
    (ordinary : 4096 ≤ pageNumber virtualAddr)
    (fit : ∀ frame, vmm.shown table (pageNumber virtualAddr) = some frame → TableFrame frame.toNat) :
    vmm.getPhysicalAddress virtualAddr =
      (vmm.shown table (pageNumber virtualAddr)).getD 0#64 := by
  rw [tables.getPhysicalAddress_ordinary ordinary, tables.translate_shown ordinary]
  cases frame : vmm.shown table (pageNumber virtualAddr) with
  | none => rfl
  | some frame' =>
    obtain ⟨-, aligned, bounded⟩ := fit frame' frame
    have masked := (masked_eq_self_iff frame').mpr ⟨aligned, bounded⟩
    -- The offset of the address is masked out.
    rw [Option.map_some, Option.map_some, Option.getD_some, Option.getD_some]
    have clear : (virtualAddr &&& 0xFFF#64) &&& 0xFFFFFFFFF000#64 = 0#64 := by
      rw [BitVec.and_assoc, show (0xFFF#64 : BitVec 64) &&& 0xFFFFFFFFF000#64 = 0#64 by decide,
        BitVec.and_zero]
    rw [BitVec.and_or_distrib_right, masked, clear, BitVec.or_zero]

/-- The tables stay as long as their entries and the null page do. -/
theorem congr (tables : PageTables vmm table broken) {memory : Nat → PageTableEntry}
    (same : ∀ level number addr index, table level number = some addr → index < 512 →
      memory (addr + 8 * index) = vmm.memory (addr + 8 * index))
    (nullPage : ∀ place < 4096, memory place = vmm.memory place) :
    PageTables { vmm with memory := memory } table broken := by
  obtain ⟨pages, tree⟩ := tables.tree
  have read : ∀ level number addr index, table level number = some addr → index < 512 →
      (VirtualMemoryManager.without { vmm with memory := memory } broken).readEntry addr index =
        (vmm.without broken).readEntry addr index := by
    intro level number addr index here inside
    simp only [readEntry, memory_without, same level number addr index here inside]
  refine ⟨⟨pages, tree.congr read⟩, tables.low, ?_, ?_, ?_⟩
  · intro level number addr index here inside
    rw [read level number addr index here inside]
    exact tables.clean level number addr index here inside
  · intro place member
    obtain ⟨null, level, number, addr, index, upper, here, inside, rfl⟩ := tables.nulls place member
    exact ⟨(same level number addr index here inside).trans null, level, number, addr, index, upper,
      here, inside, rfl⟩
  · intro some place low
    exact (nullPage place low).trans (tables.blank some place low)

/-- The tables added are as many as the frames taken. -/
theorem adds_length (tables : PageTables vmm table broken) {after : VirtualMemoryManager}
    {table' : Nat → Nat → Option Nat} {broken' taken : List Nat} {page : Nat}
    (tables' : PageTables after table' broken') (adds : AddsTables vmm table page taken after table') :
    taken.length = ((wayTo page).filter fun node =>
      table node.1 node.2 = none ∧ table' node.1 node.2 ≠ none).card := by
  have nodup : taken.Nodup := by
    have all := tables.supply.1
    rw [adds.frames] at all
    exact (List.nodup_append.mp all).1
  have owned : ∀ level number, ∀ frame ∈ taken, table level number ≠ some frame := by
    intro level number frame member here
    apply (tables.placed here).2
    rw [adds.frames]
    exact List.mem_append_left _ member
  -- Each frame taken holds one of the new tables, and each new table lies in one of them.
  rw [← List.toFinset_card_of_nodup nodup]
  refine (Finset.card_bij (fun node _ => (table' node.1 node.2).getD 0) ?_ ?_ ?_).symm
  · rintro ⟨level, number⟩ member
    obtain ⟨-, absent, there⟩ := Finset.mem_filter.mp member
    obtain ⟨addr, here⟩ := Option.ne_none_iff_exists'.mp there
    dsimp only at absent here ⊢
    rw [here, Option.getD_some, List.mem_toFinset]
    rcases adds.new level number addr here with old | ⟨fresh, -⟩
    · rw [absent] at old
      cases old
    · exact fresh
  · rintro ⟨level, number⟩ member ⟨level', number'⟩ member' equal
    obtain ⟨addr, here⟩ := Option.ne_none_iff_exists'.mp (Finset.mem_filter.mp member).2.2
    obtain ⟨addr', here'⟩ := Option.ne_none_iff_exists'.mp (Finset.mem_filter.mp member').2.2
    dsimp only at here here' equal
    rw [here, here', Option.getD_some, Option.getD_some] at equal
    subst equal
    obtain ⟨rfl, rfl⟩ := tables'.distinct here here'
    rfl
  · intro frame member
    rw [List.mem_toFinset] at member
    obtain ⟨level, number, here⟩ := adds.made frame member
    rcases adds.new level number frame here with old | ⟨-, way⟩
    · exact absurd old (owned level number frame member)
    · refine ⟨(level, number), Finset.mem_filter.mpr ⟨way, ?_, ?_⟩, ?_⟩
      · -- A table there before would be the one there now.
        by_contra some
        obtain ⟨addr, old⟩ := Option.ne_none_iff_exists'.mp some
        obtain rfl := Option.some.inj ((adds.grow _ _ _ old).symm.trans here)
        exact owned level number addr member old
      · dsimp only
        rw [here]
        exact Option.some_ne_none _
      · dsimp only
        rw [here, Option.getD_some]

/-- A walk that reaches the last table takes one frame for each missing one. -/
theorem adds_reached (tables : PageTables vmm table broken) {after : VirtualMemoryManager}
    {table' : Nat → Nat → Option Nat} {broken' taken : List Nat} {virtualAddr : BitVec 64}
    (tables' : PageTables after table' broken')
    (adds : AddsTables vmm table (pageNumber virtualAddr) taken after table')
    (here : (table' 3 (pageNumber virtualAddr / 512)).isSome) (addrs : List (BitVec 64)) :
    (missingNodes table (virtualAddr :: addrs)).card =
      taken.length + (missingNodes table' addrs).card := by
  -- Afterwards all tables on the way are there, and no others have come.
  have reached : ∀ node ∈ wayTo (pageNumber virtualAddr), table' node.1 node.2 ≠ none := by
    rintro ⟨level, number⟩ way absent
    obtain ⟨-, high, rfl⟩ := mem_wayTo.mp way
    have last := tables'.way_missing high (Nat.le_refl 3) absent
    rw [show 4 - 3 = 1 from rfl, Nat.pow_one] at last
    rw [last] at here
    cases here
  have absent : ∀ node : Nat × Nat, table' node.1 node.2 = none ↔
      table node.1 node.2 = none ∧ node ∉ wayTo (pageNumber virtualAddr) := by
    rintro ⟨level, number⟩
    constructor
    · intro none
      refine ⟨?_, fun way => reached _ way none⟩
      by_contra some
      obtain ⟨addr, old⟩ := Option.ne_none_iff_exists'.mp some
      have now := adds.grow _ _ _ old
      dsimp only at none
      rw [none] at now
      cases now
    · rintro ⟨none, outside⟩
      by_contra some
      obtain ⟨addr, now⟩ := Option.ne_none_iff_exists'.mp some
      dsimp only at none
      rcases adds.new level number addr now with old | ⟨-, way⟩
      · rw [none] at old
        cases old
      · exact outside way
  rw [tables.adds_length tables' adds]
  have split : missingNodes table (virtualAddr :: addrs) =
      ((wayTo (pageNumber virtualAddr)).filter fun node =>
        table node.1 node.2 = none ∧ table' node.1 node.2 ≠ none) ∪ missingNodes table' addrs := by
    ext node
    simp only [missingNodes, List.toFinset_cons, Finset.biUnion_insert, Finset.mem_filter,
      Finset.mem_union, absent node]
    constructor
    · rintro ⟨way | others, none⟩
      · exact Or.inl ⟨way, none, reached node way⟩
      · by_cases way : node ∈ wayTo (pageNumber virtualAddr)
        · exact Or.inl ⟨way, none, reached node way⟩
        · exact Or.inr ⟨others, none, way⟩
    · rintro (⟨way, none, -⟩ | ⟨others, none, -⟩)
      · exact ⟨Or.inl way, none⟩
      · exact ⟨Or.inr others, none⟩
  rw [split, Finset.card_union_of_disjoint]
  rw [Finset.disjoint_left]
  intro node first second
  simp only [missingNodes, Finset.mem_filter, absent node] at first second
  exact second.2.2 first.1

/-- A walk that does not reach the last table has taken fewer frames than tables are missing. -/
theorem adds_short (tables : PageTables vmm table broken) {after : VirtualMemoryManager}
    {table' : Nat → Nat → Option Nat} {broken' taken : List Nat} {virtualAddr : BitVec 64}
    (tables' : PageTables after table' broken')
    (adds : AddsTables vmm table (pageNumber virtualAddr) taken after table')
    (absent : table' 3 (pageNumber virtualAddr / 512) = none) :
    taken.length < (missingNodes table [virtualAddr]).card := by
  rw [tables.adds_length tables' adds]
  -- The last table is missing before and after.
  have before : table 3 (pageNumber virtualAddr / 512) = none := by
    by_contra some
    obtain ⟨addr, old⟩ := Option.ne_none_iff_exists'.mp some
    have now := adds.grow _ _ _ old
    rw [absent] at now
    cases now
  have way : (3, pageNumber virtualAddr / 512) ∈ wayTo (pageNumber virtualAddr) :=
    mem_wayTo.mpr ⟨by decide, by decide, by rw [show 4 - 3 = 1 from rfl, Nat.pow_one]⟩
  refine Finset.card_lt_card (Finset.ssubset_iff_of_subset ?_ |>.mpr
    ⟨(3, pageNumber virtualAddr / 512), ?_, ?_⟩)
  · intro node member
    obtain ⟨inside, none, -⟩ := Finset.mem_filter.mp member
    simp only [missingNodes, List.toFinset_cons, List.toFinset_nil, Finset.biUnion_insert,
      Finset.mem_filter, Finset.mem_union]
    exact ⟨Or.inl inside, none⟩
  · simp only [missingNodes, List.toFinset_cons, List.toFinset_nil, Finset.biUnion_insert,
      Finset.mem_filter, Finset.mem_union]
    exact ⟨Or.inl way, before⟩
  · intro member
    exact (Finset.mem_filter.mp member).2.2 absent

/-- At most three tables are missing on the way to a page. -/
theorem missingNodes_single (table : Nat → Nat → Option Nat) (virtualAddr : BitVec 64) :
    (missingNodes table [virtualAddr]).card ≤ 3 := by
  -- There are three tables on the way.
  have inside : missingNodes table [virtualAddr] ⊆ wayTo (pageNumber virtualAddr) := by
    intro node member
    obtain ⟨addr, here, way⟩ := Finset.mem_biUnion.mp (Finset.mem_filter.mp member).1
    rw [List.mem_toFinset, List.mem_singleton] at here
    rwa [here] at way
  exact Nat.le_trans (Finset.card_le_card inside) Finset.card_le_three


end PageTables

end Pocky
