import Pocky.Memory.ShownPages

/-! Mapping several pages in a row: with frames for all missing tables, every one of them is shown. -/

namespace Pocky

open PageTableEntry VirtualMemoryManager

/-- Mapping some pages in order, each to an address of its own. -/
def VirtualMemoryManager.mapPages (vmm : VirtualMemoryManager) (requests : List (BitVec 64 × BitVec 64))
    (writable : Bool) : VirtualMemoryManager :=
  requests.foldl (fun vmm request => vmm.mapPage request.1 request.2 writable) vmm

/-- Fewer pages need no more tables. -/
theorem missingNodes_mono (table : Nat → Nat → Option Nat) {some all : List (BitVec 64)} (fewer : some ⊆ all) :
    (missingNodes table some).card ≤ (missingNodes table all).card := by
  apply Finset.card_le_card
  intro node member
  obtain ⟨way, absent⟩ := Finset.mem_filter.mp member
  obtain ⟨addr, here, way⟩ := Finset.mem_biUnion.mp way
  exact Finset.mem_filter.mpr
    ⟨Finset.mem_biUnion.mpr ⟨addr, List.mem_toFinset.mpr (fewer (List.mem_toFinset.mp here)), way⟩, absent⟩

namespace PageTables

variable {vmm : VirtualMemoryManager} {table : Nat → Nat → Option Nat}

/-- With frames for its missing tables a page that is not shown gets its frame, and no other changes. -/
theorem mapPage_fills (tables : PageTables vmm table []) {virtualAddr : BitVec 64} {others : List (BitVec 64)}
    (ordinary : 4096 ≤ pageNumber virtualAddr) (absent : vmm.shown table (pageNumber virtualAddr) = none)
    (available : (missingNodes table (virtualAddr :: others)).card ≤ vmm.frames.length)
    (physicalAddr : BitVec 64) (writable : Bool) :
    ∃ table', PageTables (vmm.mapPage virtualAddr physicalAddr writable) table' [] ∧
      (∀ other, (vmm.mapPage virtualAddr physicalAddr writable).shown table' other =
        if other = pageNumber virtualAddr then some (frameBits physicalAddr) else vmm.shown table other) ∧
      (missingNodes table' others).card ≤ (vmm.mapPage virtualAddr physicalAddr writable).frames.length := by
  have ending := tables.mapPage_endingBits ordinary physicalAddr writable
  generalize vmm.mapPage virtualAddr physicalAddr writable = after at ending
  cases ending with
  | @filled table' taken tables' adds here _ shown =>
    refine ⟨table', tables', shown, ?_⟩
    -- Each frame taken has become one of the missing tables.
    have need := tables.adds_reached tables' adds here others
    have split := congrArg List.length adds.frames
    rw [List.length_append] at split
    omega
  | kept tables' adds _ why =>
    rcases why with shown | ⟨level, -, addr, -, member⟩ | ⟨all, short⟩
    · exact absurd absent shown
    · exact absurd member List.not_mem_nil
    · -- All frames would have been taken, and they are enough.
      have few := tables.adds_short tables' adds short
      have part : (missingNodes table [virtualAddr]).card ≤ (missingNodes table (virtualAddr :: others)).card :=
        missingNodes_mono table (List.cons_subset_cons _ (List.nil_subset _))
      rw [all] at few
      omega

/-- With frames for all missing tables, pages that are not shown get their frames, and no others change. -/
theorem mapPages_shown (tables : PageTables vmm table []) {requests : List (BitVec 64 × BitVec 64)}
    (ordinary : ∀ request ∈ requests, 4096 ≤ pageNumber request.1)
    (distinct : (requests.map fun request => pageNumber request.1).Nodup)
    (absent : ∀ request ∈ requests, vmm.shown table (pageNumber request.1) = none)
    (available : (missingNodes table (requests.map Prod.fst)).card ≤ vmm.frames.length) (writable : Bool) :
    ∃ table', PageTables (vmm.mapPages requests writable) table' [] ∧
      (∀ request ∈ requests, (vmm.mapPages requests writable).shown table' (pageNumber request.1) =
        some (frameBits request.2)) ∧
      ∀ other ∉ requests.map fun request => pageNumber request.1,
        (vmm.mapPages requests writable).shown table' other = vmm.shown table other := by
  -- By induction on the pages, with the tables as each of them leaves them.
  induction requests generalizing vmm table with
  | nil => exact ⟨table, tables, fun _ member => absurd member List.not_mem_nil, fun _ _ => rfl⟩
  | cons request rest ih =>
    rw [List.map_cons, List.nodup_cons] at distinct
    obtain ⟨new, distinct⟩ := distinct
    obtain ⟨middle, tables', shown, enough⟩ := tables.mapPage_fills (ordinary request List.mem_cons_self)
      (absent request List.mem_cons_self) available request.2 writable
    have apart : ∀ other ∈ rest, pageNumber other.1 ≠ pageNumber request.1 := fun other member same =>
      new (List.mem_map.mpr ⟨other, member, same⟩)
    have still : ∀ other ∈ rest, (vmm.mapPage request.1 request.2 writable).shown middle (pageNumber other.1) =
        none := by
      intro other member
      rw [shown, if_neg (apart other member)]
      exact absent other (List.mem_cons_of_mem _ member)
    obtain ⟨last, tables'', given, kept⟩ := ih tables'
      (fun other member => ordinary other (List.mem_cons_of_mem _ member)) distinct still enough
    refine ⟨last, tables'', ?_, ?_⟩
    · intro other member
      rcases List.mem_cons.mp member with rfl | member
      · exact (kept _ new).trans ((shown _).trans (if_pos rfl))
      · exact given other member
    · intro other outside
      rw [List.map_cons, List.mem_cons, not_or] at outside
      exact (kept other outside.2).trans ((shown other).trans (if_neg outside.1))

end PageTables

end Pocky
