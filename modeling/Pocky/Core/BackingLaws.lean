import Pocky.Core.ProgramLoading
import Pocky.Memory.SettledMemory

/-! Frames handed out for pages: which of them end up behind their pages, and which are lost. -/

namespace Pocky

open PagedMemory

/-- The pages asked for can all be backed: none is mapped, blocked or asked for twice. -/
structure Supplies (memory : PagedMemory) (table : Nat → Nat → Option Nat) (broken : List Nat)
    (asked : List (BitVec 64)) : Prop where
  /-- None of them is mapped. -/
  unmapped : ∀ addr ∈ asked, memory.vmm.shown table (pageNumber addr) = none
  /-- The way to none of them is blocked. -/
  unblocked : ∀ addr ∈ asked, ¬ BlockedPage table broken (pageNumber addr)
  /-- They are different pages. -/
  distinct : (asked.map pageNumber).Nodup
  /-- There are frames for them and for the tables they need. -/
  enough : asked.length + (missingNodes table asked).card ≤ memory.pmm.freeFrames

/-- Every frame handed out has ended up behind the page it was for. -/
structure Supplied (memory : PagedMemory) (table : Nat → Nat → Option Nat) (broken : List Nat)
    (handed : List (BitVec 64 × Nat)) (after : PagedMemory) (table' : Nat → Nat → Option Nat) :
    Prop where
  /-- Everything is in order. -/
  settled : Settled after table' broken
  /-- The frames sufficed. -/
  supplies : Supplies memory table broken (handed.map Prod.fst)
  /-- No table goes. -/
  grow : ∀ level number addr, table level number = some addr → table' level number = some addr
  /-- No used frame becomes a table. -/
  clear : ∀ addr, memory.pmm.Used addr → (∀ level number, table level number ≠ some addr) →
    ∀ level number, table' level number ≠ some addr
  /-- No frame becomes free. -/
  used : ∀ addr, memory.pmm.Used addr → after.pmm.Used addr
  /-- The frames handed out were free. -/
  fresh : ∀ pair ∈ handed, ¬ memory.pmm.Used pair.2
  /-- The frames gone are those handed out and those of the tables that were missing. -/
  cost : ∀ more, (missingNodes table (handed.map Prod.fst ++ more)).card + after.pmm.freeFrames +
    handed.length = (missingNodes table' more).card + memory.pmm.freeFrames
  /-- Each page shows its frame. -/
  shows : ∀ pair ∈ handed, after.vmm.shown table' (pageNumber pair.1) =
    some (BitVec.ofNat 64 pair.2) ∧ (BitVec.ofNat 64 pair.2).toNat = pair.2
  /-- The other pages show what they did. -/
  others : ∀ page, page ∉ handed.map (pageNumber ·.1) →
    after.vmm.shown table' page = memory.vmm.shown table page

/-- There is a frame for a page asked for, but the page cannot be backed with it. -/
def Wastes (memory : PagedMemory) (table : Nat → Nat → Option Nat) (broken : List Nat)
    (asked : List (BitVec 64)) : Prop :=
  ∃ good bad rest, asked = good ++ bad :: rest ∧ ¬ Supplies memory table broken (good ++ [bad]) ∧
    good.length + (missingNodes table good).card < memory.pmm.freeFrames

/-- It makes no difference what is asked for afterwards. -/
theorem Wastes.append {memory : PagedMemory} {table : Nat → Nat → Option Nat} {broken : List Nat}
    {asked : List (BitVec 64)} (wasted : Wastes memory table broken asked) (more : List (BitVec 64)) :
    Wastes memory table broken (asked ++ more) := by
  obtain ⟨good, bad, rest, rfl, cannot, enough⟩ := wasted
  exact ⟨good, bad, rest ++ more, by rw [List.append_assoc, List.cons_append], cannot, enough⟩

/-- A used frame is neither a table nor behind a page. -/
structure Lost (memory : PagedMemory) (table : Nat → Nat → Option Nat) (frame : Nat) : Prop where
  /-- It is used. -/
  used : memory.pmm.Used frame
  /-- It holds no table. -/
  clear : ∀ level number, table level number ≠ some frame
  /-- It is behind no page. -/
  unshown : ∀ page, 4096 ≤ page → memory.vmm.shown table page ≠ some (BitVec.ofNat 64 frame)

/-- Everything is in order but for a frame that is lost. -/
def Leaks (memory : PagedMemory) (frame : Nat) : Prop :=
  ∃ table broken, Settled memory table broken ∧ Lost memory table frame

/-- How handing out frames for pages may end. -/
inductive BackingEnds (memory : PagedMemory) (table : Nat → Nat → Option Nat) (broken : List Nat)
    (handed : List (BitVec 64 × Nat)) (short : Bool) (after : PagedMemory) : Prop where
  /-- All frames are behind their pages; after a null answer none is left. -/
  | supplied {table' : Nat → Nat → Option Nat}
      (supplied : Supplied memory table broken handed after table')
      (empty : short = true → after.pmm.freeFrames = 0) :
      BackingEnds memory table broken handed short after
  /-- One of the pages could not be backed, and one of the frames is lost. -/
  | wasted (wasted : Wastes memory table broken (handed.map Prod.fst)) {pair : BitVec 64 × Nat}
      (member : pair ∈ handed) (leaks : Leaks after pair.2) :
      BackingEnds memory table broken handed short after

namespace Supplied

variable {memory after last : PagedMemory} {table table' table'' : Nat → Nat → Option Nat}
  {broken : List Nat} {handed handed' : List (BitVec 64 × Nat)}

/-- Nothing is asked for. -/
theorem refl (settled : Settled memory table broken) :
    Supplied memory table broken [] memory table := by
  refine ⟨settled, ⟨?_, ?_, List.nodup_nil, Nat.zero_le _⟩, fun _ _ _ here => here,
    fun _ _ none => none, fun _ used => used, ?_, fun _ => rfl, ?_, fun _ _ => rfl⟩
  · exact fun _ member => absurd member List.not_mem_nil
  · exact fun _ member => absurd member List.not_mem_nil
  · exact fun _ member => absurd member List.not_mem_nil
  · exact fun _ member => absurd member List.not_mem_nil

/-- More pages can be backed exactly if they can be once the first ones are. -/
theorem supplies_iff (first : Supplied memory table broken handed after table')
    (before : Settled memory table broken) {asked : List (BitVec 64)}
    (ordinary : ∀ addr ∈ asked, 4096 ≤ pageNumber addr) :
    Supplies memory table broken (handed.map Prod.fst ++ asked) ↔
      Supplies after table' broken asked := by
  have cost := first.cost asked
  have pages : handed.map (pageNumber ·.1) = (handed.map Prod.fst).map pageNumber := by
    rw [List.map_map]
    rfl
  constructor
  · intro all
    have distinct := all.distinct
    rw [List.map_append, List.nodup_append] at distinct
    refine ⟨fun addr member => ?_, fun addr member met => ?_, distinct.2.1, ?_⟩
    · rw [first.others]
      · exact all.unmapped addr (List.mem_append_right _ member)
      · rw [pages]
        exact fun again => distinct.2.2 _ again _ (List.mem_map_of_mem member) rfl
    · -- New tables block nothing.
      obtain ⟨level, upper, place, here, blocked, -⟩ := before.tables.blocked_at
        (ordinary addr member) first.grow first.settled.tables met
      exact all.unblocked addr (List.mem_append_right _ member) ⟨level, upper, place, here, blocked⟩
    · have enough := all.enough
      rw [List.length_append, List.length_map] at enough
      omega
  · intro rest
    -- The first pages are mapped now, so the others are none of them.
    have apart : ∀ addr ∈ asked, pageNumber addr ∉ (handed.map Prod.fst).map pageNumber := by
      intro addr member again
      rw [← pages] at again
      obtain ⟨pair, here, same⟩ := List.mem_map.mp again
      have shows := (first.shows pair here).1
      rw [same, rest.unmapped addr member] at shows
      cases shows
    refine ⟨fun addr member => ?_, fun addr member => ?_, ?_, ?_⟩
    · rcases List.mem_append.mp member with member | member
      · exact first.supplies.unmapped addr member
      · rw [← first.others _ (by rw [pages]; exact apart addr member)]
        exact rest.unmapped addr member
    · rcases List.mem_append.mp member with member | member
      · exact first.supplies.unblocked addr member
      · rintro ⟨level, upper, place, here, blocked⟩
        exact rest.unblocked addr member ⟨level, upper, place, first.grow _ _ _ here, blocked⟩
    · rw [List.map_append, List.nodup_append]
      refine ⟨first.supplies.distinct, rest.distinct, ?_⟩
      rintro page here page' there rfl
      obtain ⟨addr, member, rfl⟩ := List.mem_map.mp there
      exact apart addr member here
    · have enough := rest.enough
      rw [List.length_append, List.length_map]
      omega

/-- Some pages after others. -/
theorem trans (before : Settled memory table broken)
    (first : Supplied memory table broken handed after table')
    (second : Supplied after table' broken handed' last table'')
    (ordinary : ∀ pair ∈ handed', 4096 ≤ pageNumber pair.1) :
    Supplied memory table broken (handed ++ handed') last table'' := by
  have all : Supplies memory table broken ((handed ++ handed').map Prod.fst) := by
    rw [List.map_append, first.supplies_iff before]
    · exact second.supplies
    · intro addr member
      obtain ⟨pair, here, rfl⟩ := List.mem_map.mp member
      exact ordinary pair here
  have distinct := all.distinct
  rw [List.map_map, List.map_append, List.nodup_append] at distinct
  refine ⟨second.settled, all, fun level number addr here => second.grow _ _ _ (first.grow _ _ _ here),
    ?_, fun addr used => second.used addr (first.used addr used), ?_, fun more => ?_, ?_, ?_⟩
  · exact fun addr used none => second.clear addr (first.used addr used) (first.clear addr used none)
  · intro pair member before'
    rcases List.mem_append.mp member with member | member
    · exact first.fresh pair member before'
    · exact second.fresh pair member (first.used _ before')
  · have cost₁ := first.cost (handed'.map Prod.fst ++ more)
    have cost₂ := second.cost more
    rw [List.map_append, List.append_assoc, List.length_append]
    omega
  · intro pair member
    rcases List.mem_append.mp member with member | member
    · refine ⟨?_, (first.shows pair member).2⟩
      rw [second.others]
      · exact (first.shows pair member).1
      · exact fun again => distinct.2.2 _ (List.mem_map_of_mem member) _ again rfl
    · exact second.shows pair member
  · intro page outside
    rw [List.map_append, List.mem_append, not_or] at outside
    rw [second.others page outside.2, first.others page outside.1]

/-- A page that cannot be backed once the first ones are cannot be backed after them. -/
theorem wastes (first : Supplied memory table broken handed after table')
    (before : Settled memory table broken) {asked : List (BitVec 64)}
    (ordinary : ∀ addr ∈ asked, 4096 ≤ pageNumber addr) (wasted : Wastes after table' broken asked) :
    Wastes memory table broken (handed.map Prod.fst ++ asked) := by
  obtain ⟨good, bad, rest, rfl, cannot, enough⟩ := wasted
  have cost := first.cost good
  refine ⟨handed.map Prod.fst ++ good, bad, rest, by rw [List.append_assoc], ?_, ?_⟩
  · rw [List.append_assoc, first.supplies_iff before]
    · exact cannot
    · intro addr member
      refine ordinary addr ?_
      rcases List.mem_append.mp member with member | member
      · exact List.mem_append_left _ member
      · rw [List.mem_singleton.mp member]
        exact List.mem_append_right _ List.mem_cons_self
  · rw [List.length_append, List.length_map]
    omega

/-- More frames are handed out after all went well. -/
theorem andThen (before : Settled memory table broken)
    (first : Supplied memory table broken handed after table')
    (ordinary : ∀ pair ∈ handed', 4096 ≤ pageNumber pair.1) {short : Bool}
    (ends : BackingEnds after table' broken handed' short last) :
    BackingEnds memory table broken (handed ++ handed') short last := by
  cases ends with
  | supplied second empty => exact .supplied (first.trans before second ordinary) empty
  | wasted wasted member leaks =>
    refine .wasted ?_ (List.mem_append_right _ member) leaks
    rw [List.map_append]
    refine first.wastes before (fun addr here => ?_) wasted
    obtain ⟨pair, there, rfl⟩ := List.mem_map.mp here
    exact ordinary pair there

/-- A frame lost before is still lost. -/
theorem lost (supplied : Supplied memory table broken handed after table')
    (before : Settled memory table broken) {frame : Nat} (lost : Lost memory table frame) :
    Leaks after frame := by
  refine ⟨table', broken, supplied.settled, supplied.used frame lost.used,
    supplied.clear frame lost.used lost.clear, fun page ordinary shows => ?_⟩
  by_cases member : page ∈ handed.map (pageNumber ·.1)
  · -- The page shows a frame that was free before.
    obtain ⟨pair, here, rfl⟩ := List.mem_map.mp member
    obtain ⟨mine, whole⟩ := supplied.shows pair here
    have same := congrArg BitVec.toNat (Option.some.inj (mine.symm.trans shows))
    rw [whole, before.manages.toNat_used lost.used] at same
    exact supplied.fresh pair here (same ▸ lost.used)
  · rw [supplied.others page member] at shows
    exact lost.unshown page ordinary shows

end Supplied

namespace PagedMemory

/-- Frames are handed out for the first pages, for all of them unless the allocator gives null. -/
theorem backAll_handed (memory : PagedMemory) (writable : Bool) (addrs : List (BitVec 64)) :
    (memory.backAll writable addrs).handed.map Prod.fst =
      addrs.take (memory.backAll writable addrs).handed.length ∧
    ((memory.backAll writable addrs).short = false →
      (memory.backAll writable addrs).handed.length = addrs.length) ∧
    ((memory.backAll writable addrs).short = true →
      (memory.backAll writable addrs).handed.length < addrs.length) := by
  -- By induction on the pages.
  induction addrs generalizing memory with
  | nil => simp [backAll]
  | cons addr addrs ih =>
    by_cases null : memory.allocateFrame.1 = 0
    · simp [backAll, null]
    · obtain ⟨pages, all, some⟩ := ih (memory.allocateFrame.2.mapPage addr
        (BitVec.ofNat 64 memory.allocateFrame.1) writable)
      simp only [backAll, if_neg null, List.map_cons, List.length_cons, List.take_succ_cons, pages]
      exact ⟨trivial, fun enough => congrArg (· + 1) (all enough), fun short => Nat.succ_lt_succ (some short)⟩

/-- A frame is only handed out for a page that is asked for. -/
theorem handed_mem (memory : PagedMemory) (writable : Bool) (addrs : List (BitVec 64))
    {pair : BitVec 64 × Nat} (member : pair ∈ (memory.backAll writable addrs).handed) :
    pair.1 ∈ addrs := by
  have here := List.mem_map_of_mem (f := Prod.fst) member
  rw [(memory.backAll_handed writable addrs).1] at here
  exact List.mem_of_mem_take here

end PagedMemory

section Backing

variable {memory : PagedMemory} {table : Nat → Nat → Option Nat} {broken : List Nat}

/-- A null answer changes neither frames nor tables. -/
theorem Settled.allocateFrame_null (settled : Settled memory table broken)
    (null : memory.allocateFrame.1 = 0) :
    Supplied memory table broken [] memory.allocateFrame.2 table ∧
      memory.allocateFrame.2.pmm.freeFrames = 0 := by
  have same : memory.allocateFrame.2.pmm = memory.pmm := settled.manages.allocateFrame.2.1 null
  have settled' : Settled memory.allocateFrame.2 table broken := by
    refine ⟨same ▸ settled.manages, settled.tables, settled.idle, ?_, ?_, settled.unshared⟩
    · rw [same]
      exact settled.owned
    · rw [same]
      exact settled.mapped
  have nothing := Supplied.refl settled
  refine ⟨⟨settled', nothing.supplies, nothing.grow, nothing.clear, ?_, nothing.fresh, ?_,
    nothing.shows, nothing.others⟩, ?_⟩
  · rw [same]
    exact nothing.used
  · rw [same]
    exact nothing.cost
  · rw [same]
    exact settled.manages.allocateFrame_null_iff.mp null

/-- One page is backed exactly if its frame and its tables suffice; otherwise the frame is lost. -/
theorem backPage_cases (settled : Settled memory table broken) {virtualAddr : BitVec 64}
    (ordinary : 4096 ≤ pageNumber virtualAddr) (given : memory.allocateFrame.1 ≠ 0)
    (writable : Bool) :
    let after := memory.allocateFrame.2.mapPage virtualAddr
      (BitVec.ofNat 64 memory.allocateFrame.1) writable
    (∃ table', Supplied memory table broken [(virtualAddr, memory.allocateFrame.1)] after table') ∨
      Wastes memory table broken [virtualAddr] ∧ Leaks after memory.allocateFrame.1 ∧
        ∀ frame, Lost memory table frame → Leaks after frame := by
  intro after
  obtain ⟨settled', fewer, whole, taken, before, clear, unshown⟩ := settled.allocateFrame given
  have fresh := (settled.manages.allocateFrame.2.2 given).1
  have ending := settled'.mapPage ordinary (by rw [whole]; exact taken) (by rw [whole]; exact clear)
    unshown writable
  generalize mapped : memory.allocateFrame.2.mapPage virtualAddr
    (BitVec.ofNat 64 memory.allocateFrame.1) writable = result at ending
  have same : after = result := mapped
  rw [same]
  cases ending with
  | @filled table' settled'' grow absent unblocked shown used clear' cost =>
    refine Or.inl ⟨table', settled'', ⟨?_, ?_, List.nodup_singleton _, ?_⟩, grow, ?_, ?_, ?_, ?_, ?_,
      ?_⟩
    · rintro addr member
      rw [List.mem_singleton.mp member]
      exact absent
    · rintro addr member
      rw [List.mem_singleton.mp member]
      exact unblocked
    · have none := cost []
      rw [show missingNodes table' [] = ∅ from rfl, Finset.card_empty] at none
      show 1 + (missingNodes table [virtualAddr]).card ≤ _
      omega
    · exact fun addr held none => clear' addr (before addr held) none
    · exact fun addr held => used addr (before addr held)
    · rintro pair member
      rw [List.mem_singleton.mp member]
      exact fresh
    · intro more
      have each := cost more
      show (missingNodes table (virtualAddr :: more)).card + _ + 1 = _
      omega
    · rintro pair member
      rw [List.mem_singleton.mp member]
      exact ⟨by rw [shown, if_pos rfl], whole⟩
    · intro page outside
      rw [shown, if_neg]
      · rfl
      · rintro rfl
        exact outside List.mem_cons_self
  | @kept table' broken' settled'' shown used clear' why =>
    have some : 0 < memory.pmm.freeFrames := by omega
    refine Or.inr ⟨⟨[], virtualAddr, [], rfl, fun all => ?_, some⟩, ⟨table', broken', settled'', used _ taken, clear' _ taken clear,
      fun page high => by rw [shown]; exact unshown page high⟩, fun frame lost => ?_⟩
    · -- Each of the three reasons contradicts what it takes.
      rcases why with mapped | blocked | few
      · exact mapped (all.unmapped virtualAddr List.mem_cons_self)
      · exact all.unblocked virtualAddr List.mem_cons_self blocked
      · have enough : 1 + (missingNodes table [virtualAddr]).card ≤ _ := all.enough
        omega
    · exact ⟨table', broken', settled'', used _ (before _ lost.used),
        clear' _ (before _ lost.used) lost.clear, fun page high => by
          rw [shown]
          exact lost.unshown page high⟩

/-- A frame stays lost while a page is backed. -/
theorem Leaks.backPage {frame : Nat} (leaks : Leaks memory frame) {virtualAddr : BitVec 64}
    (ordinary : 4096 ≤ pageNumber virtualAddr) (given : memory.allocateFrame.1 ≠ 0)
    (writable : Bool) :
    Leaks (memory.allocateFrame.2.mapPage virtualAddr (BitVec.ofNat 64 memory.allocateFrame.1)
      writable) frame := by
  obtain ⟨table, broken, settled, lost⟩ := leaks
  rcases backPage_cases settled ordinary given writable with ⟨table', supplied⟩ | ⟨-, -, still⟩
  · exact supplied.lost settled lost
  · exact still frame lost

/-- A frame stays lost while pages are backed. -/
theorem Leaks.backAll {frame : Nat} {addrs : List (BitVec 64)} {memory : PagedMemory}
    (leaks : Leaks memory frame) (ordinary : ∀ addr ∈ addrs, 4096 ≤ pageNumber addr)
    (writable : Bool) : Leaks (memory.backAll writable addrs).memory frame := by
  -- By induction on the pages.
  induction addrs generalizing memory with
  | nil => exact leaks
  | cons addr addrs ih =>
    rw [PagedMemory.backAll]
    dsimp only
    split
    · rename_i null
      obtain ⟨table, broken, settled, lost⟩ := leaks
      exact (settled.allocateFrame_null null).1.lost settled lost
    · rename_i given
      exact ih (leaks.backPage (ordinary addr List.mem_cons_self) given writable)
        fun other member => ordinary other (List.mem_cons_of_mem _ member)

/-- Backing pages in a row ends in order, or with one of the frames lost. -/
theorem backAll_ends (settled : Settled memory table broken) {addrs : List (BitVec 64)}
    (ordinary : ∀ addr ∈ addrs, 4096 ≤ pageNumber addr) (writable : Bool) :
    BackingEnds memory table broken (memory.backAll writable addrs).handed
      (memory.backAll writable addrs).short (memory.backAll writable addrs).memory := by
  -- By induction on the pages.
  induction addrs generalizing memory table with
  | nil => exact .supplied (Supplied.refl settled) fun short => by cases short
  | cons addr addrs ih =>
    have high := ordinary addr List.mem_cons_self
    have others : ∀ other ∈ addrs, 4096 ≤ pageNumber other :=
      fun other member => ordinary other (List.mem_cons_of_mem _ member)
    by_cases null : memory.allocateFrame.1 = 0
    · -- Without a frame the loop ends.
      obtain ⟨nothing, none⟩ := settled.allocateFrame_null null
      simp only [PagedMemory.backAll, if_pos null]
      exact .supplied nothing fun _ => none
    · simp only [PagedMemory.backAll, if_neg null]
      rcases backPage_cases settled high null writable with ⟨table₁, first⟩ | ⟨wasted, leaks, -⟩
      · exact first.andThen settled (fun pair member => others _ (handed_mem _ _ _ member))
          (ih first.settled others)
      · -- The frame is lost at once and stays so.
        exact .wasted (wasted.append _) List.mem_cons_self (leaks.backAll others writable)

end Backing

end Pocky
