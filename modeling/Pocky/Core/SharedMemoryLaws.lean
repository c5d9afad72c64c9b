import Pocky.Core.IpcManagerLaws
import Pocky.Core.SharedMemory
import Pocky.Memory.PagedMemoryLaws

/-! Live regions own their pages and frames, whatever calls have been made. -/

namespace Pocky

open PagedMemory

namespace SharedMemory

/-- The number of the first page of a region. -/
def firstPage (id : Int) : Nat := 0x700000000 + 1024 * (id - 1).toNat

/-- The address of a page of a region, as a number. -/
theorem toNat_pageAt {id : Int} (positive : 1 ≤ id) (small : id ≤ 2 ^ 22) {index : Nat}
    (inside : index < 1024) :
    (pageAt (regionBase id) index).toNat = 4096 * (firstPage id + index) := by
  -- The identifier is small enough that nothing wraps.
  obtain ⟨number, rfl⟩ : ∃ number : Nat, id = number + 1 := ⟨(id - 1).toNat, by omega⟩
  have shown : asInt32 (number + 1 - 1) = number := by
    rw [Int.add_sub_cancel]
    exact asInt32_of_small (by omega) (by omega)
  have bounded : number < 2 ^ 22 := by omega
  rw [pageAt, regionBase, shown, BitVec.ofInt_natCast, firstPage, Int.add_sub_cancel,
    Int.toNat_natCast, show maxSharedMemorySize = 4194304 from rfl, BitVec.toNat_add,
    BitVec.toNat_add, BitVec.toNat_mul, BitVec.toNat_ofNat, BitVec.toNat_ofNat, BitVec.toNat_ofNat,
    BitVec.toNat_ofNat]
  omega

/-- A region starts where its first page does. -/
theorem toNat_regionBase {id : Int} (positive : 1 ≤ id) (small : id ≤ 2 ^ 22) :
    (regionBase id).toNat = 4096 * firstPage id := by
  have first := toNat_pageAt positive small (show 0 < 1024 by decide)
  simpa [pageAt] using first

/-- The pages of a region are a window. -/
theorem window_region {id : Int} (positive : 1 ≤ id) (small : id ≤ 2 ^ 22) {count : Nat}
    (few : count ≤ 1024) : Window (regionBase id) (firstPage id) count := by
  refine ⟨by simp only [firstPage]; omega, fun index inside => ?_⟩
  -- The page numbers end below the largest one.
  rw [pageNumber, toNat_pageAt positive small (by omega)]
  simp only [firstPage]
  omega

/--
What holds between calls, after a number of them.

The pages that are mapped are those of the live regions.
-/
structure Regular (reserved : Nat → Prop) (made : Nat) (state : SharedMemory)
    (table : Nat → Nat → Option Nat) (pages : Nat → Option (BitVec 64)) : Prop where
  /-- The processor has not stopped. -/
  running : state.halted = false
  /-- The memory is in order. -/
  backed : Backed reserved state.memory table pages
  /-- The next identifier has not run ahead of the calls. -/
  next : 1 ≤ state.nextId ∧ state.nextId ≤ made + 1
  /-- A region lies where its identifier says, and has a whole number of pages, not too many. -/
  placed : ∀ region ∈ state.regions, 1 ≤ region.id ∧ region.id < state.nextId ∧
    region.address = regionBase region.id ∧
    ∃ count, 0 < count ∧ count ≤ 1024 ∧ region.size = 4096 * count
  /-- No two regions have the same identifier. -/
  distinct : (state.regions.map SharedMemoryRegion.id).Nodup
  /-- Every page of a region is mapped. -/
  inside : ∀ region ∈ state.regions, ∀ index < pagesOf region.size,
    (pages (firstPage region.id + index)).isSome
  /-- No other page is. -/
  outside : ∀ page, (pages page).isSome → ∃ region ∈ state.regions,
    firstPage region.id ≤ page ∧ page < firstPage region.id + pagesOf region.size
  /-- No process is attached twice. -/
  attached : ∀ region ∈ state.regions, region.attachedProcesses.Nodup

/-- Whole pages are counted exactly. -/
theorem pagesOf_whole (count : Nat) : pagesOf (4096 * count) = count := by
  rw [pagesOf]
  omega

/-- After boot there is no region. -/
theorem boot_regular (pmm : PhysicalMemoryManager) (memory : Nat → PageTableEntry) :
    ∃ table, Regular (reservedFrames pmm) 0 (boot pmm memory) table (fun _ => none) := by
  -- Only the page tables have been built.
  obtain ⟨-, table, backed, -⟩ := bootMemory_backed pmm memory
  refine ⟨table, ⟨rfl, backed, ⟨Int.le_refl 1, Int.le_refl 1⟩, ?_, ?_, ?_, ?_, ?_⟩⟩ <;> simp [boot]

variable {reserved : Nat → Prop} {made : Nat} {state : SharedMemory}
  {table : Nat → Nat → Option Nat} {pages : Nat → Option (BitVec 64)}

/-- The number of pages of a region, and the room they have. -/
theorem Regular.window (regular : Regular reserved made state table pages) (few : made + 1 ≤ 2 ^ 22)
    {region : SharedMemoryRegion} (live : region ∈ state.regions) :
    0 < pagesOf region.size ∧ pagesOf region.size ≤ 1024 ∧
      region.size = 4096 * pagesOf region.size ∧ region.id ≤ 2 ^ 22 ∧
      Window region.address (firstPage region.id) (pagesOf region.size) := by
  obtain ⟨positive, below, address, count, some, most, size⟩ := regular.placed region live
  obtain ⟨-, next⟩ := regular.next
  rw [size, pagesOf_whole, address]
  have small : region.id ≤ 2 ^ 22 := by omega
  exact ⟨some, most, rfl, small, window_region positive small most⟩

/-- No page of one region lies in the room of another. -/
theorem Regular.page_elsewhere (regular : Regular reserved made state table pages)
    {region other : SharedMemoryRegion} (live : region ∈ state.regions)
    (live' : other ∈ state.regions) (apart : other.id ≠ region.id) {i : Nat} (inside : i < 1024) :
    ¬ (firstPage region.id ≤ firstPage other.id + i ∧
      firstPage other.id + i < firstPage region.id + 1024) := by
  -- Each identifier has room for a thousand and twenty-four pages.
  obtain ⟨positive, -⟩ := regular.placed region live
  obtain ⟨positive', -⟩ := regular.placed other live'
  simp only [firstPage]
  omega

/-- An identifier is that of the one live region that has it. -/
theorem Regular.find (regular : Regular reserved made state table pages)
    {region : SharedMemoryRegion} (live : region ∈ state.regions) :
    ∃ front rest, state.regions = front ++ region :: rest ∧
      (∀ other ∈ front, other.hasId region.id = false) ∧
      state.regions.find? (SharedMemoryRegion.hasId region.id) = some region := by
  obtain ⟨front, rest, parts⟩ := List.append_of_mem live
  have distinct := regular.distinct
  rw [parts, List.map_append, List.map_cons] at distinct
  -- The regions before it have other identifiers.
  have others : ∀ other ∈ front, other.hasId region.id = false := by
    intro other member
    have apart := (List.nodup_append.mp distinct).2.2 other.id (List.mem_map_of_mem member)
      region.id List.mem_cons_self
    simpa [SharedMemoryRegion.hasId] using apart
  refine ⟨front, rest, parts, others, ?_⟩
  rw [parts, List.find?_append, List.find?_eq_none.mpr (by simpa using others)]
  simp [SharedMemoryRegion.hasId]

/-- Destroying a live region removes it alone, with its pages and exactly the frames behind them. -/
theorem Regular.destroy (regular : Regular reserved made state table pages) (few : made + 1 ≤ 2 ^ 22)
    {region : SharedMemoryRegion} (live : region ∈ state.regions) :
    (state.destroySharedMemory region.id).1 = true ∧
    (state.destroySharedMemory region.id).2.regions = state.regions.erase region ∧
    Regular reserved made (state.destroySharedMemory region.id).2 table
      (withoutPages pages (firstPage region.id) (pagesOf region.size)) ∧
    ∀ addr, (state.destroySharedMemory region.id).2.memory.pmm.Used addr ↔
      state.memory.pmm.Used addr ∧ ∀ index < pagesOf region.size, ∀ physicalAddr,
        pages (firstPage region.id + index) = some physicalAddr → physicalAddr.toNat ≠ addr := by
  obtain ⟨front, rest, parts, others, found⟩ := regular.find live
  obtain ⟨some, most, -, small, window⟩ := regular.window few live
  obtain ⟨backed, left⟩ := regular.backed.releasePages window
  -- No region starts at the null address.
  have nonnull : region.address ≠ 0#64 := by
    obtain ⟨positive, -, address, -⟩ := regular.placed region live
    intro null
    have start := toNat_regionBase positive small
    rw [← address, null] at start
    simp only [firstPage, BitVec.toNat_ofNat] at start
    omega
  have after : state.destroySharedMemory region.id =
      (true, { state with
        memory := state.memory.releasePages region.address (pagesOf region.size)
        regions := front ++ rest }) := by
    rw [destroySharedMemory, found]
    simp only [if_neg nonnull]
    rw [parts, removeAt_findIdx rest others (by simp [SharedMemoryRegion.hasId])]
  have fewer : ∀ other, other ∈ front ++ rest → other ∈ state.regions ∧ other.id ≠ region.id := by
    intro other member
    have distinct := regular.distinct
    rw [parts, List.map_append, List.map_cons, List.nodup_middle, List.nodup_cons,
      ← List.map_append] at distinct
    refine ⟨?_, fun same => distinct.1 (same ▸ List.mem_map_of_mem member)⟩
    rw [parts]
    exact (List.Sublist.append_left (List.sublist_cons_self region rest) front).subset member
  rw [after]
  refine ⟨rfl, ?_, ⟨regular.running, backed, regular.next, ?_, ?_, ?_, ?_, ?_⟩, left⟩
  · -- It stands nowhere else in the list.
    have first : region ∉ front := fun member => by
      have apart := others region member
      simp [SharedMemoryRegion.hasId] at apart
    rw [parts, List.erase_append_right _ first, List.erase_cons_head]
  · exact fun other member => regular.placed other (fewer other member).1
  · have distinct := regular.distinct
    rw [parts] at distinct
    exact distinct.sublist
      ((List.Sublist.append_left (List.sublist_cons_self region rest) front).map _)
  · intro other member index inside
    obtain ⟨live', apart⟩ := fewer other member
    obtain ⟨-, most', -⟩ := regular.window few live'
    have elsewhere := regular.page_elsewhere live live' apart (i := index) (by omega)
    rw [withoutPages, if_neg (by omega)]
    exact regular.inside other live' index inside
  · -- A page that is still mapped lies in another region.
    intro page mapped
    rw [withoutPages] at mapped
    split at mapped
    · cases mapped
    · rename_i without
      obtain ⟨other, live', low, high⟩ := regular.outside page mapped
      refine ⟨other, ?_, low, high⟩
      rw [parts, List.mem_append, List.mem_cons] at live'
      rcases live' with member | rfl | member
      · exact List.mem_append_left _ member
      · exact absurd ⟨low, high⟩ without
      · exact List.mem_append_right _ member
  · exact fun other member => regular.attached other (fewer other member).1

/-- Changing who is attached to a region, no process twice, changes nothing else. -/
theorem Regular.change (regular : Regular reserved made state table pages) {id : Int}
    {change : SharedMemoryRegion → SharedMemoryRegion}
    (same : ∀ region, (change region).id = region.id ∧ (change region).size = region.size ∧
      (change region).address = region.address)
    (nodup : ∀ region ∈ state.regions, state.regions.find? (SharedMemoryRegion.hasId id) = some region →
      (change region).attachedProcesses.Nodup) :
    Regular reserved made
      { state with regions := modifyFirst (SharedMemoryRegion.hasId id) change state.regions }
      table pages := by
  rcases modifyFirst_cases (SharedMemoryRegion.hasId id) change state.regions with
    ⟨-, unchanged⟩ | ⟨front, region, rest, parts, found, changed⟩
  · rw [unchanged]
    exact regular
  · obtain ⟨keptId, keptSize, keptAddress⟩ := same region
    -- Every region has one before that differs in its processes at most.
    have before : ∀ other ∈ front ++ change region :: rest, ∃ old ∈ state.regions,
        other.id = old.id ∧ other.size = old.size ∧ other.address = old.address := by
      intro other member
      rw [parts]
      simp only [List.mem_append, List.mem_cons] at member ⊢
      rcases member with member | rfl | member
      · exact ⟨other, Or.inl member, rfl, rfl, rfl⟩
      · exact ⟨region, Or.inr (Or.inl rfl), keptId, keptSize, keptAddress⟩
      · exact ⟨other, Or.inr (Or.inr member), rfl, rfl, rfl⟩
    rw [changed]
    refine ⟨regular.running, regular.backed, regular.next, ?_, ?_, ?_, ?_, ?_⟩
    · intro other member
      obtain ⟨old, live, sameId, sameSize, sameAddress⟩ := before other member
      rw [sameId, sameSize, sameAddress]
      exact regular.placed old live
    · have distinct := regular.distinct
      rw [parts] at distinct
      simpa [keptId] using distinct
    · intro other member
      obtain ⟨old, live, sameId, sameSize, -⟩ := before other member
      rw [sameId, sameSize]
      exact regular.inside old live
    · intro page mapped
      obtain ⟨old, live, bounds⟩ := regular.outside page mapped
      rw [parts, List.mem_append, List.mem_cons] at live
      rcases live with member | rfl | member
      · exact ⟨old, List.mem_append_left _ member, bounds⟩
      · refine ⟨change old, List.mem_append_right _ List.mem_cons_self, ?_⟩
        rw [keptId, keptSize]
        exact bounds
      · exact ⟨old, List.mem_append_right _ (List.mem_cons_of_mem _ member), bounds⟩
    · intro other member
      have attached := regular.attached
      rw [parts] at attached
      rcases List.mem_append.mp member with member | member
      · exact attached other (List.mem_append_left _ member)
      rcases List.mem_cons.mp member with rfl | member
      · exact nodup region (by rw [parts]; exact List.mem_append_right _ List.mem_cons_self) found
      · exact attached other (List.mem_append_right _ (List.mem_cons_of_mem _ member))

/-- Attaching a process keeps the state in order. -/
theorem Regular.attach (regular : Regular reserved made state table pages) (id pid : Int) :
    Regular reserved made (state.attachSharedMemory id pid).2 table pages := by
  unfold attachSharedMemory
  split
  · exact regular
  split
  · exact regular
  rename_i region found
  dsimp only
  split
  · exact regular
  · -- The process was not attached before.
    rename_i absent
    apply regular.change
    · exact fun _ => ⟨rfl, rfl, rfl⟩
    · intro other live found'
      rw [found] at found'
      cases found'
      refine List.nodup_append.mpr ⟨regular.attached region live, List.nodup_singleton pid, ?_⟩
      rintro process member other single rfl
      exact absent (List.mem_singleton.mp single ▸ member)

/-- Detaching a process keeps the state in order. -/
theorem Regular.detach (regular : Regular reserved made state table pages) (id pid : Int) :
    Regular reserved made (state.detachSharedMemory id pid).2 table pages := by
  unfold detachSharedMemory
  split
  · exact regular
  rename_i region found
  split
  · -- What is left of a list without repetitions has none.
    rename_i held
    apply regular.change
    · exact fun _ => ⟨rfl, rfl, rfl⟩
    · intro other live found'
      rw [found] at found'
      cases found'
      rw [removeAt_idxOf held]
      exact (regular.attached region live).sublist List.erase_sublist
  · exact regular

/-- Creating a region that passes the checks asks for the frames of its pages, and for no others. -/
theorem createSharedMemory_answers (state : SharedMemory) (creator : Int) {size : Nat}
    (sized : ¬ (size = 0 ∨ maxSharedMemorySize < size)) :
    (state.createSharedMemory creator size).2.memory.answers =
      (state.memory.backPages (regionBase state.nextId) (pagesOf size)).2.answers := by
  have whole : pagesOf size * 4096 / 4096 = pagesOf size := Nat.mul_div_cancel _ (by decide)
  simp only [createSharedMemory, if_neg sized, whole]
  generalize state.memory.backPages (regionBase state.nextId) (pagesOf size) = backed
  obtain ⟨_ | reached, memory⟩ := backed
  · dsimp only
    have zeroed := memory.zeroPages_answers (regionBase state.nextId) (pagesOf size)
    generalize memory.zeroPages (regionBase state.nextId) (pagesOf size) = after at zeroed
    obtain ⟨_ | _, memory'⟩ := after
    · exact zeroed
    · exact zeroed
  · exact memory.releasePages_answers _ _

/-- No page of a live region lies in the room of the next one. -/
theorem Regular.next_elsewhere (regular : Regular reserved made state table pages)
    (few : made + 1 ≤ 2 ^ 22) {region : SharedMemoryRegion} (live : region ∈ state.regions) {page : Nat}
    (low : firstPage region.id ≤ page) (high : page < firstPage region.id + pagesOf region.size) :
    page < firstPage state.nextId := by
  -- Its identifier is smaller.
  obtain ⟨positive, older, -⟩ := regular.placed region live
  obtain ⟨-, most, -⟩ := regular.window few live
  simp only [firstPage] at low high ⊢
  omega

/-- A size that passes the checks is that of a region with some pages, but not too many. -/
theorem pagesOf_sized {size : Nat} (sized : ¬ (size = 0 ∨ maxSharedMemorySize < size)) :
    0 < pagesOf size ∧ pagesOf size ≤ 1024 := by
  rw [show maxSharedMemorySize = 4194304 from rfl] at sized
  simp only [pagesOf]
  omega

/-- Creating a region backs its pages and adds it, if the allocator gives every frame asked for. -/
theorem Regular.create_backed (regular : Regular reserved made state table pages)
    (few : made + 2 ≤ 2 ^ 22) (creator : Int) {size : Nat}
    (sized : ¬ (size = 0 ∨ maxSharedMemorySize < size))
    (given : 0 ∉ (state.createSharedMemory creator size).2.memory.answers) :
    ∃ memory table' pages', state.createSharedMemory creator size =
        (some state.nextId, { state with
          nextId := state.nextId + 1
          memory := memory
          regions := state.regions ++
            [⟨state.nextId, creator, pagesOf size * 4096, regionBase state.nextId, [creator]⟩] }) ∧
      Backed reserved memory table' pages' ∧
      withoutPages pages' (firstPage state.nextId) (pagesOf size) =
        withoutPages pages (firstPage state.nextId) (pagesOf size) ∧
      ∀ index < pagesOf size, (pages' (firstPage state.nextId + index)).isSome := by
  obtain ⟨positive, below⟩ := regular.next
  rw [createSharedMemory_answers state creator sized] at given
  have window := window_region positive (show state.nextId ≤ 2 ^ 22 by omega) (pagesOf_sized sized).2
  -- The identifier is new, so nothing is mapped in its room yet.
  have absent : ∀ index < pagesOf size, pages (firstPage state.nextId + index) = none := by
    intro index inside
    by_contra mapped
    obtain ⟨region, live, low, high⟩ :=
      regular.outside _ (Option.isSome_iff_ne_none.mpr mapped)
    have before := regular.next_elsewhere (by omega) live low high
    omega
  obtain ⟨reached, table', pages', backed, same, inside, -⟩ :=
    regular.backed.backPages window absent given
  obtain ⟨memory, zeroed, backed', -, -⟩ := backed.zeroPages window inside
  refine ⟨memory, table', pages', ?_, backed', same, inside⟩
  have whole : pagesOf size * 4096 / 4096 = pagesOf size := Nat.mul_div_cancel _ (by decide)
  have next : asInt32 (state.nextId + 1) = state.nextId + 1 :=
    asInt32_of_small (by omega) (by omega)
  simp only [createSharedMemory, if_neg sized, whole, next]
  generalize state.memory.backPages (regionBase state.nextId) (pagesOf size) = backing at *
  obtain ⟨_, memory'⟩ := backing
  dsimp only at reached zeroed
  subst reached
  simp only [zeroed]

/-- Creating a region keeps the state in order, if the allocator gives every frame asked for. -/
theorem Regular.create (regular : Regular reserved made state table pages)
    (few : made + 2 ≤ 2 ^ 22) (creator : Int) (size : Nat)
    (given : 0 ∉ (state.createSharedMemory creator size).2.memory.answers) :
    ∃ table' pages',
      Regular reserved (made + 1) (state.createSharedMemory creator size).2 table' pages' := by
  obtain ⟨positive, below⟩ := regular.next
  by_cases sized : size = 0 ∨ maxSharedMemorySize < size
  · -- A size that is refused changes nothing.
    refine ⟨table, pages, ?_⟩
    rw [createSharedMemory, if_pos sized]
    show Regular reserved (made + 1) state table pages
    exact { regular with next := ⟨positive, by omega⟩ }
  obtain ⟨some, most⟩ := pagesOf_sized sized
  obtain ⟨memory, table', pages', after, backed', same, inside⟩ :=
    regular.create_backed few creator sized given
  -- Outside the new region the map is as before.
  have kept : ∀ page, ¬ (firstPage state.nextId ≤ page ∧
      page < firstPage state.nextId + pagesOf size) → pages' page = pages page := by
    intro page away
    have at_page := congrFun same page
    rw [withoutPages, withoutPages, if_neg away, if_neg away] at at_page
    exact at_page
  have counted : pagesOf (pagesOf size * 4096) = pagesOf size := by
    rw [Nat.mul_comm, pagesOf_whole]
  rw [after]
  refine ⟨table', pages', ⟨regular.running, backed', ⟨?_, ?_⟩, ?_, ?_, ?_, ?_, ?_⟩⟩
  · show 1 ≤ state.nextId + 1
    omega
  · show state.nextId + 1 ≤ (made + 1 : Nat) + 1
    omega
  · intro region member
    rcases List.mem_append.mp member with live | new
    · obtain ⟨positive', older, rest⟩ := regular.placed region live
      refine ⟨positive', ?_, rest⟩
      show region.id < state.nextId + 1
      omega
    · obtain rfl := List.mem_singleton.mp new
      refine ⟨positive, ?_, rfl, pagesOf size, some, most, Nat.mul_comm _ _⟩
      show state.nextId < state.nextId + 1
      omega
  · -- The identifier is larger than all others.
    rw [List.map_append, List.nodup_append]
    refine ⟨regular.distinct, List.nodup_singleton _, ?_⟩
    rintro id member other single rfl
    obtain ⟨region, live, rfl⟩ := List.mem_map.mp member
    have older := (regular.placed region live).2.1
    have equal : region.id = state.nextId := List.mem_singleton.mp single
    omega
  · intro region member index below
    rcases List.mem_append.mp member with live | new
    · have before := regular.next_elsewhere (by omega) live (Nat.le_add_right _ index) (by omega)
      rw [kept _ (by omega)]
      exact regular.inside region live index below
    · obtain rfl := List.mem_singleton.mp new
      rw [counted] at below
      exact inside index below
  · intro page mapped
    by_cases new : firstPage state.nextId ≤ page ∧ page < firstPage state.nextId + pagesOf size
    · refine ⟨_, List.mem_append_right _ (List.mem_singleton_self _), ?_⟩
      rw [counted]
      exact new
    · rw [kept page new] at mapped
      obtain ⟨region, live, bounds⟩ := regular.outside page mapped
      exact ⟨region, List.mem_append_left _ live, bounds⟩
  · intro region member
    rcases List.mem_append.mp member with live | new
    · exact regular.attached region live
    · obtain rfl := List.mem_singleton.mp new
      exact List.nodup_singleton creator

/-- Destroying an identifier that no live region has changes nothing. -/
theorem destroySharedMemory_none {id : Int}
    (none : state.regions.find? (SharedMemoryRegion.hasId id) = none) :
    (state.destroySharedMemory id).2 = state := by
  rw [destroySharedMemory, none]

/-- A call on regions that exist already asks the allocator for nothing. -/
theorem answers_of_existing (state : SharedMemory) (id pid : Int) :
    (state.destroySharedMemory id).2.memory.answers = state.memory.answers ∧
    (state.attachSharedMemory id pid).2.memory.answers = state.memory.answers ∧
    (state.detachSharedMemory id pid).2.memory.answers = state.memory.answers := by
  refine ⟨?_, ?_, ?_⟩
  · unfold destroySharedMemory
    split
    · rfl
    · dsimp only
      split
      · rfl
      · exact releasePages_answers _ _ _
  · unfold attachSharedMemory
    split
    · rfl
    split
    · rfl
    dsimp only
    split <;> rfl
  · unfold detachSharedMemory
    split
    · rfl
    · split <;> rfl

/-- What the allocator has answered stays answered in every call. -/
theorem perform_answers (state : SharedMemory) (call : SharedMemoryCall) :
    ∃ frames, (state.perform call).memory.answers = state.memory.answers ++ frames := by
  unfold perform
  split
  · exact ⟨[], (List.append_nil _).symm⟩
  -- Only the creation of a region asks for frames.
  cases call with
  | create creator size =>
    by_cases sized : size = 0 ∨ maxSharedMemorySize < size
    · exact ⟨[], by simp [createSharedMemory, sized]⟩
    · dsimp only
      rw [createSharedMemory_answers state creator sized]
      exact backPages_extends _ _ _
  | destroy id => exact ⟨[], by simp [(state.answers_of_existing id 0).1]⟩
  | attach id pid => exact ⟨[], by simp [(state.answers_of_existing id pid).2.1]⟩
  | detach id pid => exact ⟨[], by simp [(state.answers_of_existing id pid).2.2]⟩

/-- Every call keeps the state in order, if the allocator gives every frame asked for. -/
theorem Regular.perform (regular : Regular reserved made state table pages)
    (few : made + 2 ≤ 2 ^ 22) (call : SharedMemoryCall)
    (given : 0 ∉ (state.perform call).memory.answers) :
    ∃ table' pages', Regular reserved (made + 1) (state.perform call) table' pages' := by
  -- One more call may have been made than identifiers given out.
  have weaken : ∀ {state : SharedMemory} {table pages}, Regular reserved made state table pages →
      ∃ table' pages', Regular reserved (made + 1) state table' pages' := by
    intro state table pages regular
    obtain ⟨positive, below⟩ := regular.next
    exact ⟨table, pages, { regular with next := ⟨positive, by omega⟩ }⟩
  simp only [SharedMemory.perform, regular.running, Bool.false_eq_true, if_false] at given ⊢
  cases call with
  | create creator size => exact regular.create few creator size given
  | destroy id =>
    dsimp only
    cases found : state.regions.find? (SharedMemoryRegion.hasId id) with
    | none =>
      rw [destroySharedMemory_none found]
      exact weaken regular
    | some region =>
      obtain rfl : region.id = id := by
        simpa [SharedMemoryRegion.hasId] using List.find?_some found
      obtain ⟨-, -, after, -⟩ := regular.destroy (by omega) (List.mem_of_find?_eq_some found)
      exact weaken after
  | attach id pid => exact weaken (regular.attach id pid)
  | detach id pid => exact weaken (regular.detach id pid)

/-- After a sequence of calls the state is in order, if the allocator gave every frame asked for. -/
theorem run_regular (pmm : PhysicalMemoryManager) (memory : Nat → PageTableEntry)
    (calls : List SharedMemoryCall) (few : calls.length < 2 ^ 22)
    (given : 0 ∉ ((boot pmm memory).run calls).memory.answers) :
    ∃ table pages, Regular (reservedFrames pmm) calls.length ((boot pmm memory).run calls)
      table pages := by
  -- By induction on the calls, the last one first.
  induction calls using List.reverseRecOn with
  | nil =>
    obtain ⟨table, regular⟩ := boot_regular pmm memory
    exact ⟨table, _, regular⟩
  | append_singleton calls call ih =>
    rw [run, List.foldl_concat, ← run] at given ⊢
    rw [List.length_append, List.length_singleton] at few ⊢
    obtain ⟨frames, answers⟩ := perform_answers ((boot pmm memory).run calls) call
    obtain ⟨table, pages, regular⟩ := ih (by omega) (by
      intro null
      apply given
      rw [answers]
      exact List.mem_append_left _ null)
    exact regular.perform (by omega) call given

/-- The frame behind a page of a region, or zero. -/
def frameOf (state : SharedMemory) (region : SharedMemoryRegion) (index : Nat) : BitVec 64 :=
  state.memory.getPhysicalAddress (pageAt region.address index)

/-- The bytes of two regions do not overlap. -/
def Apart (first second : SharedMemoryRegion) : Prop :=
  first.address.toNat + first.size ≤ second.address.toNat ∨
    second.address.toNat + second.size ≤ first.address.toNat

/-- A page of a live region is translated to the frame that the map shows for it. -/
theorem Regular.frameOf (regular : Regular reserved made state table pages) (few : made + 1 ≤ 2 ^ 22)
    {region : SharedMemoryRegion} (live : region ∈ state.regions) {index : Nat}
    (inside : index < pagesOf region.size) :
    pages (firstPage region.id + index) = some (state.frameOf region index) := by
  obtain ⟨-, -, -, -, window⟩ := regular.window few live
  have page := window.numbered index inside
  obtain ⟨physicalAddr, backs⟩ := Option.isSome_iff_exists.mp (regular.inside region live index inside)
  have ordinary : 4096 ≤ pageNumber (pageAt region.address index) := by
    rw [page]
    exact Nat.le_add_right_of_le window.ordinary
  have looked := regular.backed.getPhysicalAddress ordinary
  rw [page, backs, Option.getD_some] at looked
  rw [backs, SharedMemory.frameOf, looked]

/-- Live regions do not overlap. -/
theorem Regular.apart (regular : Regular reserved made state table pages) (few : made + 1 ≤ 2 ^ 22) :
    state.regions.Pairwise Apart := by
  -- Their identifiers differ, and each has room for the largest region.
  refine (List.pairwise_map.mp regular.distinct).imp_of_mem fun {region other} live live' apart => ?_
  obtain ⟨positive, -, address, -⟩ := regular.placed region live
  obtain ⟨positive', -, address', -⟩ := regular.placed other live'
  obtain ⟨-, most, size, small, -⟩ := regular.window few live
  obtain ⟨-, most', size', small', -⟩ := regular.window few live'
  rw [Apart, address, address', toNat_regionBase positive small, toNat_regionBase positive' small',
    size, size']
  simp only [firstPage]
  omega

/-- Pages of live regions that show the same frame are the same page of the same region. -/
theorem Regular.unshared (regular : Regular reserved made state table pages) (few : made + 1 ≤ 2 ^ 22)
    {region other : SharedMemoryRegion} (live : region ∈ state.regions)
    (live' : other ∈ state.regions) {i j : Nat} (inside : i < pagesOf region.size)
    (inside' : j < pagesOf other.size) (same : state.frameOf region i = state.frameOf other j) :
    region = other ∧ i = j := by
  have backs := regular.frameOf few live inside
  have backs' := regular.frameOf few live' inside'
  rw [← same] at backs'
  have page := regular.backed.unshared _ _ _ backs backs'
  obtain ⟨-, most, -⟩ := regular.window few live
  obtain ⟨-, most', -⟩ := regular.window few live'
  -- The identifiers are the same, and no two regions have the same one.
  obtain rfl : region = other := by
    by_contra differs
    have apart : other.id ≠ region.id := fun equal =>
      differs (List.inj_on_of_nodup_map regular.distinct live live' equal.symm)
    exact regular.page_elsewhere live live' apart (show j < 1024 by omega) (by omega)
  exact ⟨rfl, by omega⟩

/-- Destroying a live region gives back its frames, and the pages of the others keep theirs. -/
theorem Regular.destroy_frames (regular : Regular reserved made state table pages)
    (few : made + 1 ≤ 2 ^ 22) {region : SharedMemoryRegion} (live : region ∈ state.regions) :
    let after := (state.destroySharedMemory region.id).2
    (∀ index < pagesOf region.size, after.frameOf region index = 0#64) ∧
    (∀ addr, after.memory.pmm.Used addr ↔ state.memory.pmm.Used addr ∧
      ∀ index < pagesOf region.size, (state.frameOf region index).toNat ≠ addr) ∧
    ∀ other ∈ after.regions, ∀ index < pagesOf other.size,
      after.frameOf other index = state.frameOf other index := by
  intro after
  obtain ⟨-, erased, regular', freed⟩ := regular.destroy few live
  obtain ⟨-, -, -, -, window⟩ := regular.window few live
  refine ⟨?_, ?_, ?_⟩
  · -- The map shows nothing for the pages of the region any more.
    intro index inside
    have page := window.numbered index inside
    have ordinary : 4096 ≤ pageNumber (pageAt region.address index) := by
      rw [page]
      exact Nat.le_add_right_of_le window.ordinary
    have looked := regular'.backed.getPhysicalAddress ordinary
    rw [page, withoutPages, if_pos (by omega)] at looked
    exact looked
  · intro addr
    rw [freed addr]
    refine and_congr_right fun _ => forall_congr' fun index => forall_congr' fun inside => ?_
    rw [regular.frameOf few live inside]
    exact ⟨fun all => all _ rfl, fun apart physicalAddr same => Option.some.inj same ▸ apart⟩
  · -- The pages of another region lie elsewhere.
    intro other live' index inside
    have before : other ∈ state.regions := List.mem_of_mem_erase (erased ▸ live')
    have differs : other.id ≠ region.id := by
      intro equal
      have same := List.inj_on_of_nodup_map regular.distinct before live equal
      rw [erased, same] at live'
      exact (List.Nodup.of_map _ regular.distinct).not_mem_erase live'
    obtain ⟨-, most, -⟩ := regular.window few before
    obtain ⟨-, most', -⟩ := regular.window few live
    have elsewhere := regular.page_elsewhere live before differs (show index < 1024 by omega)
    have now := regular'.frameOf few live' inside
    rw [withoutPages, if_neg (by omega), regular.frameOf few before inside] at now
    exact (Option.some.inj now).symm

/--
Shared memory neither leaks nor shares frames.

Fewer than four million calls have been made since boot, and the allocator never answered null.
-/
theorem sharedMemory_run (pmm : PhysicalMemoryManager) (memory : Nat → PageTableEntry)
    (calls : List SharedMemoryCall) (few : calls.length < 2 ^ 22)
    (given : 0 ∉ ((boot pmm memory).run calls).memory.answers) :
    let state := (boot pmm memory).run calls
    state.halted = false ∧
    state.regions.Pairwise Apart ∧
    (∀ region ∈ state.regions, region.attachedProcesses.Nodup ∧
      ∀ index < pagesOf region.size, state.memory.pmm.Used (state.frameOf region index).toNat) ∧
    (∀ region ∈ state.regions, ∀ other ∈ state.regions, ∀ i < pagesOf region.size,
      ∀ j < pagesOf other.size, state.frameOf region i = state.frameOf other j →
        region = other ∧ i = j) ∧
    ∀ region ∈ state.regions,
      let after := (state.destroySharedMemory region.id).2
      (state.destroySharedMemory region.id).1 = true ∧
      after.regions = state.regions.erase region ∧
      (∀ index < pagesOf region.size, after.frameOf region index = 0#64) ∧
      (∀ addr, after.memory.pmm.Used addr ↔ state.memory.pmm.Used addr ∧
        ∀ index < pagesOf region.size, (state.frameOf region index).toNat ≠ addr) ∧
      ∀ other ∈ after.regions, ∀ index < pagesOf other.size,
        after.frameOf other index = state.frameOf other index := by
  intro state
  obtain ⟨table, pages, regular⟩ := run_regular pmm memory calls few given
  refine ⟨regular.running, regular.apart few, ?_, ?_, ?_⟩
  · intro region live
    refine ⟨regular.attached region live, fun index inside => ?_⟩
    exact (regular.backed.mapped _ _ (regular.frameOf few live inside)).1
  · intro region live other live' i inside j inside' same
    exact regular.unshared few live live' inside inside' same
  · intro region live after
    obtain ⟨told, erased, -, -⟩ := regular.destroy few live
    exact ⟨told, erased, regular.destroy_frames few live⟩

/-- A process creates a region of two pages, another one attaches to it, and the first one leaves. -/
def threeCalls : List SharedMemoryCall := [.create 7 5000, .attach 1 9, .detach 1 7]

/-- A call that creates a region, while the processor has not stopped. -/
theorem perform_create (running : state.halted = false) (creator : Int) (size : Nat) :
    state.perform (.create creator size) = (state.createSharedMemory creator size).2 := by
  rw [perform, running, if_neg Bool.false_ne_true]

/-- Two pages never run out of frames, and the region is left attached to the second process. -/
theorem run_threeCalls (pmm : PhysicalMemoryManager) (memory : Nat → PageTableEntry) :
    0 ∉ ((boot pmm memory).run threeCalls).memory.answers ∧
      ((boot pmm memory).run threeCalls).regions = [⟨1, 7, 8192, 0x700000000000#64, [9]⟩] := by
  -- Thousands of frames are free after boot.
  have sized : ¬ (5000 = 0 ∨ maxSharedMemorySize < 5000) := by decide
  obtain ⟨given, table, backed, -⟩ := bootMemory_backed pmm memory
  have available := bootMemory_available pmm memory
  obtain ⟨-, nonzero, -⟩ := backPages_available backed.manages given (regionBase 1)
    (show 4 * 2 ≤ _ by omega)
  have created := createSharedMemory_answers (boot pmm memory) 7 sized
  obtain ⟨table, regular⟩ := boot_regular pmm memory
  have answered : 0 ∉ ((boot pmm memory).createSharedMemory 7 5000).2.memory.answers := by
    rw [created, show pagesOf 5000 = 2 from rfl, show (boot pmm memory).nextId = 1 from rfl,
      show (boot pmm memory).memory = bootMemory pmm memory from rfl]
    exact nonzero
  obtain ⟨after, -, -, made, -⟩ := regular.create_backed (by decide) 7 sized answered
  have base : regionBase 1 = 0x700000000000#64 := by decide
  rw [show (boot pmm memory).nextId = 1 from rfl, base, show pagesOf 5000 * 4096 = 8192 from rfl]
    at made
  have first : (boot pmm memory).perform (.create 7 5000) =
      ⟨after, [⟨1, 7, 8192, 0x700000000000#64, [7]⟩], 2, false⟩ := by
    rw [perform_create rfl, made]
    rfl
  have last : (boot pmm memory).run threeCalls =
      ⟨after, [⟨1, 7, 8192, 0x700000000000#64, [9]⟩], 2, false⟩ := by
    rw [run, threeCalls, List.foldl_cons, first]
    rfl
  rw [made] at answered
  rw [last]
  exact ⟨answered, rfl⟩

/-- Destroying the region of two pages unmaps its pages. -/
theorem sharedMemory_run_three :
    (threeCalls.length < 2 ^ 22 ∧
      0 ∉ ((boot ⟨fun _ => 0#32, 0, 0, 0⟩ fun _ => emptyEntry).run threeCalls).memory.answers) ∧
    ((boot ⟨fun _ => 0#32, 0, 0, 0⟩ fun _ => emptyEntry).run threeCalls).regions =
      [⟨1, 7, 8192, 0x700000000000#64, [9]⟩] ∧
    (((boot ⟨fun _ => 0#32, 0, 0, 0⟩ fun _ => emptyEntry).run threeCalls).destroySharedMemory
      1).2.frameOf ⟨1, 7, 8192, 0x700000000000#64, [9]⟩ 1 = 0#64 := by
  obtain ⟨given, regions⟩ := run_threeCalls ⟨fun _ => 0#32, 0, 0, 0⟩ fun _ => emptyEntry
  obtain ⟨-, -, -, -, destroyed⟩ := sharedMemory_run ⟨fun _ => 0#32, 0, 0, 0⟩ (fun _ => emptyEntry)
    threeCalls (by decide) given
  have live : ⟨1, 7, 8192, 0x700000000000#64, [9]⟩ ∈
      ((boot ⟨fun _ => 0#32, 0, 0, 0⟩ fun _ => emptyEntry).run threeCalls).regions := by
    rw [regions]
    exact List.mem_singleton_self _
  exact ⟨⟨by decide, given⟩, regions, (destroyed _ live).2.2.1 1 (by decide)⟩

end SharedMemory

end Pocky
