import Pocky.Hw.Acpi
import Pocky.Memory.MappedPages

/-! Which bytes of a firmware table can be read when it is summed up, and of its header before that. -/

namespace Pocky

open PageTableEntry VirtualMemoryManager

/-- So many bytes behind an address are read where the kernel's half of the address space shows them. -/
def VirtualMemoryManager.MapsBytes (vmm : VirtualMemoryManager) (phys : BitVec 64) (count : Nat) : Prop :=
  ∀ index < count, vmm.translate (phys + physicalOffset + BitVec.ofNat 64 index) =
    some (phys + BitVec.ofNat 64 index)

/-- How many pages are mapped for a table. -/
def tablePageCount (length : Nat) : Nat := max 1 ((length + 4095) / 4096)

/-- The pages that are mapped for a table from one of them on, and what they are mapped to. -/
def tableRequests (phys : BitVec 64) (first count : Nat) : List (BitVec 64 × BitVec 64) :=
  (List.range' first count).map fun index =>
    (phys + physicalOffset + BitVec.ofNat 64 (4096 * index), phys + BitVec.ofNat 64 (4096 * index))

/-- The pages behind the first one are mapped in order. -/
theorem mapRest_eq_mapPages (phys : BitVec 64) {length first count : Nat} (behind : 1 ≤ first)
    (all : tablePageCount length = first + count) (vmm : VirtualMemoryManager) :
    mapRest phys length (4096 * first) vmm = vmm.mapPages (tableRequests phys first count) true := by
  -- By induction on the pages that are left.
  induction count generalizing first vmm with
  | zero =>
    simp only [tablePageCount] at all
    rw [mapRest, if_neg (by omega)]
    rfl
  | succ count ih =>
    simp only [tablePageCount] at all
    rw [mapRest, if_pos (by omega), show 4096 * first + 4096 = 4096 * (first + 1) by omega,
      ih (by omega) (by simp only [tablePageCount]; omega)]
    rfl

/-- The header is read when the first page has been mapped. -/
theorem mapAndVerifyTable_header (vmm : VirtualMemoryManager) (phys : BitVec 64) (table : Buffer) :
    (mapAndVerifyTable vmm phys table).header = vmm.mapPages (tableRequests phys 0 1) true := by
  simp [mapAndVerifyTable, tableRequests, mapPages]

/-- The bytes are summed up when all pages have been mapped. -/
theorem mapAndVerifyTable_summed (vmm : VirtualMemoryManager) (phys : BitVec 64) (table : Buffer) :
    (mapAndVerifyTable vmm phys table).summed =
      vmm.mapPages (tableRequests phys 0 (tablePageCount (tableLength table))) true := by
  obtain ⟨rest, all⟩ : ∃ rest, tablePageCount (tableLength table) = 1 + rest :=
    ⟨tablePageCount (tableLength table) - 1, by simp only [tablePageCount]; omega⟩
  have behind := mapRest_eq_mapPages phys (Nat.le_refl 1) all (mapAndVerifyTable vmm phys table).header
  change mapRest phys (tableLength table) 4096 (mapAndVerifyTable vmm phys table).header = _
  rw [behind, mapAndVerifyTable_header, all, Nat.add_comm]
  -- The first page is the first request.
  simp [tableRequests, mapPages, List.range'_succ]

/-- A byte behind an address in the lower half. -/
theorem toNat_behind {phys : BitVec 64} {offset : Nat} (low : phys.toNat + offset < 2 ^ 47) :
    (phys + BitVec.ofNat 64 offset).toNat = phys.toNat + offset := by
  rw [BitVec.toNat_add, BitVec.toNat_ofNat]
  omega

/-- The same byte, seen in the kernel's half of the address space. -/
theorem toNat_physicalOffset {phys : BitVec 64} {offset : Nat} (low : phys.toNat + offset < 2 ^ 47) :
    (phys + physicalOffset + BitVec.ofNat 64 offset).toNat = 2 ^ 64 - 2 ^ 47 + (phys.toNat + offset) := by
  have half : physicalOffset.toNat = 2 ^ 64 - 2 ^ 47 := by decide
  rw [BitVec.toNat_add, BitVec.toNat_add, BitVec.toNat_ofNat, half]
  omega

/-- The page it is seen in. -/
theorem pageNumber_physicalOffset {phys : BitVec 64} {offset : Nat} (low : phys.toNat + offset < 2 ^ 47) :
    pageNumber (phys + physicalOffset + BitVec.ofNat 64 offset) = 2 ^ 35 + (phys.toNat + offset) / 4096 := by
  rw [pageNumber, toNat_physicalOffset low]
  omega

/-- A page that is mapped for a table is one of so many. -/
theorem mem_tableRequests {phys : BitVec 64} {pages : Nat} {request : BitVec 64 × BitVec 64} :
    request ∈ tableRequests phys 0 pages ↔ ∃ index < pages,
      (phys + physicalOffset + BitVec.ofNat 64 (4096 * index), phys + BitVec.ofNat 64 (4096 * index)) =
        request := by
  simp [tableRequests]

/-- The pages that are mapped follow one another. -/
theorem tableRequests_pages {phys : BitVec 64} {pages : Nat}
    (low : ∀ index < pages, phys.toNat + 4096 * index < 2 ^ 47) :
    ((tableRequests phys 0 pages).map fun request => pageNumber request.1) =
      (List.range' 0 pages).map fun index => 2 ^ 35 + (phys.toNat / 4096 + index) := by
  rw [tableRequests, List.map_map]
  apply List.map_congr_left
  intro index member
  have few : index < pages := by simpa using member
  have behind : (phys.toNat + 4096 * index) / 4096 = phys.toNat / 4096 + index := by omega
  rw [Function.comp_apply, pageNumber_physicalOffset (low index few), behind]

/-- A frame and an offset in it make up the address that has both. -/
theorem frameBits_or_offset {frame place addr : BitVec 64} (page : frame.toNat / 4096 = addr.toNat / 4096)
    (offset : place.toNat % 4096 = addr.toNat % 4096) (small : addr.toNat < 2 ^ 52) :
    frameBits frame ||| (place &&& 0xFFF#64) = addr := by
  apply BitVec.eq_of_getLsbD_eq
  intro bit inside
  have masks : ∀ bit < 64, (0xFFF#64).getLsbD bit = decide (bit < 12) := by decide
  have mask := masks bit inside
  rw [BitVec.getLsbD_or, frameBits, BitVec.getLsbD_and, BitVec.getLsbD_and, getLsbD_frameMask bit inside, mask]
  rcases Nat.lt_or_ge bit 12 with below | above
  · -- The offset gives the lower bits.
    have bits := congrArg (·.testBit bit) offset
    simp only [show 4096 = 2 ^ 12 from rfl, Nat.testBit_mod_two_pow, below, decide_true, Bool.true_and] at bits
    simp only [BitVec.getLsbD, below, Nat.not_le.mpr below, false_and, decide_false, decide_true, Bool.and_false,
      Bool.false_or, Bool.and_true]
    exact bits
  · -- The frame gives the others, of which there are none from the fifty-second on.
    have bits := congrArg (·.testBit (bit - 12)) page
    simp only [show 4096 = 2 ^ 12 from rfl, Nat.testBit_div_two_pow, Nat.sub_add_cancel above] at bits
    rcases Nat.lt_or_ge bit 52 with few | many
    · simp only [BitVec.getLsbD, above, few, Nat.not_lt.mpr above, and_self, decide_false, decide_true,
        Bool.and_false, Bool.or_false, Bool.and_true]
      exact bits
    · have high : 2 ^ 52 ≤ 2 ^ bit := Nat.pow_le_pow_right (by decide) many
      have none : addr.getLsbD bit = false := Nat.testBit_lt_two_pow (by omega)
      simp only [none, Nat.not_lt.mpr above, Nat.not_lt.mpr many, and_false, decide_false, Bool.and_false,
        Bool.or_false]

section Mapping

variable {vmm : VirtualMemoryManager} {table : Nat → Nat → Option Nat} {phys : BitVec 64} {size : Nat}

/-- Bytes that are not mapped lie below the end of the lower half. -/
theorem unmapped_below (tables : PageTables vmm table []) (low : phys.toNat < 2 ^ 47)
    (unmapped : ∀ index < size, vmm.translate (phys + physicalOffset + BitVec.ofNat 64 index) = none) :
    phys.toNat + size ≤ 2 ^ 47 := by
  by_contra above
  -- The byte behind the end would be the first one of memory, which is always mapped.
  have half : physicalOffset.toNat = 2 ^ 64 - 2 ^ 47 := by decide
  have wraps : (phys + physicalOffset + BitVec.ofNat 64 (2 ^ 47 - phys.toNat)).toNat = 0 := by
    rw [BitVec.toNat_add, BitVec.toNat_add, BitVec.toNat_ofNat, half]
    omega
  have large : pageNumber (phys + physicalOffset + BitVec.ofNat 64 (2 ^ 47 - phys.toNat)) < 4096 := by
    rw [pageNumber, wraps]
    decide
  have none := unmapped (2 ^ 47 - phys.toNat) (by omega)
  rw [tables.translate_large large] at none
  cases none

/-- Once some pages have been mapped for a table, its bytes in them are mapped, and no others. -/
theorem translate_requests_iff (tables : PageTables vmm table []) (low : phys.toNat < 2 ^ 47)
    (unmapped : ∀ index < size, vmm.translate (phys + physicalOffset + BitVec.ofNat 64 index) = none)
    {pages : Nat} (inside : ∀ index < pages, 4096 * index < size)
    (available : (missingNodes table ((tableRequests phys 0 pages).map Prod.fst)).card ≤ vmm.frames.length)
    {index : Nat} (byte : index < size) :
    (vmm.mapPages (tableRequests phys 0 pages) true).translate
        (phys + physicalOffset + BitVec.ofNat 64 index) = some (phys + BitVec.ofNat 64 index) ↔
      phys.toNat % 4096 + index < 4096 * pages := by
  have below := unmapped_below tables low unmapped
  have page : ∀ offset < size, pageNumber (phys + physicalOffset + BitVec.ofNat 64 offset) =
      2 ^ 35 + (phys.toNat + offset) / 4096 := fun offset few => pageNumber_physicalOffset (by omega)
  have ordinary : ∀ offset < size, 4096 ≤ pageNumber (phys + physicalOffset + BitVec.ofNat 64 offset) := by
    intro offset few
    rw [page offset few]
    omega
  have numbers := tableRequests_pages fun index few =>
    show phys.toNat + 4096 * index < 2 ^ 47 by
      have start := inside index few
      omega
  -- No page is asked for twice, and none of them is mapped.
  have distinct : ((tableRequests phys 0 pages).map fun request => pageNumber request.1).Nodup := by
    rw [numbers]
    exact List.Nodup.map (fun first second same => by omega) List.nodup_range'
  have high : ∀ request ∈ tableRequests phys 0 pages, 4096 ≤ pageNumber request.1 := by
    intro request member
    obtain ⟨number, few, rfl⟩ := mem_tableRequests.mp member
    exact ordinary _ (inside number few)
  have absent : ∀ request ∈ tableRequests phys 0 pages, vmm.shown table (pageNumber request.1) = none := by
    intro request member
    obtain ⟨number, few, rfl⟩ := mem_tableRequests.mp member
    exact (tables.translate_eq_none_iff (ordinary _ (inside number few))).mp (unmapped _ (inside number few))
  obtain ⟨table', tables', given, kept⟩ := tables.mapPages_shown high distinct absent available true
  rw [tables'.translate_shown (ordinary index byte)]
  constructor
  · intro translated
    by_contra behind
    -- The page of the byte has not been asked for.
    have other : pageNumber (phys + physicalOffset + BitVec.ofNat 64 index) ∉
        (tableRequests phys 0 pages).map fun request => pageNumber request.1 := by
      rw [numbers, page index byte]
      intro member
      obtain ⟨number, few, same⟩ := List.mem_map.mp member
      have fewer : number < pages := by simpa using few
      omega
    have none := (tables.translate_eq_none_iff (ordinary index byte)).mp (unmapped index byte)
    rw [kept _ other, none] at translated
    cases translated
  · intro covered
    -- Its page is the one as many pages behind the first as its offset tells.
    obtain ⟨number, number_eq⟩ : ∃ number, number = (phys.toNat % 4096 + index) / 4096 := ⟨_, rfl⟩
    have few : number < pages := by omega
    have shown := given _ (mem_tableRequests.mpr ⟨number, few, rfl⟩)
    dsimp only at shown
    have same : pageNumber (phys + physicalOffset + BitVec.ofNat 64 (4096 * number)) =
        pageNumber (phys + physicalOffset + BitVec.ofNat 64 index) := by
      rw [page _ (inside number few), page index byte]
      omega
    rw [same] at shown
    have start := inside number few
    rw [shown, Option.map_some, frameBits_or_offset]
    · rw [toNat_behind (by omega), toNat_behind (by omega)]
      omega
    · rw [toNat_physicalOffset (by omega), toNat_behind (by omega)]
      omega
    · rw [toNat_behind (by omega)]
      omega

/-- Once some pages have been mapped for a table, its first bytes are mapped if those pages reach far enough. -/
theorem mapsBytes_iff (tables : PageTables vmm table []) (low : phys.toNat < 2 ^ 47)
    (unmapped : ∀ index < size, vmm.translate (phys + physicalOffset + BitVec.ofNat 64 index) = none)
    {pages count : Nat} (some : 0 < pages) (inside : ∀ index < pages, 4096 * index < size)
    (available : (missingNodes table ((tableRequests phys 0 pages).map Prod.fst)).card ≤ vmm.frames.length)
    (part : count ≤ size) :
    (vmm.mapPages (tableRequests phys 0 pages) true).MapsBytes phys count ↔
      phys.toNat % 4096 + count ≤ 4096 * pages := by
  have each := fun index (few : index < count) =>
    translate_requests_iff tables low unmapped inside available (Nat.lt_of_lt_of_le few part)
  constructor
  · intro maps
    rcases Nat.eq_zero_or_pos count with rfl | positive
    · omega
    · -- The last byte tells.
      have last := (each (count - 1) (by omega)).mp (maps (count - 1) (by omega))
      omega
  · intro far index few
    exact (each index few).mpr (by omega)

end Mapping

/-- How many bytes behind the address of a table are read: its header, and all that its length covers. -/
def tableBytes (content : Buffer) : Nat := max (recordSize acpiSdtHeader) (tableLength content)

/-- The addresses of the pages that are mapped for a table. -/
def tablePages (phys : BitVec 64) (content : Buffer) : List (BitVec 64) :=
  (tableRequests phys 0 (tablePageCount (tableLength content))).map Prod.fst

/-- Every page that is mapped for a table holds a byte that is read, if the pages are counted from its address. -/
theorem tablePageCount_inside (content : Buffer) {index : Nat}
    (few : index < tablePageCount (tableLength content)) : 4096 * index < tableBytes content := by
  have header : recordSize acpiSdtHeader = 36 := acpiSdtHeader_layout.2.2
  simp only [tablePageCount] at few
  simp only [tableBytes, header]
  omega

/-- The pages mapped for a table are enough exactly if the bytes in front of it in its first page leave room. -/
theorem mapAndVerifyTable_maps_iff {vmm : VirtualMemoryManager} {table : Nat → Nat → Option Nat}
    (tables : PageTables vmm table []) (phys : BitVec 64) (content : Buffer) (low : phys.toNat < 2 ^ 47)
    (unmapped : ∀ index < tableBytes content,
      vmm.translate (phys + physicalOffset + BitVec.ofNat 64 index) = none)
    (available : (missingNodes table (tablePages phys content)).card ≤ vmm.frames.length) :
    (mapAndVerifyTable vmm phys content).header.MapsBytes phys (recordSize acpiSdtHeader) ∧
      (mapAndVerifyTable vmm phys content).summed.MapsBytes phys (tableLength content) ↔
    phys.toNat % 4096 + recordSize acpiSdtHeader ≤ 4096 ∧
      phys.toNat % 4096 + tableLength content ≤ 4096 * tablePageCount (tableLength content) := by
  have some : 0 < tablePageCount (tableLength content) := Nat.lt_of_lt_of_le Nat.one_pos (Nat.le_max_left _ _)
  have first : ∀ index < 1, 4096 * index < tableBytes content := fun index few =>
    tablePageCount_inside content (Nat.lt_of_lt_of_le few some)
  -- For the header a frame is needed at most where one is needed for the whole table.
  have fewer : (tableRequests phys 0 1).map Prod.fst ⊆ tablePages phys content := by
    intro place member
    obtain ⟨request, asked, rfl⟩ := List.mem_map.mp member
    obtain ⟨index, few, rfl⟩ := mem_tableRequests.mp asked
    exact List.mem_map.mpr ⟨_, mem_tableRequests.mpr ⟨index, Nat.lt_of_lt_of_le few some, rfl⟩, rfl⟩
  have enough := Nat.le_trans (missingNodes_mono table fewer) available
  rw [mapAndVerifyTable_header, mapAndVerifyTable_summed,
    mapsBytes_iff tables low unmapped Nat.one_pos first enough (Nat.le_max_left _ _),
    mapsBytes_iff tables low unmapped some (fun index => tablePageCount_inside content) available
      (Nat.le_max_right _ _)]

/-- A table of a given length that holds nothing else. -/
def bareTable (length : Nat) : Buffer := putWord (fun _ => 0) (offsetOf acpiSdtHeader 1) length

/-- After boot with ten frames there is no last table, and six frames are left. -/
theorem tenFrames_booted : ∃ table, PageTables tenFrames.initializeTables table [] ∧
    tenFrames.initializeTables.frames.length = 6 ∧ ∀ number, table 3 number = none := by
  have fit : ∀ frame ∈ tenFrames.frames, TableFrame frame := by
    unfold TableFrame
    decide
  obtain ⟨table, tables, left, only⟩ := PageTables.boot rfl (by decide) fit
  refine ⟨table, tables, congrArg List.length left, fun number => ?_⟩
  by_contra here
  obtain ⟨addr, here⟩ := Option.ne_none_iff_exists'.mp here
  exact absurd (only 3 number addr here).2 (by decide)

/-- Without last tables nothing is mapped behind an address in the lower half. -/
theorem unmapped_of_no_last {vmm : VirtualMemoryManager} {table : Nat → Nat → Option Nat}
    (tables : PageTables vmm table []) (none : ∀ number, table 3 number = none) {phys : BitVec 64} {index : Nat}
    (low : phys.toNat + index < 2 ^ 47) :
    vmm.translate (phys + physicalOffset + BitVec.ofNat 64 index) = .none := by
  have high : 4096 ≤ pageNumber (phys + physicalOffset + BitVec.ofNat 64 index) := by
    rw [pageNumber_physicalOffset low]
    omega
  exact tables.translate_none high (none _)

/-- A table of 64 bytes that starts 256 bytes behind a page is mapped as a whole. -/
theorem mapAndVerifyTable_maps_short : ∃ table, PageTables tenFrames.initializeTables table [] ∧
    ((mapAndVerifyTable tenFrames.initializeTables 0x7FE0100#64 (bareTable 64)).header.MapsBytes
        0x7FE0100#64 (recordSize acpiSdtHeader) ∧
      (mapAndVerifyTable tenFrames.initializeTables 0x7FE0100#64 (bareTable 64)).summed.MapsBytes
        0x7FE0100#64 (tableLength (bareTable 64)) ↔
      0x7FE0100 % 4096 + recordSize acpiSdtHeader ≤ 4096 ∧
      0x7FE0100 % 4096 + tableLength (bareTable 64) ≤ 4096 * tablePageCount (tableLength (bareTable 64))) := by
  obtain ⟨table, tables, left, none⟩ := tenFrames_booted
  have bytes : tableBytes (bareTable 64) = 64 := by decide
  refine ⟨table, tables, mapAndVerifyTable_maps_iff tables _ _ (by decide) (fun index few => ?_) ?_⟩
  · exact unmapped_of_no_last tables none (by rw [bytes] at few; simp only [BitVec.toNat_ofNat]; omega)
  · rw [left]
    exact Nat.le_trans (PageTables.missingNodes_single table _) (by decide)

/-- The last byte of a table of 512 bytes is not mapped where it starts 3840 bytes behind a page. -/
theorem mapAndVerifyTable_misses_end : ¬ ∀ (vmm : VirtualMemoryManager) (table : Nat → Nat → Option Nat)
    (phys : BitVec 64) (content : Buffer), PageTables vmm table [] → phys.toNat < 2 ^ 47 →
    (∀ index < tableBytes content, vmm.translate (phys + physicalOffset + BitVec.ofNat 64 index) = none) →
    (missingNodes table (tablePages phys content)).card ≤ vmm.frames.length →
    (mapAndVerifyTable vmm phys content).header.MapsBytes phys (recordSize acpiSdtHeader) ∧
      (mapAndVerifyTable vmm phys content).summed.MapsBytes phys (tableLength content) := by
  intro always
  obtain ⟨table, tables, left, none⟩ := tenFrames_booted
  have bytes : tableBytes (bareTable 512) = 512 := by decide
  have length : tableLength (bareTable 512) = 512 := by decide
  have unmapped : ∀ index < tableBytes (bareTable 512),
      tenFrames.initializeTables.translate (0x7FE0F00#64 + physicalOffset + BitVec.ofNat 64 index) = .none :=
    fun index few => unmapped_of_no_last tables none
      (by rw [bytes] at few; simp only [BitVec.toNat_ofNat]; omega)
  have available : (missingNodes table (tablePages 0x7FE0F00#64 (bareTable 512))).card ≤
      tenFrames.initializeTables.frames.length := by
    rw [left]
    exact Nat.le_trans (PageTables.missingNodes_single table _) (by decide)
  have maps := (always _ table 0x7FE0F00#64 (bareTable 512) tables (by decide) unmapped available).2
  -- One page is mapped, and the table ends in the next one.
  rw [mapAndVerifyTable_summed, mapsBytes_iff tables (by decide) unmapped (by decide)
    (fun index => tablePageCount_inside _) available (Nat.le_max_right _ _), length] at maps
  exact absurd maps (by decide)

end Pocky
