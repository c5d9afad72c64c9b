import Mathlib.Data.List.Range
import Pocky.Core.FailedSetUp
import Pocky.Core.PageBytes
import Pocky.Core.StackLaws

/-! Which bytes loading a program reads and writes, and what its segments hold afterwards. -/

namespace Pocky

open PagedMemory

namespace ProgramHeader

/-- Where the table entry of a header lies in its file. -/
def place (file : Buffer) (index : Nat) : Nat := longAt file 32 + 56 * index

/-- How many bytes of a segment are written, those copied and then those cleared. -/
def byteCount (header : ProgramHeader) : Nat := max header.filesz.toNat header.memsz.toNat

/-- The address of a byte of a segment. -/
def byteAddr (header : ProgramHeader) (count : Nat) : BitVec 64 :=
  header.vaddr + BitVec.ofNat 64 count

/-- What a byte of a segment is to be: one of the file, or zero behind them. -/
def content (header : ProgramHeader) (file : Buffer) (count : Nat) : UInt8 :=
  if count < header.filesz.toNat then file (header.offset.toNat + count) else 0

/-- Backing the pages of a segment with new frames. -/
def back (header : ProgramHeader) (memory : PagedMemory) : Backing :=
  memory.backAll header.writable header.pages

/-- No page of a segment lies under the large ones. -/
def High (header : ProgramHeader) : Prop := ∀ addr ∈ header.pages, 4096 ≤ pageNumber addr

end ProgramHeader

/-- Loading a program reaches a header of its file, or their end, in the memory there is by then. -/
inductive Reaches (memory : PagedMemory) (file : Buffer) : Nat → PagedMemory → Prop where
  /-- A valid file is gone through from its first header on. -/
  | start (valid : validateElfHeader file = true) : Reaches memory file 0 memory
  /-- A header of another kind is passed over. -/
  | passed {index : Nat} {now : PagedMemory} (reached : Reaches memory file index now)
      (more : index < halfAt file 56) (other : (ProgramHeader.read file index).type ≠ ptLoad) :
      Reaches memory file (index + 1) now
  /-- A segment has been loaded. -/
  | loaded {index : Nat} {now : PagedMemory} {first : Backing} (reached : Reaches memory file index now)
      (more : index < halfAt file 56) (kind : (ProgramHeader.read file index).type = ptLoad)
      (enough : ((ProgramHeader.read file index).back now).short = false)
      (done : now.loadSegment file (ProgramHeader.read file index) = some first) :
      Reaches memory file (index + 1) first.memory

/-- Loading a program reaches a segment whose pages get frames, and goes on to write its bytes. -/
structure Copies (memory : PagedMemory) (file : Buffer) (index : Nat) (now : PagedMemory) :
    Prop where
  /-- The header is reached. -/
  reached : Reaches memory file index now
  /-- It is one of the headers. -/
  more : index < halfAt file 56
  /-- The segment is one to load. -/
  kind : (ProgramHeader.read file index).type = ptLoad
  /-- There are frames for its pages. -/
  enough : ((ProgramHeader.read file index).back now).short = false

/-- An offset of its file at which loading a program reads. -/
inductive LoadReads (memory : PagedMemory) (file : Buffer) : Nat → Prop where
  /-- The fields of the file header are read. -/
  | fileHeader {offset : Nat} (inside : offset < 64) : LoadReads memory file offset
  /-- The kind of every header is read. -/
  | kind {index offset : Nat} {now : PagedMemory} (reached : Reaches memory file index now)
      (more : index < halfAt file 56) (low : ProgramHeader.place file index ≤ offset)
      (high : offset < ProgramHeader.place file index + 4) : LoadReads memory file offset
  /-- Of a segment to load all fields are read but its physical address and its alignment. -/
  | field {index offset : Nat} {now : PagedMemory} (reached : Reaches memory file index now)
      (more : index < halfAt file 56) (kind : (ProgramHeader.read file index).type = ptLoad)
      (inside :
        ProgramHeader.place file index ≤ offset ∧ offset < ProgramHeader.place file index + 24 ∨
        ProgramHeader.place file index + 32 ≤ offset ∧ offset < ProgramHeader.place file index + 48) :
      LoadReads memory file offset
  /-- The bytes of a segment are copied. -/
  | byte {index count : Nat} {now : PagedMemory} (copies : Copies memory file index now)
      (inside : count < (ProgramHeader.read file index).filesz.toNat) :
      LoadReads memory file ((ProgramHeader.read file index).offset.toNat + count)

/-- The page of an address is mapped for a segment: it was not, and it gets the frame taken for it. -/
def PagedMemory.MapsFor (memory : PagedMemory) (header : ProgramHeader) (virtualAddr : BitVec 64) :
    Prop :=
  memory.vmm.translate virtualAddr = none ∧
    ∃ pair ∈ (header.back memory).handed, pageNumber pair.1 = pageNumber virtualAddr ∧
      (header.back memory).memory.vmm.translate virtualAddr =
        some (BitVec.ofNat 64 pair.2 ||| (virtualAddr &&& 0xFFF#64))

/-- Loading a program from a file of some size is confined. -/
structure ConfinedLoad (memory : PagedMemory) (file : Buffer) (size : Nat)
    (result : Run (Option SetUp)) : Prop where
  /-- The file is read inside only. -/
  reads : ∀ offset, LoadReads memory file offset → offset < size
  /-- A segment is written to pages only that are mapped for it. -/
  writes : ∀ index now, Copies memory file index now →
    ∀ count < (ProgramHeader.read file index).byteCount,
      now.MapsFor (ProgramHeader.read file index) ((ProgramHeader.read file index).byteAddr count)
  /-- After success every byte of a segment is mapped and is what it is to be. -/
  holds : ∀ setUp, result = .ok (some setUp) → setUp.told = true → ∀ index < halfAt file 56,
    (ProgramHeader.read file index).type = ptLoad →
    ∀ count < (ProgramHeader.read file index).memsz.toNat,
      setUp.kernel.memory.loadByte ((ProgramHeader.read file index).byteAddr count) =
        some ((ProgramHeader.read file index).content file count)

/-- A segment fits into its file and into memory. -/
structure Fits (memory : PagedMemory) (header : ProgramHeader) (size : Nat) : Prop where
  /-- Its bytes lie in the file. -/
  inFile : header.filesz.toNat = 0 ∨ header.offset.toNat + header.filesz.toNat ≤ size
  /-- They end no later than its pages do. -/
  within : header.vaddr.toNat + header.byteCount ≤ header.vaddrEnd.toNat
  /-- Its pages lie above the large ones. -/
  high : header.High
  /-- None of them is mapped yet, and there are frames for them and for the tables they need. -/
  supplies : ∃ table broken, Settled memory table broken ∧ Supplies memory table broken header.pages

/-- Loading a segment does no harm: it is empty, the frames run out first, or it fits. -/
def SafeSegment (memory : PagedMemory) (header : ProgramHeader) (size : Nat) : Prop :=
  header.byteCount = 0 ∧ header.High ∨ (header.back memory).short = true ∨ Fits memory header size

/-- Every header that loading a program reaches lies in its file, and every segment is safe to load. -/
def SafeLoad (memory : PagedMemory) (file : Buffer) (size : Nat) : Prop :=
  ∀ index now, Reaches memory file index now → index < halfAt file 56 →
    ProgramHeader.place file index + 4 ≤ size ∧
    ((ProgramHeader.read file index).type = ptLoad →
      ProgramHeader.place file index + 48 ≤ size ∧
        SafeSegment now (ProgramHeader.read file index) size)

namespace ProgramHeader

variable {header : ProgramHeader}

/-- The pages of a segment are those from the one it starts in up to the boundary it ends at. -/
theorem mem_pages {addr : BitVec 64} : addr ∈ header.pages ↔
    ∃ number, header.vaddr.toNat / 4096 ≤ number ∧ 4096 * number < header.vaddrEnd.toNat ∧
      addr.toNat = 4096 * number := by
  have start : header.vaddrStart.toNat = 4096 * (header.vaddr.toNat / 4096) := by
    have aligned := pageMask_aligned header.vaddr
    have number := toNat_pageMask header.vaddr
    rw [vaddrStart]
    omega
  have aligned : header.vaddrEnd.toNat % 4096 = 0 := pageMask_aligned _
  have bound := header.vaddrEnd.isLt
  have place : ∀ index < (header.vaddrEnd.toNat - header.vaddrStart.toNat) / 4096,
      (pageAt header.vaddrStart index).toNat = 4096 * (header.vaddr.toNat / 4096 + index) := by
    intro index inside
    rw [pageAt, BitVec.toNat_add, BitVec.toNat_ofNat, start]
    omega
  simp only [pages, List.mem_map, List.mem_range]
  constructor
  · rintro ⟨index, inside, rfl⟩
    exact ⟨header.vaddr.toNat / 4096 + index, by omega, by omega, place index inside⟩
  · rintro ⟨number, low, high, same⟩
    refine ⟨number - header.vaddr.toNat / 4096, by omega, BitVec.eq_of_toNat_eq ?_⟩
    rw [place _ (by omega)]
    omega

/-- Pages above the large ones are so few that their numbers differ, also from the next one. -/
theorem High.apart (high : header.High) {first second : Nat}
    (low : header.vaddr.toNat / 4096 ≤ first) (order : first < second)
    (inside : 4096 * second ≤ header.vaddrEnd.toNat) : first % 2 ^ 36 ≠ second % 2 ^ 36 := by
  have ordinary : ∀ number, header.vaddr.toNat / 4096 ≤ number →
      4096 * number < header.vaddrEnd.toNat → 4096 ≤ number % 2 ^ 36 := by
    intro number above below
    have small : 4096 * number < 2 ^ 64 := by
      have bound := header.vaddrEnd.isLt
      omega
    have whole : (BitVec.ofNat 64 (4096 * number)).toNat = 4096 * number := by
      rw [BitVec.toNat_ofNat, Nat.mod_eq_of_lt small]
    have there := high _ (mem_pages.mpr ⟨number, above, below, whole⟩)
    rw [pageNumber, whole] at there
    omega
  intro same
  -- Otherwise the numbers would have gone through zero in between.
  have here := ordinary first low (by omega)
  have zero := ordinary (first + (2 ^ 36 - first % 2 ^ 36)) (by omega) (by omega)
  omega

/-- So no two of them have the same number. -/
theorem High.eq_of_pageNumber (high : header.High) {addr other : BitVec 64}
    (member : addr ∈ header.pages) (member' : other ∈ header.pages)
    (same : pageNumber addr = pageNumber other) : addr = other := by
  obtain ⟨number, low, below, place⟩ := mem_pages.mp member
  obtain ⟨number', low', below', place'⟩ := mem_pages.mp member'
  rw [pageNumber, pageNumber, place, place', Nat.mul_div_cancel_left _ (by decide),
    Nat.mul_div_cancel_left _ (by decide)] at same
  refine BitVec.eq_of_toNat_eq ?_
  rw [place, place']
  rcases Nat.lt_trichotomy number number' with less | rfl | more
  · exact absurd same (high.apart low less below'.le)
  · rfl
  · exact absurd same.symm (high.apart low' more below.le)

/-- Each page of a segment is asked for once. -/
theorem pages_nodup : header.pages.Nodup := by
  refine List.Nodup.map_on ?_ List.nodup_range
  intro index inside index' inside' same
  have number := congrArg BitVec.toNat ((BitVec.add_right_inj _).mp same)
  have bound := header.vaddrEnd.isLt
  rw [List.mem_range] at inside inside'
  rw [BitVec.toNat_ofNat, BitVec.toNat_ofNat, Nat.mod_eq_of_lt (by omega),
    Nat.mod_eq_of_lt (by omega)] at number
  omega

/-- Every page of a segment with bytes has one of them. -/
theorem exists_byteAddr (nonempty : 0 < header.byteCount) {addr : BitVec 64}
    (member : addr ∈ header.pages) :
    ∃ count < header.byteCount, pageNumber (header.byteAddr count) = pageNumber addr := by
  obtain ⟨number, low, below, place⟩ := mem_pages.mp member
  have aligned : header.vaddrEnd.toNat % 4096 = 0 := pageMask_aligned _
  -- The end is rounded down, after the sum may have wrapped around.
  have stop : header.vaddrEnd.toNat ≤ (header.vaddr + header.memsz + 0xFFF#64).toNat := by
    have number := toNat_pageMask (header.vaddr + header.memsz + 0xFFF#64)
    rw [vaddrEnd] at aligned ⊢
    omega
  rw [BitVec.toNat_add, BitVec.toNat_add, show (0xFFF#64).toNat = 4095 from rfl] at stop
  have bound := header.vaddr.isLt
  have bound' := header.memsz.isLt
  have more : header.memsz.toNat ≤ header.byteCount := Nat.le_max_right _ _
  -- The first page has the first byte, and each of the others begins with one.
  by_cases first : number = header.vaddr.toNat / 4096
  · refine ⟨0, nonempty, ?_⟩
    rw [byteAddr, pageNumber, pageNumber, BitVec.add_zero, place, first]
    omega
  · refine ⟨4096 * number - header.vaddr.toNat, by omega, ?_⟩
    rw [byteAddr, pageNumber, pageNumber, BitVec.toNat_add, BitVec.toNat_ofNat, place]
    omega

/-- A byte before the end of the pages lies on one of them. -/
theorem byteAddr_mem {count : Nat} (inside : header.vaddr.toNat + count < header.vaddrEnd.toNat) :
    ∃ addr ∈ header.pages, pageNumber addr = pageNumber (header.byteAddr count) := by
  have aligned : header.vaddrEnd.toNat % 4096 = 0 := pageMask_aligned _
  have bound := header.vaddrEnd.isLt
  have whole : (BitVec.ofNat 64 (4096 * ((header.vaddr.toNat + count) / 4096))).toNat =
      4096 * ((header.vaddr.toNat + count) / 4096) := by
    rw [BitVec.toNat_ofNat, Nat.mod_eq_of_lt (by omega)]
  refine ⟨_, mem_pages.mpr ⟨(header.vaddr.toNat + count) / 4096, by omega, by omega, whole⟩, ?_⟩
  rw [byteAddr, pageNumber, pageNumber, whole, BitVec.toNat_add, BitVec.toNat_ofNat]
  omega

end ProgramHeader

/-- Different bytes of a segment have different addresses. -/
theorem ProgramHeader.byteAddr_ne {header : ProgramHeader} {first second : Nat} (order : first < second)
    (inside : second < header.byteCount) : header.byteAddr first ≠ header.byteAddr second := by
  intro same
  -- No segment has more bytes than there are addresses.
  have number := congrArg BitVec.toNat ((BitVec.add_right_inj _).mp same)
  have bound := header.filesz.isLt
  have bound' := header.memsz.isLt
  rw [byteCount] at inside
  rw [BitVec.toNat_ofNat, BitVec.toNat_ofNat, Nat.mod_eq_of_lt (by omega),
    Nat.mod_eq_of_lt (by omega)] at number
  omega

section Segment

variable {memory : PagedMemory} {file : Buffer} {header : ProgramHeader} {first : Backing}

/-- A segment loaded above the large pages holds its bytes, and all others are as they were. -/
theorem loadSegment_loads {table : Nat → Nat → Option Nat} {broken : List Nat}
    (settled : Settled (header.back memory).memory table broken) (ordinary : header.Ordinary)
    (enough : (header.back memory).short = false)
    (done : memory.loadSegment file header = some first) :
    (∀ count < header.memsz.toNat,
      first.memory.loadByte (header.byteAddr count) = some (header.content file count)) ∧
    ∀ other, 4096 ≤ pageNumber other → (∀ count < header.byteCount, other ≠ header.byteAddr count) →
      first.memory.loadByte other = (header.back memory).memory.loadByte other := by
  obtain ⟨short, -⟩ | ⟨-, -, -, copied, copies, rest⟩ := loadSegment_cases done
  · rw [ProgramHeader.back, short] at enough
    cases enough
  have copying := fun index inside =>
    ordinary.bytes index (Nat.lt_of_lt_of_le inside (Nat.le_max_left _ _))
  have settled' := (settled.storeBytes copying copies).settled
  obtain ⟨here, others⟩ := settled.storeBytes_loads header.filesz.isLt.le copying copies
  rcases rest with ⟨longer, pads⟩ | ⟨whole, same⟩
  · -- The zeros follow the bytes of the file, and reach as far as the segment.
    have fewer : header.filesz.toNat < header.memsz.toNat := longer
    have rest : (header.memsz - header.filesz).toNat = header.memsz.toNat - header.filesz.toNat :=
      BitVec.toNat_sub_of_le (BitVec.le_of_lt longer)
    have addr : ∀ index, header.vaddr + header.filesz + BitVec.ofNat 64 index =
        header.byteAddr (header.filesz.toNat + index) := fun index => by
      rw [ProgramHeader.byteAddr, BitVec.ofNat_add, BitVec.ofNat_toNat, BitVec.setWidth_eq,
        BitVec.add_assoc]
    have whole : header.byteCount = header.memsz.toNat := Nat.max_eq_right fewer.le
    have padding : ∀ index < (header.memsz - header.filesz).toNat,
        4096 ≤ pageNumber (header.vaddr + header.filesz + BitVec.ofNat 64 index) := by
      intro index inside
      rw [addr]
      exact ordinary.bytes _ (show _ < header.byteCount by omega)
    obtain ⟨here', others'⟩ := settled'.storeBytes_loads (BitVec.isLt _).le padding pads
    refine ⟨fun count inside => ?_, fun other high apart => ?_⟩
    · by_cases inFile : count < header.filesz.toNat
      · have kept := others' (header.byteAddr count)
          (ordinary.bytes count (show count < header.byteCount by omega)) fun index within => by
            rw [addr]
            exact ProgramHeader.byteAddr_ne (by omega) (by omega)
        rw [ProgramHeader.content, if_pos inFile]
        exact kept.trans (here count inFile)
      · have last := here' (count - header.filesz.toNat) (by omega)
        rwa [addr, show header.filesz.toNat + (count - header.filesz.toNat) = count by omega,
          show (0 : UInt8) = header.content file count from (if_neg inFile).symm] at last
    · have kept := others' other high fun index inside => by
        rw [addr]
        exact apart _ (by omega)
      exact kept.trans (others other high fun index inside => apart index (by omega))
  · -- Without zeros the file has all the bytes.
    rw [same]
    have all : header.memsz.toNat ≤ header.filesz.toNat := Nat.not_lt.mp whole
    refine ⟨fun count inside => ?_, fun other high apart => ?_⟩
    · rw [ProgramHeader.content, if_pos (by omega)]
      exact here count (by omega)
    · exact others other high fun index inside =>
        apart index (Nat.lt_of_lt_of_le inside (Nat.le_max_left _ _))

/-- If there are enough frames, one is handed out for every page of a segment. -/
theorem back_handed (enough : (header.back memory).short = false) :
    (header.back memory).handed.map Prod.fst = header.pages := by
  obtain ⟨pages, all, -⟩ := memory.backAll_handed header.writable header.pages
  rw [ProgramHeader.back] at enough ⊢
  rw [pages, all enough, List.take_length]

/-- A segment that fits lies above the large pages. -/
theorem Fits.ordinary {size : Nat} (fits : Fits memory header size) : header.Ordinary := by
  refine ⟨fits.high, fun count inside => ?_⟩
  have within := fits.within
  obtain ⟨addr, member, same⟩ := @ProgramHeader.byteAddr_mem header count
    (Nat.lt_of_lt_of_le (Nat.add_lt_add_left inside _) within)
  have high := fits.high addr member
  rwa [same] at high

/-- The pages of a segment that fits are mapped for it. -/
theorem Fits.mapsFor {size : Nat} (fits : Fits memory header size)
    (enough : (header.back memory).short = false) {count : Nat} (inside : count < header.byteCount) :
    memory.MapsFor header (header.byteAddr count) := by
  obtain ⟨table, broken, settled, supplies⟩ := fits.supplies
  have within := fits.within
  obtain ⟨addr, member, same⟩ := @ProgramHeader.byteAddr_mem header count (by omega)
  have high := fits.high addr member
  obtain ⟨table', supplied⟩ := backAll_supplied settled fits.high supplies header.writable
  have handed := back_handed enough
  rw [← handed] at member
  obtain ⟨pair, here, rfl⟩ := List.mem_map.mp member
  refine ⟨?_, pair, here, same, ?_⟩
  · rw [settled.tables.translate_eq_none_iff (same ▸ high), ← same]
    exact supplies.unmapped pair.1 (handed ▸ member)
  · rw [ProgramHeader.back, supplied.settled.tables.translate_shown (same ▸ high), ← same,
      (supplied.shows pair here).1]
    rfl

/-- Bytes whose pages are mapped for a segment lie above the large pages. -/
theorem PagedMemory.MapsFor.high {table : Nat → Nat → Option Nat} {broken : List Nat}
    (settled : Settled memory table broken) {virtualAddr : BitVec 64}
    (maps : memory.MapsFor header virtualAddr) : 4096 ≤ pageNumber virtualAddr := by
  -- Under the large pages everything is mapped.
  by_contra low
  have mapped := settled.tables.translate_large (Nat.not_le.mp low)
  rw [maps.1] at mapped
  cases mapped

/-- A segment whose bytes lie in the file and whose pages are mapped for it fits. -/
theorem fits_of_mapsFor {table : Nat → Nat → Option Nat} {broken : List Nat} {size : Nat}
    (settled : Settled memory table broken) (enough : (header.back memory).short = false)
    (nonempty : 0 < header.byteCount)
    (inFile : ∀ count < header.filesz.toNat, header.offset.toNat + count < size)
    (maps : ∀ count < header.byteCount, memory.MapsFor header (header.byteAddr count)) :
    Fits memory header size := by
  have aligned : header.vaddrEnd.toNat % 4096 = 0 := pageMask_aligned _
  have handed := back_handed enough
  have high : header.High := by
    intro addr member
    obtain ⟨count, inside, same⟩ := ProgramHeader.exists_byteAddr nonempty member
    rw [← same]
    exact MapsFor.high settled (maps count inside)
  -- Frames are handed out for pages of the segment only, so each byte lies on one of these.
  have onPage : ∀ count < header.byteCount, ∃ addr ∈ header.pages,
      pageNumber addr = pageNumber (header.byteAddr count) := by
    intro count inside
    obtain ⟨-, pair, here, same, -⟩ := maps count inside
    exact ⟨pair.1, handed ▸ List.mem_map_of_mem here, same⟩
  refine ⟨?_, ?_, high, table, broken, settled, ?_⟩
  · by_cases none : header.filesz.toNat = 0
    · exact Or.inl none
    · have last := inFile (header.filesz.toNat - 1) (by omega)
      exact Or.inr (by omega)
  · -- Otherwise there would be a byte at the boundary, on one of the pages before.
    by_contra beyond
    obtain ⟨first, member, -⟩ := onPage 0 nonempty
    obtain ⟨number, low, below, -⟩ := ProgramHeader.mem_pages.mp member
    have bound := header.vaddrEnd.isLt
    obtain ⟨addr, member', same⟩ := onPage (header.vaddrEnd.toNat - header.vaddr.toNat) (by omega)
    obtain ⟨number', low', below', place⟩ := ProgramHeader.mem_pages.mp member'
    refine high.apart low' (show number' < header.vaddrEnd.toNat / 4096 by omega) (by omega) ?_
    rw [ProgramHeader.byteAddr, pageNumber, pageNumber, place, BitVec.toNat_add,
      BitVec.toNat_ofNat] at same
    omega
  · have ends := backAll_ends settled high header.writable
    rw [← ProgramHeader.back] at ends
    cases ends with
    | supplied supplied _ => exact handed ▸ supplied.supplies
    | @wasted _ pair member leaks =>
      -- A byte on the page of the lost frame would have to be behind it.
      obtain ⟨table', broken', settled', lost⟩ := leaks
      have page : pair.1 ∈ header.pages := handed ▸ List.mem_map_of_mem member
      obtain ⟨count, inside, same⟩ := ProgramHeader.exists_byteAddr nonempty page
      obtain ⟨-, other, here, same', behind⟩ := maps count inside
      have addr : other.1 = pair.1 := high.eq_of_pageNumber
        (handed ▸ List.mem_map_of_mem here) page (same'.trans same)
      obtain rfl := List.inj_on_of_nodup_map (handed.symm ▸ ProgramHeader.pages_nodup) here member addr
      have ordinary := MapsFor.high settled (maps count inside)
      rw [settled'.tables.translate_shown ordinary] at behind
      obtain ⟨frame, shows, equal⟩ := Option.map_eq_some_iff.mp behind
      obtain ⟨used, -⟩ := settled'.mapped _ frame ordinary shows
      obtain ⟨⟨-, aligned, -⟩, -⟩ := settled'.manages.used_fit used
      obtain ⟨⟨-, aligned', -⟩, -⟩ := settled'.manages.used_fit lost.used
      have whole := settled'.manages.toNat_used lost.used
      have number := congrArg BitVec.toNat equal
      rw [toNat_withOffset aligned, toNat_withOffset (by rw [whole]; exact aligned')] at number
      have same := BitVec.eq_of_toNat_eq (Nat.add_right_cancel number)
      exact (lost.unshown _ ordinary (shows.trans (congrArg some same))).elim

/-- A segment that is safe lies above the large pages, and the pages of its bytes are mapped for it. -/
theorem SafeSegment.maps {size : Nat} (safe : SafeSegment memory header size)
    (enough : (header.back memory).short = false) :
    header.Ordinary ∧ ∀ count < header.byteCount, memory.MapsFor header (header.byteAddr count) := by
  rcases safe with ⟨empty, high⟩ | short | fits
  · have none : ∀ count, ¬ count < header.byteCount := fun count => by omega
    exact ⟨⟨high, fun count inside => absurd inside (none count)⟩,
      fun count inside => absurd inside (none count)⟩
  · rw [short] at enough
    cases enough
  · exact ⟨fits.ordinary, fun count inside => fits.mapsFor enough inside⟩

/-- Loading a segment that is safe keeps the bytes of the others, and then it holds its own. -/
theorem SafeSegment.loads {table : Nat → Nat → Option Nat} {broken : List Nat} {size : Nat}
    (settled : Settled memory table broken) (safe : SafeSegment memory header size)
    (enough : (header.back memory).short = false)
    (done : memory.loadSegment file header = some first) :
    (∃ table' broken', Settled first.memory table' broken') ∧ KeepsBytes memory first.memory ∧
      ∀ count < header.memsz.toNat, 4096 ≤ pageNumber (header.byteAddr count) ∧
        first.memory.loadByte (header.byteAddr count) = some (header.content file count) := by
  -- Backing its pages keeps the other bytes, and the stores go to its own pages.
  obtain ⟨ordinary, maps⟩ := safe.maps enough
  obtain ⟨⟨table', broken', settled'⟩, kept⟩ := backAll_keeps settled ordinary.pages header.writable
  obtain ⟨here, others⟩ := loadSegment_loads settled' ordinary enough done
  obtain ⟨-, -, stores⟩ := loadSegment_stores ordinary done
  refine ⟨⟨table', broken', (stores table' broken' settled').settled⟩,
    fun other high byte loaded => ?_, fun count inside => ⟨?_, here count inside⟩⟩
  · rw [others other high]
    · exact kept other high byte loaded
    · -- There was no byte where those of the segment go.
      rintro count inside rfl
      rw [loadByte, (maps count inside).1] at loaded
      split at loaded
      · cases loaded
      · cases loaded
  · exact ordinary.bytes count (Nat.lt_of_lt_of_le inside (Nat.le_max_right _ _))

/-- The frames run out while a segment is loaded if they do while its pages are backed. -/
theorem loadSegment_short (done : memory.loadSegment file header = some first) :
    first.short = (header.back memory).short := by
  rcases loadSegment_cases done with ⟨-, rfl⟩ | ⟨enough, short, -⟩
  · rfl
  · exact short.trans enough.symm

end Segment

section Load

variable {memory now : PagedMemory} {file : Buffer} {size index : Nat}

/-- While all is safe, memory is in order and the segments so far hold their bytes. -/
theorem SafeLoad.reaches (safe : SafeLoad memory file size)
    (settled : ∃ table broken, Settled memory table broken) (reached : Reaches memory file index now) :
    (∃ table broken, Settled now table broken) ∧
      ∀ earlier < index, (ProgramHeader.read file earlier).type = ptLoad →
        ∀ count < (ProgramHeader.read file earlier).memsz.toNat,
          4096 ≤ pageNumber ((ProgramHeader.read file earlier).byteAddr count) ∧
          now.loadByte ((ProgramHeader.read file earlier).byteAddr count) =
            some ((ProgramHeader.read file earlier).content file count) := by
  -- By induction on the headers gone through.
  induction reached with
  | start => exact ⟨settled, fun _ before => absurd before (Nat.not_lt_zero _)⟩
  | passed reached more other ih =>
    refine ⟨ih.1, fun earlier before kind => ?_⟩
    rcases Nat.lt_succ_iff_lt_or_eq.mp before with before | rfl
    · exact ih.2 earlier before kind
    · exact absurd kind other
  | loaded reached more kind enough done ih =>
    obtain ⟨⟨table, broken, settled'⟩, holds⟩ := ih
    obtain ⟨-, segment⟩ := safe _ _ reached more
    obtain ⟨settled'', kept, own⟩ := (segment kind).2.loads settled' enough done
    refine ⟨settled'', fun earlier before kind' count inside => ?_⟩
    -- Earlier segments keep their bytes, and the new one has its own.
    rcases Nat.lt_succ_iff_lt_or_eq.mp before with before | rfl
    · obtain ⟨high, byte⟩ := holds earlier before kind' count inside
      exact ⟨high, kept _ high _ byte⟩
    · exact own count inside

/-- Loading segments to the end reaches the end of the headers. -/
theorem reaches_end {regions : List MemoryRegion} {highest : BitVec 64} {count : Nat}
    {loading : Loading} (all : index + count = halfAt file 56) (reached : Reaches memory file index now)
    (loaded : now.loadSegments file regions highest
      ((List.range' index count).map (ProgramHeader.read file)) = some loading)
    (enough : loading.backing.short = false) :
    Reaches memory file (halfAt file 56) loading.backing.memory := by
  -- By induction on the number of headers left.
  induction count generalizing index now regions highest loading with
  | zero =>
    cases loaded
    exact all ▸ reached
  | succ count ih =>
    have more : index < halfAt file 56 := by omega
    rw [List.range'_succ, List.map_cons] at loaded
    -- A segment is loaded, and any other header passed over.
    by_cases kind : (ProgramHeader.read file index).type = ptLoad
    · obtain ⟨first, done, ⟨short, backing, -⟩ | ⟨whole, _, rest, others, -, short, last, -⟩⟩ :=
        loadSegments_cons kind loaded
      · rw [backing, short] at enough
        cases enough
      · rw [last]
        exact ih (by omega) (.loaded reached more kind (loadSegment_short done ▸ whole) done) others
          (short ▸ enough)
    · rw [loadSegments, if_pos kind] at loaded
      exact ih (by omega) (.passed reached more kind) loaded enough

end Load

namespace Kernel

variable {kernel : Kernel} {fs : FileSystem} {buffer : Buffer} {program : ProgramState}
  {process : Nat} {path : Name} {found : Found}

/-- A program loaded with success has had all its headers gone through. -/
theorem loadProgram_reaches {setUp : SetUp} (located : fs.findFile path = .ok (some found))
    (done : kernel.loadProgram fs buffer program process path = .ok (some setUp))
    (told : setUp.told = true) :
    Reaches kernel.memory (fs.readFile found.cluster buffer found.size)
      (halfAt (fs.readFile found.cluster buffer found.size) 56) setUp.kernel.memory := by
  rw [loadProgram] at done
  obtain ⟨looked, there, done⟩ := Run.bind_eq_ok.mp done
  obtain rfl : some found = looked := Except.ok.inj (located.symm.trans there)
  dsimp only at done
  split at done
  · cases done
    cases told
  · split at done
    · cases done
      cases told
    · rename_i valid
      split at done
      · cases done
      · rename_i loading loads
        split at done
        · obtain ⟨failed, abandoned, answer⟩ := Run.bind_eq_ok.mp done
          obtain ⟨cleaned, -, rest⟩ := Run.bind_eq_ok.mp abandoned
          cases rest
          cases answer
          cases told
        · rename_i enough
          cases done
          rw [ProgramHeader.readAll, List.range_eq_range'] at loads
          exact reaches_end (Nat.zero_add _) (.start (by simpa using valid)) loads
            (Bool.eq_false_iff.mpr enough)

/-- Loading a program is confined if every segment is safe when its turn comes. -/
theorem loadProgram_confined {table : Nat → Nat → Option Nat} {broken : List Nat}
    (settled : Settled kernel.memory table broken) (located : fs.findFile path = .ok (some found))
    (whole : 64 ≤ found.size)
    (safe : SafeLoad kernel.memory (fs.readFile found.cluster buffer found.size) found.size) :
    ConfinedLoad kernel.memory (fs.readFile found.cluster buffer found.size) found.size
      (kernel.loadProgram fs buffer program process path) := by
  generalize read : fs.readFile found.cluster buffer found.size = file at safe ⊢
  refine ⟨fun offset reads => ?_, fun index now copies count inside => ?_,
    fun setUp done told index more kind count inside => ?_⟩
  · cases reads with
    | fileHeader inside => exact Nat.lt_of_lt_of_le inside whole
    | kind reached more low high => exact Nat.lt_of_lt_of_le high (safe _ _ reached more).1
    | field reached more kind inside =>
      have entry := ((safe _ _ reached more).2 kind).1
      omega
    | @byte index count now copies inside =>
      obtain ⟨-, segment⟩ := (safe _ _ copies.reached copies.more).2 copies.kind
      rcases segment with ⟨empty, -⟩ | short | fits
      · have less := Nat.le_max_left (ProgramHeader.read file index).filesz.toNat
          (ProgramHeader.read file index).memsz.toNat
        rw [ProgramHeader.byteCount] at empty
        omega
      · rw [copies.enough] at short
        cases short
      · have inFile := fits.inFile
        omega
  · obtain ⟨-, segment⟩ := (safe _ _ copies.reached copies.more).2 copies.kind
    exact (segment.maps copies.enough).2 count inside
  · have reached := loadProgram_reaches located done told
    rw [read] at reached
    exact ((safe.reaches ⟨table, broken, settled⟩ reached).2 index more kind count inside).2

/--
Where the loading of a program is confined, every segment has been safe when its turn came.

Only segments without bytes that start within a page under the large ones may be another matter.
-/
theorem safeLoad_of_confined {file : Buffer} {size : Nat} {result : Run (Option SetUp)}
    {memory : PagedMemory} (settled : ∃ table broken, Settled memory table broken)
    (empty : ∀ index < halfAt file 56, (ProgramHeader.read file index).type = ptLoad →
      (ProgramHeader.read file index).byteCount = 0 → (ProgramHeader.read file index).High)
    (confined : ConfinedLoad memory file size result) : SafeLoad memory file size := by
  -- A header reached in memory that is in order is safe.
  have step : ∀ {index : Nat} {now : PagedMemory}, Reaches memory file index now →
      index < halfAt file 56 → (∃ table broken, Settled now table broken) →
      ProgramHeader.place file index + 4 ≤ size ∧
      ((ProgramHeader.read file index).type = ptLoad → ProgramHeader.place file index + 48 ≤ size ∧
        SafeSegment now (ProgramHeader.read file index) size) := by
    rintro index now reached more ⟨table, broken, settled⟩
    -- The last bytes read of a header lie in the file, so all of them do.
    have kindRead := confined.reads _ (.kind reached more (Nat.le_add_right _ 3) (by omega))
    refine ⟨by omega, fun kind => ⟨?_, ?_⟩⟩
    · have last := confined.reads (ProgramHeader.place file index + 47)
        (.field reached more kind (Or.inr ⟨by omega, by omega⟩))
      omega
    · by_cases none : (ProgramHeader.read file index).byteCount = 0
      · exact Or.inl ⟨none, empty index more kind none⟩
      · by_cases short : ((ProgramHeader.read file index).back now).short = true
        · exact Or.inr (Or.inl short)
        · -- Its bytes are read and written, so what is confined about them says that it fits.
          have copies : Copies memory file index now :=
            ⟨reached, more, kind, Bool.eq_false_iff.mpr short⟩
          exact Or.inr (Or.inr (fits_of_mapsFor settled copies.enough (Nat.pos_of_ne_zero none)
            (fun count inside => confined.reads _ (.byte copies inside)) (confined.writes _ _ copies)))
  -- By induction on the headers gone through, memory is in order.
  have order : ∀ {index : Nat} {now : PagedMemory}, Reaches memory file index now →
      ∃ table broken, Settled now table broken := by
    intro index now reached
    induction reached with
    | start => exact settled
    | passed _ _ _ ih => exact ih
    | loaded reached more kind enough done ih =>
      have safe := ((step reached more ih).2 kind).2
      obtain ⟨table, broken, settled'⟩ := ih
      exact (safe.loads settled' enough done).1
  exact fun index now reached more => step reached more (order reached)

/--
Loading a program is confined exactly if every header lies in the file and every segment fits.

A segment fits when its turn comes, unless the frames run out before.
-/
theorem loadProgram_confined_iff {table : Nat → Nat → Option Nat} {broken : List Nat}
    (settled : Settled kernel.memory table broken) (located : fs.findFile path = .ok (some found))
    (whole : 64 ≤ found.size) :
    let file := fs.readFile found.cluster buffer found.size
    (SafeLoad kernel.memory file found.size → ConfinedLoad kernel.memory file found.size
      (kernel.loadProgram fs buffer program process path)) ∧
    ((∀ index < halfAt file 56, (ProgramHeader.read file index).type = ptLoad →
        (ProgramHeader.read file index).byteCount = 0 → (ProgramHeader.read file index).High) →
      ConfinedLoad kernel.memory file found.size
        (kernel.loadProgram fs buffer program process path) →
      SafeLoad kernel.memory file found.size) :=
  ⟨loadProgram_confined settled located whole,
    fun empty confined => safeLoad_of_confined ⟨table, broken, settled⟩ empty confined⟩

/-- Where the program lies in its volume. -/
def programFound : Found := ⟨3, 120, 0x20, some (2, 0)⟩

/-- What is read of the volume with one program. -/
theorem programVolume_read : programVolume.findFile [0x61] = .ok (some programFound) ∧
    ProgramHeader.readAll (programVolume.readFile 3 (fun _ => 0) 120) = [gigabyteHeader] ∧
    longAt (programVolume.readFile 3 (fun _ => 0) 120) 32 = 64 := by
  decide +kernel

/-- In the memory after boot the program is safe to load. -/
theorem programVolume_safe : SafeLoad emptyKernel.memory
    (programVolume.readFile 3 (fun _ => 0) 120) 120 := by
  obtain ⟨-, headers, table⟩ := programVolume_read
  generalize programVolume.readFile 3 (fun _ => 0) 120 = file at headers table
  have count : halfAt file 56 = 1 := by
    rw [← List.length_range (n := halfAt file 56), ← List.length_map (ProgramHeader.read file)]
    exact congrArg List.length headers
  have first : ProgramHeader.read file 0 = gigabyteHeader := by
    rw [ProgramHeader.readAll, count] at headers
    exact (List.cons.inj headers).1
  intro index now reached more
  obtain rfl : index = 0 := by omega
  cases reached
  rw [first, ProgramHeader.place, table]
  refine ⟨by decide, fun _ => ⟨by decide, Or.inr (Or.inr ⟨Or.inl (by decide), by decide,
    gigabyteHeader_ordinary.pages, ?_⟩)⟩⟩
  obtain ⟨free, table, settled, unshown⟩ :=
    bootMemory_settled ⟨fun _ => 0#32, 0, 0, 0⟩ fun _ => emptyEntry
  have three := PageTables.missingNodes_single table 0x40000000#64
  refine ⟨table, [], settled, ?_⟩
  rw [gigabyteHeader_pages]
  refine ⟨fun addr _ => unshown _, fun addr _ => ?_, List.nodup_singleton _, ?_⟩
  · rintro ⟨_, _, _, _, broken⟩
    exact absurd broken List.not_mem_nil
  · have same : emptyKernel.memory = bootMemory ⟨fun _ => 0#32, 0, 0, 0⟩ fun _ => emptyEntry := rfl
    rw [same, List.length_singleton]
    omega

/-- So loading it after boot is confined, and its bytes are zero if it succeeds. -/
theorem loadProgram_confined_gigabyte :
    ConfinedLoad emptyKernel.memory (programVolume.readFile 3 (fun _ => 0) 120) 120
      (emptyKernel.loadProgram programVolume (fun _ => 0) noProgram 16 [0x61]) := by
  obtain ⟨-, table, settled, -⟩ := bootMemory_settled ⟨fun _ => 0#32, 0, 0, 0⟩ fun _ => emptyEntry
  obtain ⟨confined, -⟩ := @loadProgram_confined_iff emptyKernel programVolume (fun _ => 0) noProgram 16
    [0x61] programFound table [] settled programVolume_read.1 (by decide)
  exact confined programVolume_safe

/-- The same program, with its headers behind the end of the file. -/
def strayProgram : Buffer := putWord smallProgram 32 4096

/-- A volume with that program as its only file. -/
def strayVolume : FileSystem :=
  FileSystem.smallVolume
    (putBytes (putWord (FileSystem.withEntry 2 0 [0x61] 0x20 3 <|
      FileSystem.withLink 2 endMark <| FileSystem.withLink 3 endMark fun _ => 0)
      (512 * 2 + 28) 120) (512 * 3) 120 strayProgram) 2

/-- The kind of its header is read four kilobytes behind the start of a file of 120 bytes. -/
theorem strayProgram_unconfined :
    (∃ table, Settled emptyKernel.memory table []) ∧
      strayVolume.findFile [0x61] = .ok (some programFound) ∧
      validateElfHeader (strayVolume.readFile 3 (fun _ => 0) 120) = true ∧
      ¬ ConfinedLoad emptyKernel.memory (strayVolume.readFile 3 (fun _ => 0) 120) 120
        (emptyKernel.loadProgram strayVolume (fun _ => 0) noProgram 16 [0x61]) := by
  obtain ⟨-, table, settled, -⟩ := bootMemory_settled ⟨fun _ => 0#32, 0, 0, 0⟩ fun _ => emptyEntry
  obtain ⟨located, valid, some, place⟩ : strayVolume.findFile [0x61] = .ok (some programFound) ∧
      validateElfHeader (strayVolume.readFile 3 (fun _ => 0) 120) = true ∧
      0 < halfAt (strayVolume.readFile 3 (fun _ => 0) 120) 56 ∧
      ProgramHeader.place (strayVolume.readFile 3 (fun _ => 0) 120) 0 = 4096 := by
    decide +kernel
  refine ⟨⟨table, settled⟩, located, valid, fun confined => ?_⟩
  have inside := confined.reads 4096 (.kind (.start valid) some place.le (by rw [place]; decide))
  exact absurd inside (by decide)

end Kernel

end Pocky
