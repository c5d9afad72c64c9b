import Pocky.Core.BackingLaws

/-! Storing a program's bytes and releasing its regions, with frames and pages kept in order. -/

namespace Pocky

open PagedMemory

/-- An offset within a page is added to the frame behind it. -/
theorem toNat_withOffset {frame : BitVec 64} (aligned : frame.toNat % 4096 = 0)
    (virtualAddr : BitVec 64) :
    (frame ||| (virtualAddr &&& 0xFFF#64)).toNat = frame.toNat + virtualAddr.toNat % 4096 := by
  -- The frame has none of the bits of the offset.
  obtain ⟨number, whole⟩ : ∃ number, frame.toNat = 2 ^ 12 * number :=
    ⟨frame.toNat / 4096, by omega⟩
  rw [BitVec.toNat_or, BitVec.toNat_and, show (0xFFF#64).toNat = 2 ^ 12 - 1 from rfl,
    Nat.and_two_pow_sub_one_eq_mod, whole, ← Nat.two_pow_add_eq_or_of_lt]
  exact Nat.mod_lt _ (by decide)

/-- A masked address is a multiple of the page size. -/
theorem pageMask_aligned (virtualAddr : BitVec 64) : (virtualAddr &&& pageMask).toNat % 4096 = 0 := by
  -- None of its low bits is left.
  have clear : (virtualAddr &&& pageMask) &&& 0xFFF#64 = 0#64 := by
    rw [BitVec.and_assoc, show pageMask &&& 0xFFF#64 = 0#64 by decide, BitVec.and_zero]
  have number := congrArg BitVec.toNat clear
  rwa [BitVec.toNat_and, show (0xFFF#64).toNat = 2 ^ 12 - 1 from rfl,
    Nat.and_two_pow_sub_one_eq_mod] at number

/-- Bytes have been stored, while frames and pages are as they were. -/
structure Stores (memory : PagedMemory) (table : Nat → Nat → Option Nat) (broken : List Nat)
    (after : PagedMemory) : Prop where
  /-- Everything is in order. -/
  settled : Settled after table broken
  /-- The frames are the same. -/
  pmm : after.pmm = memory.pmm
  /-- So are the pages. -/
  shown : ∀ page, after.vmm.shown table page = memory.vmm.shown table page

/-- Nothing has been stored. -/
theorem Stores.refl {memory : PagedMemory} {table : Nat → Nat → Option Nat} {broken : List Nat}
    (settled : Settled memory table broken) : Stores memory table broken memory :=
  ⟨settled, rfl, fun _ => rfl⟩

/-- More is stored afterwards. -/
theorem Stores.trans {memory middle after : PagedMemory} {table : Nat → Nat → Option Nat}
    {broken : List Nat} (first : Stores memory table broken middle)
    (second : Stores middle table broken after) : Stores memory table broken after :=
  ⟨second.settled, second.pmm.trans first.pmm,
    fun page => (second.shown page).trans (first.shown page)⟩

namespace Settled

variable {memory after : PagedMemory} {table : Nat → Nat → Option Nat} {broken : List Nat}

/-- A byte stored on a page above the large ones lies in the frame behind it. -/
theorem storeByte (settled : Settled memory table broken) {virtualAddr : BitVec 64} {byte : UInt8}
    (ordinary : 4096 ≤ pageNumber virtualAddr)
    (stored : memory.storeByte virtualAddr byte = some after) :
    Stores memory table broken after := by
  rw [PagedMemory.storeByte] at stored
  split at stored
  · obtain ⟨physicalAddr, found, rfl⟩ := Option.map_eq_some_iff.mp stored
    rw [settled.tables.translate_shown ordinary] at found
    obtain ⟨frame, shows, rfl⟩ := Option.map_eq_some_iff.mp found
    obtain ⟨used, clear⟩ := settled.mapped _ frame ordinary shows
    obtain ⟨⟨-, aligned, -⟩, -⟩ := settled.manages.used_fit used
    have place := toNat_withOffset aligned virtualAddr
    obtain ⟨settled', shown⟩ := @writeWord _ _ _ settled _
      (0 + 8 * ((frame ||| (virtualAddr &&& 0xFFF#64)).toNat / 8)) used clear (by omega) _
    exact ⟨settled', rfl, shown⟩
  · cases stored

/-- So do several bytes. -/
theorem storeBytes (settled : Settled memory table broken) {virtualAddr : BitVec 64} {data : Buffer}
    {count : Nat}
    (ordinary : ∀ index < count, 4096 ≤ pageNumber (virtualAddr + BitVec.ofNat 64 index))
    (stored : memory.storeBytes virtualAddr data count = some after) :
    Stores memory table broken after := by
  -- By induction on the number of bytes.
  induction count generalizing after with
  | zero =>
    cases stored
    exact .refl settled
  | succ count ih =>
    obtain ⟨middle, before, last⟩ := Option.bind_eq_some_iff.mp stored
    have first := ih (fun index inside => ordinary index (Nat.lt_succ_of_lt inside)) before
    exact first.trans (first.settled.storeByte (ordinary count (Nat.lt_succ_self count)) last)

end Settled

/-- What is stored leaves the frames behind their pages. -/
theorem Supplied.stores {memory middle after : PagedMemory} {table table' : Nat → Nat → Option Nat}
    {broken : List Nat} {handed : List (BitVec 64 × Nat)}
    (supplied : Supplied memory table broken handed middle table')
    (stores : Stores middle table' broken after) :
    Supplied memory table broken handed after table' := by
  obtain ⟨settled, frames, shown⟩ := stores
  refine ⟨settled, supplied.supplies, supplied.grow, supplied.clear, ?_, supplied.fresh, ?_, ?_, ?_⟩
  · rw [frames]
    exact supplied.used
  · rw [frames]
    exact supplied.cost
  · intro pair member
    rw [shown]
    exact supplied.shows pair member
  · intro page outside
    rw [shown]
    exact supplied.others page outside

/-- What is stored does not find a lost frame. -/
theorem Lost.stores {memory after : PagedMemory} {table : Nat → Nat → Option Nat}
    {broken : List Nat} {frame : Nat} (lost : Lost memory table frame)
    (stores : Stores memory table broken after) : Leaks after frame := by
  refine ⟨table, broken, stores.settled, ?_, lost.clear, fun page ordinary => ?_⟩
  · rw [stores.pmm]
    exact lost.used
  · rw [stores.shown]
    exact lost.unshown page ordinary

/-- Neither the pages of a segment nor its bytes lie under the large pages. -/
structure ProgramHeader.Ordinary (header : ProgramHeader) : Prop where
  /-- Its pages do not. -/
  pages : ∀ addr ∈ header.pages, 4096 ≤ pageNumber addr
  /-- Its bytes do not. -/
  bytes : ∀ index < max header.filesz.toNat header.memsz.toNat,
    4096 ≤ pageNumber (header.vaddr + BitVec.ofNat 64 index)

/-- Loading a segment ends with its pages, or goes on to copy its bytes and to clear the rest. -/
theorem loadSegment_cases {memory : PagedMemory} {file : Buffer} {header : ProgramHeader}
    {first : Backing} (loaded : memory.loadSegment file header = some first) :
    let backing := memory.backAll header.writable header.pages
    backing.short = true ∧ first = backing ∨
    backing.short = false ∧ first.short = false ∧ first.handed = backing.handed ∧ ∃ copied,
      backing.memory.storeBytes header.vaddr (shifted file header.offset.toNat)
        header.filesz.toNat = some copied ∧
      (header.filesz < header.memsz ∧ copied.storeBytes (header.vaddr + header.filesz) (fun _ => 0)
          (header.memsz - header.filesz).toNat = some first.memory ∨
        ¬ header.filesz < header.memsz ∧ first.memory = copied) := by
  intro backing
  rw [loadSegment] at loaded
  change (if backing.short then some backing else _) = some first at loaded
  split at loaded
  · rename_i short
    exact Or.inl ⟨short, (Option.some.inj loaded).symm⟩
  · rename_i enough
    obtain ⟨copied, copies, loaded⟩ := Option.bind_eq_some_iff.mp loaded
    have answer := Bool.eq_false_iff.mpr enough
    split at loaded
    · rename_i longer
      obtain ⟨padded, pads, loaded⟩ := Option.bind_eq_some_iff.mp loaded
      cases loaded
      exact Or.inr ⟨answer, answer, rfl, copied, copies, Or.inl ⟨longer, pads⟩⟩
    · rename_i whole
      cases loaded
      exact Or.inr ⟨answer, answer, rfl, copied, copies, Or.inr ⟨whole, rfl⟩⟩

/-- Loading a segment hands out frames for its pages, and if they suffice it stores the bytes. -/
theorem loadSegment_stores {memory : PagedMemory} {file : Buffer} {header : ProgramHeader}
    {first : Backing} (ordinary : header.Ordinary)
    (loaded : memory.loadSegment file header = some first) :
    first.handed = (memory.backAll header.writable header.pages).handed ∧
    first.short = (memory.backAll header.writable header.pages).short ∧
    ∀ table broken, Settled (memory.backAll header.writable header.pages).memory table broken →
      Stores (memory.backAll header.writable header.pages).memory table broken first.memory := by
  rcases loadSegment_cases loaded with ⟨-, rfl⟩ | ⟨enough, short, handed, copied, copies, rest⟩
  · exact ⟨rfl, rfl, fun table broken settled => .refl settled⟩
  · refine ⟨handed, short.trans enough.symm, fun table broken settled => ?_⟩
    have first := settled.storeBytes
      (fun index inside => ordinary.bytes index (Nat.lt_of_lt_of_le inside (Nat.le_max_left _ _))) copies
    rcases rest with ⟨longer, pads⟩ | ⟨-, same⟩
    · -- The zeros follow the bytes of the file.
      refine first.trans (first.settled.storeBytes (fun index inside => ?_) pads)
      have fewer : header.filesz.toNat < header.memsz.toNat := longer
      rw [BitVec.toNat_sub_of_le (BitVec.le_of_lt longer)] at inside
      have place := ordinary.bytes (header.filesz.toNat + index) (by omega)
      rwa [BitVec.ofNat_add, BitVec.ofNat_toNat, BitVec.setWidth_eq, ← BitVec.add_assoc] at place
    · rw [same]
      exact first

/-- A frame stays lost while a segment is loaded. -/
theorem Leaks.loadSegment {memory : PagedMemory} {frame : Nat} (leaks : Leaks memory frame)
    {file : Buffer} {header : ProgramHeader} {first : Backing} (ordinary : header.Ordinary)
    (loaded : memory.loadSegment file header = some first) : Leaks first.memory frame := by
  obtain ⟨-, -, stores⟩ := loadSegment_stores ordinary loaded
  obtain ⟨table, broken, settled, lost⟩ := leaks.backAll ordinary.pages header.writable
  exact lost.stores (stores table broken settled)

/-- Loading a segment ends like handing out frames for its pages. -/
theorem loadSegment_ends {memory : PagedMemory} {table : Nat → Nat → Option Nat} {broken : List Nat}
    (settled : Settled memory table broken) {file : Buffer} {header : ProgramHeader}
    {first : Backing} (ordinary : header.Ordinary)
    (loaded : memory.loadSegment file header = some first) :
    BackingEnds memory table broken first.handed first.short first.memory := by
  obtain ⟨handed, short, stores⟩ := loadSegment_stores ordinary loaded
  rw [handed, short]
  cases backAll_ends settled ordinary.pages header.writable with
  | supplied supplied empty =>
    have stored := stores _ _ supplied.settled
    exact .supplied (supplied.stores stored) fun answer => by rw [stored.pmm]; exact empty answer
  | wasted wasted member leaks =>
    obtain ⟨table', broken', settled', lost⟩ := leaks
    exact .wasted wasted member (lost.stores (stores table' broken' settled'))

/-- Headers of another kind are passed over. -/
theorem loadSegments_filter (memory : PagedMemory) (file : Buffer) (regions : List MemoryRegion)
    (highest : BitVec 64) (headers : List ProgramHeader) :
    memory.loadSegments file regions highest headers =
      memory.loadSegments file regions highest (headers.filter (·.type == ptLoad)) := by
  -- By induction on the headers.
  induction headers generalizing memory regions highest with
  | nil => rfl
  | cons header headers ih =>
    by_cases kind : header.type = ptLoad
    · rw [List.filter_cons_of_pos (by simp [kind])]
      simp only [loadSegments, kind, ne_eq, not_true, if_false]
      simp only [ih]
    · rw [List.filter_cons_of_neg (by simp [kind]), loadSegments, if_pos kind, ih]

section Segments

variable {memory : PagedMemory} {file : Buffer} {headers : List ProgramHeader}

/-- A segment is loaded, and if the frames suffice it is recorded and the others follow. -/
theorem loadSegments_cons {regions : List MemoryRegion} {highest : BitVec 64} {header : ProgramHeader}
    {loading : Loading} (kind : header.type = ptLoad)
    (loaded : memory.loadSegments file regions highest (header :: headers) = some loading) :
    ∃ first, memory.loadSegment file header = some first ∧
      (first.short = true ∧ loading.backing = first ∧ loading.regions = regions ∨
      first.short = false ∧ ∃ highest' rest,
        first.memory.loadSegments file (header.region :: regions) highest' headers = some rest ∧
        loading.backing.handed = first.handed ++ rest.backing.handed ∧
        loading.backing.short = rest.backing.short ∧
        loading.backing.memory = rest.backing.memory ∧ loading.regions = rest.regions) := by
  simp only [loadSegments, kind, ne_eq, not_true, if_false] at loaded
  obtain ⟨first, here, loaded⟩ := Option.bind_eq_some_iff.mp loaded
  refine ⟨first, here, ?_⟩
  split at loaded
  · rename_i short
    cases loaded
    exact Or.inl ⟨short, rfl, rfl⟩
  · rename_i enough
    obtain ⟨rest, others, loaded⟩ := Option.bind_eq_some_iff.mp loaded
    cases loaded
    exact Or.inr ⟨Bool.eq_false_iff.mpr enough, _, rest, others, rfl, rfl, rfl, rfl⟩

/-- Where loading stands when the allocator gives null, in the pages and in the regions. -/
def StopsAt (regions : List MemoryRegion) (headers : List ProgramHeader) (loading : Loading) : Prop :=
  ∃ earlier header later count, headers = earlier ++ header :: later ∧ count < header.pages.length ∧
    loading.backing.handed.map Prod.fst =
      earlier.flatMap ProgramHeader.pages ++ header.pages.take count ∧
    loading.regions = (earlier.map ProgramHeader.region).reverse ++ regions

/-- Frames are handed out for the pages in order, and complete segments are recorded. -/
theorem loadSegments_handed {regions : List MemoryRegion} {highest : BitVec 64} {loading : Loading}
    (load : ∀ header ∈ headers, header.type = ptLoad ∧ header.Ordinary)
    (loaded : memory.loadSegments file regions highest headers = some loading) :
    loading.backing.short = false ∧
      loading.backing.handed.map Prod.fst = headers.flatMap ProgramHeader.pages ∨
    loading.backing.short = true ∧ StopsAt regions headers loading := by
  -- By induction on the segments.
  induction headers generalizing memory regions highest loading with
  | nil =>
    cases loaded
    exact Or.inl ⟨rfl, rfl⟩
  | cons header headers ih =>
    obtain ⟨kind, ordinary⟩ := load header List.mem_cons_self
    have load' := fun other member => load other (List.mem_cons_of_mem _ member)
    obtain ⟨first, here, outcome⟩ := loadSegments_cons kind loaded
    obtain ⟨same, answer, -⟩ := loadSegment_stores ordinary here
    obtain ⟨pages, all, some⟩ := memory.backAll_handed header.writable header.pages
    rw [← same, ← answer] at *
    rcases outcome with ⟨short, backing, recorded⟩ | ⟨enough, highest', rest, others, handed, short, -, recorded⟩
    · refine Or.inr ⟨backing ▸ short, [], header, headers, first.handed.length, rfl, some short, ?_, recorded⟩
      rw [backing, pages]
      rfl
    · -- A complete segment has been handed a frame for each page.
      have whole : first.handed.map Prod.fst = header.pages := by
        rw [pages, all enough, List.take_length]
      rw [handed, short, List.map_append, whole]
      rcases ih load' others with ⟨told, rest'⟩ | ⟨told, earlier, last, later, count, rfl, inside, rest', regions'⟩
      · exact Or.inl ⟨told, by rw [rest', List.flatMap_cons]⟩
      · refine Or.inr ⟨told, header :: earlier, last, later, count, rfl, inside, ?_, ?_⟩
        · rw [handed, List.map_append, whole, rest', List.flatMap_cons, List.append_assoc]
        · rw [recorded, regions', List.map_cons, List.reverse_cons, List.append_assoc]
          rfl

/-- A frame is only handed out for a page of a segment. -/
theorem loadSegments_mem {regions : List MemoryRegion} {highest : BitVec 64} {loading : Loading}
    (load : ∀ header ∈ headers, header.type = ptLoad ∧ header.Ordinary)
    (loaded : memory.loadSegments file regions highest headers = some loading)
    {pair : BitVec 64 × Nat} (member : pair ∈ loading.backing.handed) :
    ∃ header ∈ headers, pair.1 ∈ header.pages := by
  have here := List.mem_map_of_mem (f := Prod.fst) member
  rcases loadSegments_handed load loaded with
    ⟨-, all⟩ | ⟨-, earlier, header, later, count, rfl, -, some, -⟩
  · rw [all] at here
    exact List.mem_flatMap.mp here
  · rw [some] at here
    rcases List.mem_append.mp here with before | now
    · obtain ⟨other, there, inside⟩ := List.mem_flatMap.mp before
      exact ⟨other, List.mem_append_left _ there, inside⟩
    · exact ⟨header, List.mem_append_right _ List.mem_cons_self, List.mem_of_mem_take now⟩

/-- A frame stays lost while segments are loaded. -/
theorem Leaks.loadSegments {frame : Nat} (leaks : Leaks memory frame) {regions : List MemoryRegion}
    {highest : BitVec 64} {loading : Loading}
    (load : ∀ header ∈ headers, header.type = ptLoad ∧ header.Ordinary)
    (loaded : memory.loadSegments file regions highest headers = some loading) :
    Leaks loading.backing.memory frame := by
  -- By induction on the segments.
  induction headers generalizing memory regions highest loading with
  | nil =>
    cases loaded
    exact leaks
  | cons header headers ih =>
    obtain ⟨kind, ordinary⟩ := load header List.mem_cons_self
    obtain ⟨first, here, ⟨-, same, -⟩ | ⟨-, highest', rest, others, -, -, same, -⟩⟩ :=
      loadSegments_cons kind loaded
    · rw [same]
      exact leaks.loadSegment ordinary here
    · rw [same]
      exact ih (leaks.loadSegment ordinary here)
        (fun other member => load other (List.mem_cons_of_mem _ member)) others

/-- Loading segments ends like handing out frames for all their pages. -/
theorem loadSegments_ends {table : Nat → Nat → Option Nat} {broken : List Nat}
    (settled : Settled memory table broken) {regions : List MemoryRegion} {highest : BitVec 64}
    {loading : Loading} (load : ∀ header ∈ headers, header.type = ptLoad ∧ header.Ordinary)
    (loaded : memory.loadSegments file regions highest headers = some loading) :
    BackingEnds memory table broken loading.backing.handed loading.backing.short
      loading.backing.memory := by
  -- By induction on the segments.
  induction headers generalizing memory table regions highest loading with
  | nil =>
    cases loaded
    exact .supplied (Supplied.refl settled) fun short => by cases short
  | cons header headers ih =>
    obtain ⟨kind, ordinary⟩ := load header List.mem_cons_self
    have load' := fun other member => load other (List.mem_cons_of_mem _ member)
    obtain ⟨first, here, ⟨-, same, -⟩ | ⟨-, highest', rest, others, handed, short, same, -⟩⟩ :=
      loadSegments_cons kind loaded
    · rw [same]
      exact loadSegment_ends settled ordinary here
    · rw [handed, short, same]
      cases loadSegment_ends settled ordinary here with
      | supplied supplied empty =>
        refine supplied.andThen settled (fun pair member => ?_) (ih supplied.settled load' others)
        obtain ⟨other, there, inside⟩ := loadSegments_mem load' others member
        exact (load' other there).2.pages _ inside
      | wasted wasted member leaks =>
        refine .wasted ?_ (List.mem_append_left _ member) (leaks.loadSegments load' others)
        rw [List.map_append]
        exact wasted.append _

end Segments
/-- The addresses of the pages of a region, as a loop over it visits them. -/
def MemoryRegion.pages (region : MemoryRegion) : List (BitVec 64) :=
  (List.range (((region.start + region.size).toNat - region.start.toNat + 4095) / 4096)).map
    (pageAt region.start)

/-- The region of a segment has the pages of the segment. -/
theorem ProgramHeader.region_pages (header : ProgramHeader) : header.region.pages = header.pages := by
  -- Both ends are page-aligned.
  have start := pageMask_aligned header.vaddr
  have stop := pageMask_aligned (header.vaddr + header.memsz + 0xFFF#64)
  have ends : header.vaddrStart + (header.vaddrEnd - header.vaddrStart) = header.vaddrEnd := by
    rw [BitVec.add_comm, BitVec.sub_add_cancel]
  have count : (header.vaddrEnd.toNat - header.vaddrStart.toNat + 4095) / 4096 =
      (header.vaddrEnd.toNat - header.vaddrStart.toNat) / 4096 := by
    simp only [vaddrStart, vaddrEnd]
    omega
  simp only [MemoryRegion.pages, ProgramHeader.pages, region, ends, count]

/-- Releasing pages one after the other. -/
def PagedMemory.releaseAll (memory : PagedMemory) (addrs : List (BitVec 64)) : PagedMemory :=
  addrs.foldl releasePage memory

/-- The first page comes first. -/
theorem releaseAll_cons (memory : PagedMemory) (addr : BitVec 64) (addrs : List (BitVec 64)) :
    memory.releaseAll (addr :: addrs) = (memory.releasePage addr).releaseAll addrs := rfl

/-- A loop that passes the last address never ends. -/
theorem releaseRange_wraps (memory : PagedMemory) {stop addr : BitVec 64} (fuel : Nat)
    (wraps : 2 ^ 64 - 4096 + addr.toNat % 4096 < stop.toNat) :
    memory.releaseRange stop fuel addr = .error .diverges := by
  -- By induction on the rounds; every address it comes to lies below the end.
  induction fuel generalizing memory addr with
  | zero => rfl
  | succ fuel ih =>
    have below : addr < stop := by
      rw [BitVec.lt_def]
      omega
    rw [releaseRange, if_pos below]
    refine ih _ ?_
    rw [BitVec.toNat_add, BitVec.toNat_ofNat]
    omega

/-- A loop that ends has released the pages from its start on. -/
theorem releaseRange_eq {memory released : PagedMemory} {stop addr : BitVec 64} {fuel : Nat}
    (returned : memory.releaseRange stop fuel addr = .ok released) :
    released = memory.releaseAll
      ((List.range ((stop.toNat - addr.toNat + 4095) / 4096)).map (pageAt addr)) := by
  -- By induction on the rounds.
  induction fuel generalizing memory addr with
  | zero => cases returned
  | succ fuel ih =>
    by_cases below : addr < stop
    · have less : addr.toNat < stop.toNat := below
      by_cases wraps : 2 ^ 64 - 4096 + addr.toNat % 4096 < stop.toNat
      · rw [releaseRange_wraps memory (fuel + 1) wraps] at returned
        cases returned
      · -- The next address is further on, and the same pages are named from there.
        have bounded := addr.isLt
        have next : (addr + 4096#64).toNat = addr.toNat + 4096 := by
          rw [BitVec.toNat_add, BitVec.toNat_ofNat]
          omega
        have count : (stop.toNat - addr.toNat + 4095) / 4096 =
            (stop.toNat - (addr + 4096#64).toNat + 4095) / 4096 + 1 := by
          rw [next]
          omega
        have shifted : ∀ index, pageAt addr (index + 1) = pageAt (addr + 4096#64) index := by
          intro index
          rw [pageAt, pageAt, BitVec.add_assoc, Nat.add_mul, Nat.one_mul, Nat.add_comm,
            BitVec.ofNat_add]
        have first : pageAt addr 0 = addr := by simp [pageAt]
        rw [releaseRange, if_pos below] at returned
        rw [ih returned, count, List.range_succ_eq_map, List.map_cons, List.map_map, first]
        exact congrArg (PagedMemory.releaseAll _)
          (List.map_congr_left fun index _ => (shifted index).symm)
    · rw [releaseRange, if_neg below] at returned
      have least : stop.toNat ≤ addr.toNat := Nat.not_lt.mp below
      rw [show (stop.toNat - addr.toNat + 4095) / 4096 = 0 by omega]
      exact (Except.ok.inj returned).symm

/-- Releasing regions releases all their pages in order. -/
theorem releaseRegions_eq {memory released : PagedMemory} {regions : List MemoryRegion}
    (returned : memory.releaseRegions regions = .ok released) :
    released = memory.releaseAll (regions.flatMap MemoryRegion.pages) := by
  -- By induction on the regions.
  induction regions generalizing memory with
  | nil => exact (Except.ok.inj returned).symm
  | cons region regions ih =>
    obtain ⟨middle, first, rest⟩ := Run.bind_eq_ok.mp returned
    rw [ih rest, releaseRange_eq first, List.flatMap_cons, releaseAll, releaseAll, releaseAll,
      List.foldl_append]
    rfl

/-- Releasing pages unmaps them all, and frees exactly the frames behind them. -/
theorem Settled.releaseAll {memory : PagedMemory} {table : Nat → Nat → Option Nat} {broken : List Nat}
    (settled : Settled memory table broken) {addrs : List (BitVec 64)}
    (ordinary : ∀ addr ∈ addrs, 4096 ≤ pageNumber addr) :
    Settled (memory.releaseAll addrs) table broken ∧
    (∀ page, (memory.releaseAll addrs).vmm.shown table page =
      if page ∈ addrs.map pageNumber then none else memory.vmm.shown table page) ∧
    ∀ frame, (memory.releaseAll addrs).pmm.Used frame ↔ memory.pmm.Used frame ∧
      ∀ addr ∈ addrs, ∀ behind, memory.vmm.shown table (pageNumber addr) = some behind →
        behind.toNat ≠ frame := by
  -- By induction on the pages.
  induction addrs generalizing memory with
  | nil => exact ⟨settled, fun page => by simp [PagedMemory.releaseAll],
      fun frame => by simp [PagedMemory.releaseAll]⟩
  | cons addr addrs ih =>
    obtain ⟨settled', shown, used⟩ := settled.releasePage (ordinary addr List.mem_cons_self)
    obtain ⟨settled'', shown', used'⟩ :=
      ih settled' fun other member => ordinary other (List.mem_cons_of_mem _ member)
    refine ⟨settled'', fun page => ?_, fun frame => ?_⟩
    · rw [releaseAll_cons, shown', shown, List.map_cons]
      by_cases later : page ∈ addrs.map pageNumber
      · rw [if_pos later, if_pos (List.mem_cons_of_mem _ later)]
      · by_cases now : page = pageNumber addr
        · rw [if_neg later, if_pos now, if_pos (by rw [now]; exact List.mem_cons_self)]
        · rw [if_neg later, if_neg now, if_neg (by simp only [List.mem_cons, not_or]; exact ⟨now, later⟩)]
    · rw [releaseAll_cons, used', used, and_assoc]
      refine and_congr_right fun _ => ⟨?_, ?_⟩
      · rintro ⟨first, rest⟩ other member behind shows
        by_cases same : pageNumber other = pageNumber addr
        · exact first behind (same ▸ shows)
        · rcases List.mem_cons.mp member with rfl | member
          · exact absurd rfl same
          · refine rest other member behind ?_
            rw [shown, if_neg same, shows]
      · intro all
        refine ⟨all addr List.mem_cons_self, fun other member behind shows => ?_⟩
        rw [shown] at shows
        split at shows
        · cases shows
        · exact all other (List.mem_cons_of_mem _ member) behind shows

/-- A frame stays lost while pages are released. -/
theorem Leaks.releaseAll {memory : PagedMemory} {frame : Nat} (leaks : Leaks memory frame)
    {addrs : List (BitVec 64)} (ordinary : ∀ addr ∈ addrs, 4096 ≤ pageNumber addr) :
    Leaks (memory.releaseAll addrs) frame := by
  obtain ⟨table, broken, settled, lost⟩ := leaks
  obtain ⟨settled', shown, used⟩ := settled.releaseAll ordinary
  refine ⟨table, broken, settled', (used frame).mpr ⟨lost.used, ?_⟩, lost.clear, ?_⟩
  · rintro addr member behind shows rfl
    refine lost.unshown _ (ordinary addr member) ?_
    rw [BitVec.ofNat_toNat, BitVec.setWidth_eq, shows]
  · intro page high
    rw [shown]
    split
    · exact fun wrong => by cases wrong
    · exact lost.unshown page high


end Pocky
