import Pocky.Core.FailedSetUp
import Pocky.Core.Fork
import Pocky.Core.StackWindows

/-! What a fork makes of the memory: the pages are shared, and the copies are lost. -/

namespace Pocky

open PagedMemory

/-- Memory after a call that leaves every page as it was, and every used frame used. -/
structure KeepsPages (memory : PagedMemory) (table : Nat → Nat → Option Nat) (after : PagedMemory)
    (table' : Nat → Nat → Option Nat) : Prop where
  /-- Everything is in order. -/
  settled : ∃ broken, Settled after table' broken
  /-- The pages show what they did. -/
  shown : ∀ page, after.vmm.shown table' page = memory.vmm.shown table page
  /-- No frame becomes free. -/
  used : ∀ addr, memory.pmm.Used addr → after.pmm.Used addr
  /-- No used frame becomes a table. -/
  clear : ∀ addr, memory.pmm.Used addr → (∀ level number, table level number ≠ some addr) →
    ∀ level number, table' level number ≠ some addr

section Keeping

variable {memory middle after : PagedMemory} {table table' table'' : Nat → Nat → Option Nat}
  {broken : List Nat}

/-- Nothing done keeps the pages. -/
theorem KeepsPages.refl (settled : Settled memory table broken) :
    KeepsPages memory table memory table :=
  ⟨⟨broken, settled⟩, fun _ => rfl, fun _ used => used, fun _ _ clear => clear⟩

/-- Two such calls in a row are one. -/
theorem KeepsPages.trans (first : KeepsPages memory table middle table')
    (second : KeepsPages middle table' after table'') : KeepsPages memory table after table'' where
  settled := second.settled
  shown page := (second.shown page).trans (first.shown page)
  used addr used := second.used addr (first.used addr used)
  clear addr used clear := second.clear addr (first.used addr used) (first.clear addr used clear)

/-- A store is such a call. -/
theorem Stores.keepsPages (stores : Stores memory table broken after) :
    KeepsPages memory table after table :=
  ⟨⟨broken, stores.settled⟩, stores.shown, fun _ used => stores.pmm ▸ used, fun _ _ clear => clear⟩

/-- A lost frame stays lost. -/
theorem KeepsPages.lost (keeps : KeepsPages memory table after table') {frame : Nat}
    (lost : Lost memory table frame) : Lost after table' frame := by
  refine ⟨keeps.used frame lost.used, keeps.clear frame lost.used lost.clear, fun page high => ?_⟩
  rw [keeps.shown]
  exact lost.unshown page high

/-- An address leads where it did if its page shows what it did. -/
theorem Settled.translate_congr {broken' : List Nat} (settled : Settled memory table broken)
    (settled' : Settled after table' broken') {virtualAddr : BitVec 64}
    (same : 4096 ≤ pageNumber virtualAddr → after.vmm.shown table' (pageNumber virtualAddr) =
      memory.vmm.shown table (pageNumber virtualAddr)) :
    after.vmm.translate virtualAddr = memory.vmm.translate virtualAddr := by
  by_cases ordinary : 4096 ≤ pageNumber virtualAddr
  · rw [settled'.tables.translate_shown ordinary, settled.tables.translate_shown ordinary,
      same ordinary]
  · rw [settled'.tables.translate_large (Nat.not_le.mp ordinary),
      settled.tables.translate_large (Nat.not_le.mp ordinary)]

/-- A frame that has just been handed out is lost until a page is mapped to it. -/
theorem Settled.allocateFrame_lost (settled : Settled memory table broken)
    (given : memory.allocateFrame.1 ≠ 0) :
    KeepsPages memory table memory.allocateFrame.2 table ∧
      ¬ memory.pmm.Used memory.allocateFrame.1 ∧
      Lost memory.allocateFrame.2 table memory.allocateFrame.1 := by
  obtain ⟨settled', -, -, taken, before, clear, unshown⟩ := settled.allocateFrame given
  exact ⟨⟨⟨broken, settled'⟩, fun _ => rfl, before, fun _ _ clear => clear⟩,
    (settled.manages.allocateFrame.2.2 given).1, taken, clear, unshown⟩

/-- Mapping a page that is mapped already changes no page. -/
theorem Settled.mapPage_shown (settled : Settled memory table broken) {virtualAddr : BitVec 64}
    (ordinary : 4096 ≤ pageNumber virtualAddr)
    (shows : memory.vmm.shown table (pageNumber virtualAddr) ≠ none) {frame : Nat}
    (lost : Lost memory table frame) (writable : Bool) :
    ∃ table', KeepsPages memory table
      (memory.mapPage virtualAddr (BitVec.ofNat 64 frame) writable) table' := by
  obtain ⟨⟨-, -, small⟩, -⟩ := settled.manages.used_fit lost.used
  have whole : (BitVec.ofNat 64 frame).toNat = frame :=
    Nat.mod_eq_of_lt (Nat.lt_trans small (by decide))
  have ending := settled.mapPage ordinary (whole.symm ▸ lost.used) (whole.symm ▸ lost.clear)
    lost.unshown writable
  cases ending with
  | filled _ _ absent => exact absurd absent shows
  | kept settled' shown used clear => exact ⟨_, ⟨_, settled'⟩, shown, used, clear⟩

/-- The first addresses lead to themselves. -/
theorem toNat_large {virtualAddr : BitVec 64} (low : virtualAddr.toNat < 2 ^ 24) :
    (BitVec.ofNat 64 (pageNumber virtualAddr / 512 * 0x200000) |||
      (virtualAddr &&& 0x1FFFFF#64)).toNat = virtualAddr.toNat := by
  -- The large page has none of the bits of the offset.
  have page : (BitVec.ofNat 64 (pageNumber virtualAddr / 512 * 0x200000)).toNat =
      2 ^ 21 * (virtualAddr.toNat / 2 ^ 21) := by
    rw [BitVec.toNat_ofNat, pageNumber]
    omega
  rw [BitVec.toNat_or, BitVec.toNat_and, show (0x1FFFFF#64).toNat = 2 ^ 21 - 1 from rfl,
    Nat.and_two_pow_sub_one_eq_mod, page, ← Nat.two_pow_add_eq_or_of_lt (Nat.mod_lt _ (by decide)),
    Nat.div_add_mod]

/-- A byte stored in a lost frame, at its number as an address, leaves the pages as they are. -/
theorem Settled.storeByte_lost (settled : Settled memory table broken) {frame index : Nat}
    (lost : Lost memory table frame) (inside : index < 4096) {byte : UInt8}
    (stored : memory.storeByte (BitVec.ofNat 64 frame + BitVec.ofNat 64 index) byte = some after) :
    Stores memory table broken after := by
  obtain ⟨⟨-, aligned, -⟩, small⟩ := settled.manages.used_fit lost.used
  rw [show kernelMemoryStart + kernelMemorySize = 68157440 from rfl] at small
  have whole : (BitVec.ofNat 64 frame + BitVec.ofNat 64 index).toNat = frame + index := by
    rw [BitVec.toNat_add, BitVec.toNat_ofNat, BitVec.toNat_ofNat]
    omega
  by_cases ordinary : 4096 ≤ pageNumber (BitVec.ofNat 64 frame + BitVec.ofNat 64 index)
  · exact settled.storeByte ordinary stored
  · -- Under the large pages an address leads to itself, so the byte goes to the frame.
    have low : (frame + index) / 4096 < 4096 := by
      rw [pageNumber, whole] at ordinary
      omega
    have place : ∀ physicalAddr,
        memory.vmm.translate (BitVec.ofNat 64 frame + BitVec.ofNat 64 index) = some physicalAddr →
          physicalAddr.toNat = frame + index := by
      intro physicalAddr found
      rw [settled.tables.translate_large (Nat.not_le.mp ordinary)] at found
      rw [← Option.some.inj found, toNat_large (by omega), whole]
    rw [PagedMemory.storeByte] at stored
    split at stored
    · obtain ⟨physicalAddr, found, rfl⟩ := Option.map_eq_some_iff.mp stored
      have leads := place physicalAddr found
      obtain ⟨settled', shown⟩ := @writeWord _ _ _ settled _ (0 + 8 * (physicalAddr.toNat / 8))
        lost.used lost.clear (by omega) _
      exact ⟨settled', rfl, shown⟩
    · cases stored

/-- The entries on the way to the large pages let writes through. -/
def VirtualMemoryManager.lowWritable (vmm : VirtualMemoryManager) : Bool :=
  let pml4Entry := vmm.readEntry vmm.pml4 0
  pml4Entry.writable && (vmm.readEntry pml4Entry.frameBits.toNat 0).writable

/-- Then so do all entries on the way to an address under these pages. -/
theorem PageTables.writableAt_low {vmm : VirtualMemoryManager}
    (tables : PageTables vmm table broken) (through : vmm.lowWritable = true)
    {virtualAddr : BitVec 64}
    (large : pageNumber virtualAddr < 4096) : vmm.writableAt virtualAddr = true := by
  obtain ⟨first, second, third, -⟩ := index_page virtualAddr
  obtain ⟨pdpt, pd, -, here₂, ⟨-, shows₁, shown₁⟩, -, shows₂, shown₂⟩ := tables.low_entries
  have few : pageNumber virtualAddr / 512 < 8 := by omega
  have flags : ∀ index < 8, (VirtualMemoryManager.largeEntry index).writable = true ∧
      (VirtualMemoryManager.largeEntry index).hugePage = true := by
    decide
  rw [VirtualMemoryManager.lowWritable, Bool.and_eq_true, shown₁, shows₁] at through
  rw [VirtualMemoryManager.writableAt, first, second, third,
    show pageNumber virtualAddr / 512 ^ 3 = 0 by omega,
    show pageNumber virtualAddr / 512 ^ 2 % 512 = 0 by omega,
    show pageNumber virtualAddr / 512 % 512 = pageNumber virtualAddr / 512 by omega, shown₁, shows₁,
    shown₂, shows₂, tables.largeEntry_here here₂ few, through.1, through.2, (flags _ few).1,
    (flags _ few).2]
  rfl

/-- The processor accepts the first addresses. -/
theorem canonical_low {virtualAddr : BitVec 64} (low : virtualAddr.toNat < 2 ^ 24) :
    canonical virtualAddr = true := by
  have positive : (virtualAddr.setWidth 48).msb = false := by
    rw [BitVec.msb_eq_false_iff_two_mul_lt, BitVec.toNat_setWidth]
    omega
  rw [canonical, BitVec.signExtend_eq_setWidth_of_msb_false positive, beq_iff_eq,
    ← BitVec.toNat_inj, BitVec.toNat_setWidth, BitVec.toNat_setWidth]
  omega

/-- A byte can be stored in a lost frame under the large pages, and further ones after it. -/
theorem Settled.storeByte_low (settled : Settled memory table broken) {frame index : Nat}
    (lost : Lost memory table frame) (through : memory.vmm.lowWritable = true)
    (low : frame + 4096 ≤ 2 ^ 24) (inside : index < 4096) (byte : UInt8) :
    ∃ after, memory.storeByte (BitVec.ofNat 64 frame + BitVec.ofNat 64 index) byte = some after ∧
      after.vmm.lowWritable = true := by
  have whole : (BitVec.ofNat 64 frame + BitVec.ofNat 64 index).toNat = frame + index := by
    rw [BitVec.toNat_add, BitVec.toNat_ofNat, BitVec.toNat_ofNat]
    omega
  have large : pageNumber (BitVec.ofNat 64 frame + BitVec.ofNat 64 index) < 4096 := by
    rw [pageNumber, whole]
    omega
  rw [PagedMemory.storeByte, canonical_low (by omega), settled.tables.writableAt_low through large,
    settled.tables.translate_large large]
  refine ⟨_, rfl, ?_⟩
  -- The two entries are in tables, and the frame is none.
  obtain ⟨⟨-, aligned, -⟩, -⟩ := settled.manages.used_fit lost.used
  obtain ⟨pdpt, pd, here₁, -, ⟨-, shows₁, shown₁⟩, -⟩ := settled.tables.low_entries
  have kept : ∀ level number addr word, table level number = some addr →
      (memory.vmm.writeEntry 0 ((BitVec.ofNat 64
        (pageNumber (BitVec.ofNat 64 frame + BitVec.ofNat 64 index) / 512 * 0x200000) |||
          ((BitVec.ofNat 64 frame + BitVec.ofNat 64 index) &&& 0x1FFFFF#64)).toNat / 8)
          word).readEntry addr 0 = memory.vmm.readEntry addr 0 := by
    intro level number addr word here
    obtain ⟨⟨-, aligned', -⟩, -⟩ := settled.tables.placed here
    have apart : addr ≠ frame := fun equal => lost.clear level number (equal ▸ here)
    rw [toNat_large (by omega), whole]
    exact Function.update_of_ne (by omega) ..
  rw [VirtualMemoryManager.lowWritable] at through ⊢
  rw [shown₁, shows₁] at through
  rw [show ∀ entry, (memory.vmm.writeEntry 0 _ entry).pml4 = memory.vmm.pml4 from fun _ => rfl,
    kept 0 0 _ _ settled.tables.root, shown₁, shows₁, kept 1 0 _ _ here₁]
  exact through

/-- Bytes copied to a lost frame leave the pages as they are. -/
theorem Settled.copyBytes_lost (settled : Settled memory table broken) {frame : Nat}
    (lost : Lost memory table frame) {source : BitVec 64} {count : Nat} (inside : count ≤ 4096)
    (copied : memory.copyBytes (BitVec.ofNat 64 frame) source count = some after) :
    Stores memory table broken after := by
  -- By induction on the number of bytes.
  induction count generalizing after with
  | zero =>
    cases copied
    exact .refl settled
  | succ count ih =>
    obtain ⟨middle, before, last⟩ := Option.bind_eq_some_iff.mp copied
    obtain ⟨byte, -, stored⟩ := Option.bind_eq_some_iff.mp last
    have first := ih (Nat.le_of_succ_le inside) before
    exact first.trans (first.settled.storeByte_lost (first.keepsPages.lost lost) inside stored)

/-- Under the large pages bytes can be copied to a lost frame. -/
theorem Settled.copyBytes_low (settled : Settled memory table broken) {frame : Nat}
    (lost : Lost memory table frame) (through : memory.vmm.lowWritable = true)
    (low : frame + 4096 ≤ 2 ^ 24) {source : BitVec 64} (near : source.toNat + 4096 ≤ 2 ^ 24)
    {count : Nat} (inside : count ≤ 4096) :
    ∃ after, memory.copyBytes (BitVec.ofNat 64 frame) source count = some after ∧
      after.vmm.lowWritable = true := by
  -- By induction on the number of bytes.
  induction count with
  | zero => exact ⟨memory, rfl, through⟩
  | succ count ih =>
    obtain ⟨middle, before, through'⟩ := ih (Nat.le_of_succ_le inside)
    have first := settled.copyBytes_lost lost (Nat.le_of_succ_le inside) before
    have whole : (source + BitVec.ofNat 64 count).toNat = source.toNat + count := by
      rw [BitVec.toNat_add, BitVec.toNat_ofNat]
      omega
    have large : pageNumber (source + BitVec.ofNat 64 count) < 4096 := by
      rw [pageNumber, whole]
      omega
    -- The byte is there, and there is room for it.
    have loaded : ∃ byte, middle.loadByte (source + BitVec.ofNat 64 count) = some byte := by
      rw [PagedMemory.loadByte, if_pos (canonical_low (by omega)),
        first.settled.tables.translate_large large]
      exact ⟨_, rfl⟩
    obtain ⟨byte, loaded⟩ := loaded
    obtain ⟨after, stored, through''⟩ := first.settled.storeByte_low (first.keepsPages.lost lost)
      through' low inside byte
    exact ⟨after, Option.bind_eq_some_iff.mpr ⟨middle, before,
      Option.bind_eq_some_iff.mpr ⟨byte, loaded, stored⟩⟩, through''⟩

end Keeping

/-- Frames that have been copied to and then lost, in memory whose pages are as they were. -/
structure LosesCopies (memory : PagedMemory) (table : Nat → Nat → Option Nat) (copies : List Nat)
    (after : PagedMemory) (table' : Nat → Nat → Option Nat) : Prop where
  /-- The pages are as they were. -/
  keeps : KeepsPages memory table after table'
  /-- The frames are different ones. -/
  nodup : copies.Nodup
  /-- They were free. -/
  fresh : ∀ frame ∈ copies, ¬ memory.pmm.Used frame
  /-- Now they are lost. -/
  lost : ∀ frame ∈ copies, Lost after table' frame

section Copying

variable {memory middle after : PagedMemory} {table table' table'' : Nat → Nat → Option Nat}
  {broken : List Nat} {copies copies' : List Nat}

/-- Nothing done loses no frame. -/
theorem LosesCopies.refl (settled : Settled memory table broken) :
    LosesCopies memory table [] memory table :=
  ⟨.refl settled, List.nodup_nil, fun _ none => absurd none List.not_mem_nil,
    fun _ none => absurd none List.not_mem_nil⟩

/-- The frames lost by two such calls are different ones. -/
theorem LosesCopies.trans (first : LosesCopies memory table copies middle table')
    (second : LosesCopies middle table' copies' after table'') :
    LosesCopies memory table (copies ++ copies') after table'' := by
  refine ⟨first.keeps.trans second.keeps, ?_, fun frame member => ?_, fun frame member => ?_⟩
  · -- The first are used when the others are handed out.
    refine first.nodup.append second.nodup fun frame member member' => ?_
    exact second.fresh frame member' (first.lost frame member).used
  · rcases List.mem_append.mp member with member | member
    · exact first.fresh frame member
    · exact fun used => second.fresh frame member (first.keeps.used frame used)
  · rcases List.mem_append.mp member with member | member
    · exact second.keeps.lost (first.lost frame member)
    · exact second.lost frame member

/-- Copying a page that is mapped loses a frame, unless there is none. -/
theorem Settled.copyPage (settled : Settled memory table broken) {virtualAddr : BitVec 64}
    (ordinary : 4096 ≤ pageNumber virtualAddr)
    (shows : memory.vmm.shown table (pageNumber virtualAddr) ≠ none) {writable told : Bool}
    (copied : memory.copyPage virtualAddr writable = some (told, after)) :
    ∃ copies table', LosesCopies memory table copies after table' ∧
      copies.length = if told then 1 else 0 := by
  unfold PagedMemory.copyPage at copied
  dsimp only at copied
  split at copied
  · rename_i null
    cases copied
    obtain ⟨⟨settled', -, -, -, used, -, -, -, -⟩, -⟩ := settled.allocateFrame_null null
    exact ⟨[], table, ⟨⟨⟨broken, settled'⟩, fun _ => rfl, used, fun _ _ clear => clear⟩,
      List.nodup_nil, fun _ none => absurd none List.not_mem_nil,
      fun _ none => absurd none List.not_mem_nil⟩, rfl⟩
  · rename_i given
    obtain ⟨stored, copied, returned⟩ := Option.bind_eq_some_iff.mp copied
    cases returned
    -- The frame is lost when it is handed out, and nothing finds it again.
    obtain ⟨taken, fresh, lost⟩ := settled.allocateFrame_lost given
    obtain ⟨broken', settled'⟩ := taken.settled
    obtain ⟨table', mapped⟩ := settled'.mapPage_shown ordinary (by rw [taken.shown]; exact shows)
      lost writable
    obtain ⟨broken'', settled''⟩ := mapped.settled
    have stores := settled''.copyBytes_lost (mapped.lost lost) (Nat.le_refl _) copied
    exact ⟨[memory.allocateFrame.1], table', ⟨(taken.trans mapped).trans stores.keepsPages,
      List.nodup_singleton _, List.forall_mem_singleton.mpr fresh,
      List.forall_mem_singleton.mpr (stores.keepsPages.lost (mapped.lost lost))⟩, rfl⟩

/-- A page can be copied under the large pages, where the low memory lets writes through. -/
theorem Settled.copyPage_low (settled : Settled memory table broken) {virtualAddr : BitVec 64}
    (ordinary : 4096 ≤ pageNumber virtualAddr)
    (shows : memory.vmm.shown table (pageNumber virtualAddr) ≠ none) {writable : Bool}
    (given : memory.allocateFrame.1 ≠ 0) (low : memory.allocateFrame.1 + 4096 ≤ 2 ^ 24)
    (mapped : memory.allocateFrame.2.mapPage virtualAddr (BitVec.ofNat 64 memory.allocateFrame.1)
      writable = middle) (through : middle.vmm.lowWritable = true)
    (near : (middle.getPhysicalAddress virtualAddr).toNat + 4096 ≤ 2 ^ 24) :
    ∃ after, memory.copyPage virtualAddr writable = some (true, after) := by
  obtain ⟨taken, -, lost⟩ := settled.allocateFrame_lost given
  obtain ⟨broken', settled'⟩ := taken.settled
  obtain ⟨table', keeps⟩ := settled'.mapPage_shown ordinary (by rw [taken.shown]; exact shows) lost
    writable
  rw [mapped] at keeps
  obtain ⟨broken'', settled''⟩ := keeps.settled
  obtain ⟨after, copied, -⟩ := settled''.copyBytes_low (keeps.lost lost) through low near
    (Nat.le_refl _)
  refine ⟨after, ?_⟩
  unfold PagedMemory.copyPage
  dsimp only
  rw [if_neg given, mapped]
  exact Option.bind_eq_some_iff.mpr ⟨after, copied, rfl⟩

end Copying

/-- Copying pages in a row, up to a null answer. -/
def PagedMemory.copyAll (memory : PagedMemory) (writable : Bool) :
    List (BitVec 64) → Option (Bool × PagedMemory)
  | [] => some (true, memory)
  | addr :: addrs =>
    match memory.copyPage addr writable with
    | some (true, memory) => memory.copyAll writable addrs
    | ended => ended

/-- A loop that stops a page before the last address copies the pages from its start on. -/
theorem copyRange_eq (memory : PagedMemory) (writable : Bool) {stop addr : BitVec 64} {fuel : Nat}
    (bounded : stop.toNat ≤ 2 ^ 64 - 4096)
    (enough : (stop.toNat - addr.toNat + 4095) / 4096 < fuel) :
    memory.copyRange writable stop fuel addr = .ok (memory.copyAll writable
      ((List.range ((stop.toNat - addr.toNat + 4095) / 4096)).map (pageAt addr))) := by
  -- By induction on the rounds.
  induction fuel generalizing memory addr with
  | zero => exact absurd enough (Nat.not_lt_zero _)
  | succ fuel ih =>
    rw [copyRange]
    by_cases below : addr < stop
    · have less : addr.toNat < stop.toNat := below
      obtain ⟨next, count, shifted⟩ : (addr + 4096#64).toNat = addr.toNat + 4096 ∧
          (stop.toNat - addr.toNat + 4095) / 4096 =
            (stop.toNat - (addr + 4096#64).toNat + 4095) / 4096 + 1 ∧
          ∀ index, pageAt addr (index + 1) = pageAt (addr + 4096#64) index := by
        have next : (addr + 4096#64).toNat = addr.toNat + 4096 := by
          rw [BitVec.toNat_add, BitVec.toNat_ofNat]
          omega
        refine ⟨next, by omega, fun index => ?_⟩
        rw [pageAt, pageAt, BitVec.add_assoc, Nat.add_mul, Nat.one_mul, Nat.add_comm,
          BitVec.ofNat_add]
      have first : pageAt addr 0 = addr := by simp [pageAt]
      rw [if_pos below, count, List.range_succ_eq_map, List.map_cons, List.map_map, first, copyAll]
      rcases memory.copyPage addr writable with _ | ⟨told, middle⟩
      · rfl
      · cases told with
        | false => rfl
        | true =>
          dsimp only
          rw [ih _ (by omega)]
          exact congrArg (fun pages => Except.ok (middle.copyAll writable pages))
            (List.map_congr_left fun index _ => (shifted index).symm)
    · have least : stop.toNat ≤ addr.toNat := Nat.not_lt.mp below
      rw [if_neg below, show (stop.toNat - addr.toNat + 4095) / 4096 = 0 by omega]
      rfl

/-- A region that ends before the last page, and whose pages are mapped above the large ones. -/
structure MemoryRegion.Mapped (region : MemoryRegion) (vmm : VirtualMemoryManager) : Prop where
  /-- It does not reach the last page. -/
  bounded : (region.start + region.size).toNat ≤ 2 ^ 64 - 4096
  /-- Its pages lie above the large ones. -/
  ordinary : ∀ addr ∈ region.pages, 4096 ≤ pageNumber addr
  /-- They are mapped. -/
  mapped : ∀ addr ∈ region.pages, vmm.translate addr ≠ none

section Regions

variable {memory after : PagedMemory} {table table' : Nat → Nat → Option Nat} {broken : List Nat}

/-- Copying mapped pages loses a frame for each, up to a null answer. -/
theorem Settled.copyAll (settled : Settled memory table broken) {addrs : List (BitVec 64)}
    (ordinary : ∀ addr ∈ addrs, 4096 ≤ pageNumber addr)
    (shows : ∀ addr ∈ addrs, memory.vmm.shown table (pageNumber addr) ≠ none)
    {writable told : Bool} (copied : memory.copyAll writable addrs = some (told, after)) :
    ∃ copies table', LosesCopies memory table copies after table' ∧
      (told = true → copies.length = addrs.length) ∧
      (told = false → copies.length < addrs.length) := by
  -- By induction on the pages.
  induction addrs generalizing memory table broken with
  | nil =>
    cases copied
    exact ⟨[], table, .refl settled, fun _ => rfl, nofun⟩
  | cons addr addrs ih =>
    obtain ⟨here, others⟩ := List.forall_mem_cons.mp ordinary
    obtain ⟨shows, shows'⟩ := List.forall_mem_cons.mp shows
    rw [PagedMemory.copyAll] at copied
    split at copied
    · rename_i middle first
      obtain ⟨copies, table', loses, length⟩ := settled.copyPage here shows first
      obtain ⟨broken', settled'⟩ := loses.keeps.settled
      obtain ⟨copies', table'', loses', whole, part⟩ := ih settled' others
        (fun other member => by rw [loses.keeps.shown]; exact shows' other member) copied
      rw [if_pos rfl] at length
      refine ⟨copies ++ copies', table'', loses.trans loses', fun done => ?_, fun short => ?_⟩
      · have := whole done
        rw [List.length_append, List.length_cons]
        omega
      · have := part short
        rw [List.length_append, List.length_cons]
        omega
    · rename_i unlike
      cases told with
      | true => exact absurd copied (unlike after)
      | false =>
        obtain ⟨copies, table', loses, length⟩ := settled.copyPage here shows copied
        refine ⟨copies, table', loses, nofun, fun _ => ?_⟩
        rw [length, List.length_cons]
        exact Nat.succ_pos _

/-- A region mapped before the pages were kept is mapped afterwards. -/
theorem MemoryRegion.Mapped.keeps {region : MemoryRegion} (mapped : region.Mapped memory.vmm)
    (settled : Settled memory table broken) (keeps : KeepsPages memory table after table') :
    region.Mapped after.vmm :=
  ⟨mapped.bounded, mapped.ordinary, fun addr member => by
    obtain ⟨_, settled'⟩ := keeps.settled
    rw [settled.translate_congr settled' fun _ => keeps.shown _]
    exact mapped.mapped addr member⟩

/-- Regions complete up to a number of copies: the next one has not enough of them. -/
def CompleteUpTo (count : Nat) (regions done : List MemoryRegion) : Prop :=
  ∃ next rest, regions = done ++ next :: rest ∧
    (done.flatMap MemoryRegion.pages).length ≤ count ∧
    count < ((done ++ [next]).flatMap MemoryRegion.pages).length

/-- The copies of regions: the complete ones are recorded, the last of them first. -/
theorem Settled.copyRegions (settled : Settled memory table broken)
    {writable : List MemoryRegion → Bool} {earlier regions recorded : List MemoryRegion}
    {told : Bool} (mapped : ∀ region ∈ regions, region.Mapped memory.vmm)
    (copied : memory.copyRegions writable earlier regions = .ok (some (told, after, recorded))) :
    ∃ copies table' done, LosesCopies memory table copies after table' ∧
      recorded = done.reverse ++ earlier ∧
      (told = true → done = regions ∧
        copies.length = (regions.flatMap MemoryRegion.pages).length) ∧
      (told = false → CompleteUpTo copies.length regions done) := by
  -- By induction on the regions.
  induction regions generalizing memory table broken earlier with
  | nil =>
    cases copied
    exact ⟨[], table, [], .refl settled, rfl, fun _ => ⟨rfl, rfl⟩, nofun⟩
  | cons region regions ih =>
    obtain ⟨here, others⟩ := List.forall_mem_cons.mp mapped
    have few := (region.start + region.size).isLt
    rw [PagedMemory.copyRegions, copyRange_eq _ _ here.bounded (by omega), Run.ok_bind] at copied
    have shows : ∀ addr ∈ region.pages, memory.vmm.shown table (pageNumber addr) ≠ none :=
      fun addr member => mt (settled.tables.translate_eq_none_iff (here.ordinary addr member)).mpr
        (here.mapped addr member)
    split at copied
    · cases copied
    · rename_i middle ended
      cases copied
      obtain ⟨copies, table', loses, -, part⟩ := settled.copyAll here.ordinary shows ended
      refine ⟨copies, table', [], loses, rfl, nofun, fun _ => ?_⟩
      refine ⟨region, regions, rfl, Nat.zero_le _, ?_⟩
      rw [List.nil_append, List.flatMap_singleton]
      exact part rfl
    · rename_i middle ended
      obtain ⟨copies, table', loses, whole, -⟩ := settled.copyAll here.ordinary shows ended
      obtain ⟨broken', settled'⟩ := loses.keeps.settled
      obtain ⟨copies', table'', done, loses', list, all, some⟩ := ih settled'
        (fun other member => (others other member).keeps settled loses.keeps) copied
      have first : copies.length = region.pages.length := whole rfl
      refine ⟨copies ++ copies', table'', region :: done, loses.trans loses', ?_,
        fun told => ?_, fun told => ?_⟩
      · rw [list, List.reverse_cons, List.append_assoc, List.singleton_append]
      · obtain ⟨rfl, count⟩ := all told
        refine ⟨rfl, ?_⟩
        rw [List.length_append, first, count, List.flatMap_cons, List.length_append]
      · obtain ⟨next, rest, split, low, high⟩ := some told
        refine ⟨next, rest, by rw [split, List.cons_append], ?_, ?_⟩
        · rw [List.flatMap_cons, List.length_append, List.length_append, first]
          omega
        · rw [List.cons_append, List.flatMap_cons, List.length_append, List.length_append, first]
          omega

end Regions

/-- Pages released in two parts. -/
theorem releaseAll_append (memory : PagedMemory) (first rest : List (BitVec 64)) :
    memory.releaseAll (first ++ rest) = (memory.releaseAll first).releaseAll rest :=
  List.foldl_append

/-- Releasing pages from a base address on releases them in order. -/
theorem releasePages_eq (memory : PagedMemory) (base : BitVec 64) (count : Nat) :
    memory.releasePages base count = memory.releaseAll ((List.range count).map (pageAt base)) := by
  -- By induction on the number of pages.
  induction count with
  | zero => rfl
  | succ count ih =>
    rw [releasePages, ih, List.range_succ, List.map_append, releaseAll_append]
    rfl

/-- Pages that can be backed are backed without a null answer. -/
theorem Supplies.enough_frames {memory : PagedMemory} {table : Nat → Nat → Option Nat}
    {broken : List Nat} {addrs : List (BitVec 64)} (supplies : Supplies memory table broken addrs)
    (settled : Settled memory table broken) (ordinary : ∀ addr ∈ addrs, 4096 ≤ pageNumber addr)
    (writable : Bool) :
    (memory.backAll writable addrs).short = false ∧ ∃ table',
      Supplied memory table broken (memory.backAll writable addrs).handed
        (memory.backAll writable addrs).memory table' := by
  obtain ⟨pages, -, part⟩ := memory.backAll_handed writable addrs
  obtain ⟨table', supplied⟩ := backAll_supplied settled ordinary supplies writable
  refine ⟨?_, table', supplied⟩
  cases ended : (memory.backAll writable addrs).short with
  | false => rfl
  | true =>
    -- With a null answer no frame would be left, but there was one for every page.
    have ends := backAll_ends settled ordinary writable
    rw [ended] at ends
    cases ends with
    | supplied supplied empty =>
      have cost := supplied.cost (addrs.drop (memory.backAll writable addrs).handed.length)
      rw [pages, List.take_append_drop, empty rfl] at cost
      have enough := supplies.enough
      have fewer := part ended
      omega
    | wasted wasted _ _ =>
      obtain ⟨good, bad, rest, handed, cannot, -⟩ := wasted
      refine absurd (supplied.supplies.first ⟨rest, ?_⟩) cannot
      rw [handed, List.append_assoc, List.singleton_append]

namespace Kernel

/-- The stack pages of a process number that has a window lie above the large ones. -/
theorem nextStackPages_ordinary {kernel : Kernel} (positive : 1 ≤ kernel.nextPid)
    (small : kernel.nextPid ≤ lastPid) :
    ∀ addr ∈ kernel.nextStackPages, 4096 ≤ pageNumber addr := by
  intro addr member
  obtain ⟨index, inside, rfl⟩ := List.mem_map.mp member
  have four : index < 4 := List.mem_range.mp inside
  simp only [lastPid] at small
  rw [pageNumber, toNat_stackPage positive (by omega) four]
  omega

/-- A kernel with a new process: its number, its place, its stack, and the pages as they were. -/
structure HasChild (kernel : Kernel) (table : Nat → Nat → Option Nat) (address : Nat)
    (made : Kernel) (table' : Nat → Nat → Option Nat) : Prop where
  /-- Everything is in order. -/
  settled : ∃ broken, Settled made.memory table' broken
  /-- The new process comes first. -/
  list : made.processList = address :: kernel.processList
  /-- It has the next number, the stack for it and no regions. -/
  records : made.records = Function.update kernel.records address
    { newRecord kernel.nextPid with
      kernelStack := kernelStackBase kernel.nextPid + BitVec.ofNat 64 kernelStackSize }
  /-- The running process is the same. -/
  current : made.currentProcess = kernel.currentProcess
  /-- No frame has become free. -/
  used : ∀ addr, kernel.memory.pmm.Used addr → made.memory.pmm.Used addr
  /-- Pages that were mapped are mapped as before. -/
  shown : ∀ page frame, kernel.memory.vmm.shown table page = some frame →
    made.memory.vmm.shown table' page = some frame
  /-- The pages of the stack were not. -/
  stack : ∀ addr ∈ kernel.nextStackPages, kernel.memory.vmm.shown table (pageNumber addr) = none

/-- Creating a process whose stack can be backed. -/
theorem createProcess_hasChild {kernel made : Kernel} {table : Nat → Nat → Option Nat}
    {broken : List Nat} (settled : Settled kernel.memory table broken)
    (running : kernel.currentProcess ≠ 0) (positive : 1 ≤ kernel.nextPid)
    (small : kernel.nextPid ≤ lastPid)
    (stack : Supplies kernel.memory table broken kernel.nextStackPages) {address : Nat} {pid : Int}
    (created : kernel.createProcess address = .ok (pid, made)) :
    pid = kernel.nextPid ∧ ∃ table', HasChild kernel table address made table' := by
  have ordinary := nextStackPages_ordinary positive small
  obtain ⟨enough, table', supplied⟩ := stack.enough_frames settled ordinary true
  obtain ⟨same, reached⟩ := backPages_eq_backAll kernel.memory (kernelStackBase kernel.nextPid)
    kernelStackPages
  have backed := reached.mpr enough
  have memory := (createProcess_memory created).trans same
  obtain ⟨list, -, records⟩ := createProcess_listed created backed
  obtain ⟨pages, -, -⟩ := kernel.memory.backAll_handed true kernel.nextStackPages
  have outcome : pid = kernel.nextPid ∧ made.currentProcess = kernel.currentProcess := by
    rcases createProcess_cases created with ⟨-, after⟩ | ⟨listed, number, after, frame⟩
    · rw [after] at list
      exact absurd (congrArg List.length list) (by simp)
    · refine ⟨number, ?_⟩
      obtain ⟨-, -, -, -, -, current⟩ := listed.addProcess_frame address
      rw [after, current, frame]
      exact if_neg running
  refine ⟨outcome.1, table', ⟨broken, memory ▸ supplied.settled⟩, list, records, outcome.2,
    memory ▸ supplied.used, fun page frame shows => ?_, stack.unmapped⟩
  rw [memory]
  refine (supplied.others page fun member => ?_).trans shows
  -- A page of the stack was not mapped.
  obtain ⟨pair, here, rfl⟩ := List.mem_map.mp member
  have asked : pair.1 ∈ kernel.nextStackPages := by
    have := List.mem_map_of_mem (f := Prod.fst) here
    rw [pages] at this
    exact List.mem_of_mem_take this
  rw [stack.unmapped pair.1 asked] at shows
  cases shows

/-- Cleaning up after a process releases the pages of its regions, then those of its stack. -/
theorem cleanupProcessMemory_releaseAll {kernel after : Kernel} {process : Nat}
    (cleaned : kernel.cleanupProcessMemory process = .ok after) :
    after.memory = kernel.memory.releaseAll
      ((kernel.records process).memoryRegions.flatMap MemoryRegion.pages ++
        if (kernel.records process).kernelStack = 0#64 then []
        else (List.range kernelStackPages).map
          (pageAt ((kernel.records process).kernelStack - BitVec.ofNat 64 kernelStackSize))) := by
  obtain ⟨released, first, returned⟩ := Run.bind_eq_ok.mp cleaned
  rw [← Except.ok.inj returned, releaseAll_append, ← releaseRegions_eq first]
  dsimp only
  split
  · rfl
  · exact releasePages_eq _ _ _

/-- Terminating the child releases the pages of its regions, and some of its stack. -/
theorem HasChild.terminate {kernel made after : Kernel} {table table' : Nat → Nat → Option Nat}
    {address : Nat} (child : HasChild kernel table address made table')
    (other : address ≠ kernel.currentProcess) {memory : PagedMemory} {regions : List MemoryRegion}
    {cpuId ticks : Nat}
    (terminated : (made.setRegions address memory regions).terminateProcess kernel.nextPid cpuId
      ticks = .ok after) :
    ∃ addrs, after.memory = memory.releaseAll (regions.flatMap MemoryRegion.pages ++ addrs) ∧
      ∀ addr ∈ addrs, addr ∈ kernel.nextStackPages := by
  have record : (made.setRegions address memory regions).records address =
      { newRecord kernel.nextPid with
        kernelStack := kernelStackBase kernel.nextPid + BitVec.ofNat 64 kernelStackSize
        memoryRegions := regions } := by
    rw [setRegions]
    dsimp only
    rw [Function.update_self, child.records, Function.update_self]
  -- The child is the first process of the list, and the only one that is looked at.
  have found :
      (made.setRegions address memory regions).getProcess kernel.nextPid = some address := by
    rw [getProcess, show (made.setRegions address memory regions).processList =
      address :: kernel.processList from child.list, List.find?_cons_of_pos]
    rw [record]
    exact beq_self_eq_true kernel.nextPid
  rcases terminateProcess_cases terminated with
    ⟨missing, -⟩ | ⟨process, cleaned, met, done, -, ends⟩
  · rw [found] at missing
    cases missing
  · obtain rfl : address = process := Option.some.inj (found.symm.trans met)
    rcases ends with ⟨-, rfl⟩ | ⟨same, -⟩
    · have released := cleanupProcessMemory_releaseAll done
      rw [removeProcess_frame] at released
      dsimp only at released
      rw [record] at released
      refine ⟨_, released, fun addr member => ?_⟩
      dsimp only at member
      split at member
      · cases member
      · rwa [BitVec.add_sub_cancel] at member
    · exact absurd ((child.current.symm.trans same).symm) other

/-- The regions of the running process. -/
def runningRegions (kernel : Kernel) : List MemoryRegion :=
  (kernel.records kernel.currentProcess).memoryRegions

end Kernel

namespace Fork

/-- Frames that a fork has taken from the allocator, and that no page leads to. -/
structure Loses (fork : Fork) (kernel : Kernel) (copies : List Nat) : Prop where
  /-- They are different ones. -/
  nodup : copies.Nodup
  /-- They were free. -/
  fresh : ∀ frame ∈ copies, ¬ kernel.memory.pmm.Used frame
  /-- Now they are lost. -/
  lost : ∀ frame ∈ copies, Leaks fork.kernel.memory frame

/-- A fork that has made a child, which has the pages of its parent. -/
structure Shares (fork : Fork) (kernel : Kernel) (address : Nat) (image : ProgramImage)
    (copies : List Nat) : Prop where
  /-- The answer is the number of the child. -/
  answer : fork.answer = kernel.nextPid
  /-- Parent and child differ in the register of the answer only. -/
  images : fork.parent = image.answering (BitVec.ofInt 64 kernel.nextPid) ∧
    fork.child = some (image.answering 0#64)
  /-- Every address that led somewhere leads there. -/
  pages : ∀ virtualAddr, kernel.memory.vmm.translate virtualAddr ≠ none →
    fork.kernel.memory.vmm.translate virtualAddr = kernel.memory.vmm.translate virtualAddr
  /-- The regions of the child are those of its parent. -/
  regions : (fork.kernel.records address).memoryRegions = kernel.runningRegions.reverse
  /-- There is a copy of each page. -/
  count : copies.length = (kernel.runningRegions.flatMap MemoryRegion.pages).length
  /-- The end of the child unmaps the pages of its parent; the copies are never returned. -/
  ends : ∀ cpuId ticks after, fork.kernel.terminateProcess fork.answer cpuId ticks = .ok after →
    (∀ region ∈ kernel.runningRegions, ∀ addr ∈ region.pages,
      after.memory.vmm.translate addr = none) ∧ ∀ frame ∈ copies, Leaks after.memory frame

/-- A fork for which the frames do not suffice: it has unmapped the regions it had completed. -/
structure Unmaps (fork : Fork) (kernel : Kernel) (copies : List Nat) : Prop where
  /-- The call says that it has failed. -/
  answer : fork.answer = -1
  /-- Exactly the pages of the regions that were complete are unmapped. -/
  pages : ∃ done, CompleteUpTo copies.length kernel.runningRegions done ∧
    (∀ region ∈ done, ∀ addr ∈ region.pages, fork.kernel.memory.vmm.translate addr = none) ∧
    ∀ virtualAddr, kernel.memory.vmm.translate virtualAddr ≠ none →
      (∀ region ∈ done, ∀ addr ∈ region.pages, pageNumber addr ≠ pageNumber virtualAddr) →
      fork.kernel.memory.vmm.translate virtualAddr = kernel.memory.vmm.translate virtualAddr

end Fork

section Forking

open Kernel

variable {kernel made after : Kernel} {table table' table'' : Nat → Nat → Option Nat}
  {broken : List Nat} {address : Nat}

/-- An address that led somewhere leads there when there is a child. -/
theorem Kernel.HasChild.translate (child : HasChild kernel table address made table')
    (settled : Settled kernel.memory table broken) {virtualAddr : BitVec 64}
    (mapped : kernel.memory.vmm.translate virtualAddr ≠ none) :
    made.memory.vmm.translate virtualAddr = kernel.memory.vmm.translate virtualAddr := by
  obtain ⟨_, settled'⟩ := child.settled
  refine settled.translate_congr settled' fun ordinary => ?_
  obtain ⟨frame, shows⟩ := Option.ne_none_iff_exists'.mp
    (mt (settled.tables.translate_eq_none_iff ordinary).mpr mapped)
  rw [shows, child.shown _ _ shows]

/-- The regions of the running process are mapped when there is a child. -/
theorem Kernel.HasChild.mapped (child : HasChild kernel table address made table')
    (settled : Settled kernel.memory table broken)
    (mapped : ∀ region ∈ kernel.runningRegions, region.Mapped kernel.memory.vmm) :
    ∀ region ∈ kernel.runningRegions, region.Mapped made.memory.vmm := by
  intro region member
  obtain ⟨bounded, ordinary, shows⟩ := mapped region member
  refine ⟨bounded, ordinary, fun addr here => ?_⟩
  rw [child.translate settled (shows addr here)]
  exact shows addr here

/-- Terminating a child with regions of its parent unmaps exactly the pages of these regions. -/
theorem Kernel.HasChild.terminate_pages (child : HasChild kernel table address made table')
    (settled : Settled kernel.memory table broken) (other : address ≠ kernel.currentProcess)
    (positive : 1 ≤ kernel.nextPid) (small : kernel.nextPid ≤ lastPid) {memory : PagedMemory}
    {copies : List Nat} (loses : LosesCopies made.memory table' copies memory table'')
    {regions : List MemoryRegion}
    (ordinary : ∀ region ∈ regions, ∀ addr ∈ region.pages, 4096 ≤ pageNumber addr)
    {cpuId ticks : Nat}
    (terminated : (made.setRegions address memory regions).terminateProcess kernel.nextPid cpuId
      ticks = .ok after) :
    (∀ region ∈ regions, ∀ addr ∈ region.pages, after.memory.vmm.translate addr = none) ∧
    (∀ frame ∈ copies, Leaks after.memory frame) ∧
    ∀ virtualAddr, kernel.memory.vmm.translate virtualAddr ≠ none →
      (∀ region ∈ regions, ∀ addr ∈ region.pages, pageNumber addr ≠ pageNumber virtualAddr) →
      after.memory.vmm.translate virtualAddr = kernel.memory.vmm.translate virtualAddr := by
  obtain ⟨addrs, released, stack⟩ := child.terminate other terminated
  obtain ⟨broken', settled'⟩ := loses.keeps.settled
  have high : ∀ addr ∈ regions.flatMap MemoryRegion.pages ++ addrs, 4096 ≤ pageNumber addr := by
    intro addr member
    rcases List.mem_append.mp member with member | member
    · obtain ⟨region, inside, here⟩ := List.mem_flatMap.mp member
      exact ordinary region inside addr here
    · exact nextStackPages_ordinary positive small addr (stack addr member)
  obtain ⟨settled'', shown, -⟩ := settled'.releaseAll high
  rw [released]
  refine ⟨fun region member addr here => ?_, fun frame member => ?_,
    fun virtualAddr mapped outside => ?_⟩
  · rw [settled''.tables.translate_eq_none_iff (ordinary region member addr here), shown, if_pos]
    exact List.mem_map_of_mem (List.mem_append_left _ (List.mem_flatMap.mpr ⟨region, member, here⟩))
  · exact Leaks.releaseAll ⟨table'', broken', settled', loses.lost frame member⟩ high
  · rw [← child.translate settled mapped]
    obtain ⟨_, begun⟩ := child.settled
    refine begun.translate_congr settled'' fun high => ?_
    rw [shown, if_neg, loses.keeps.shown]
    -- Neither a page of the regions nor one of the stack, which was not mapped.
    intro wrong
    obtain ⟨addr, member, same⟩ := List.mem_map.mp wrong
    rcases List.mem_append.mp member with member | member
    · obtain ⟨region, inside, here⟩ := List.mem_flatMap.mp member
      exact outside region inside addr here same
    · refine mapped ((settled.tables.translate_eq_none_iff high).mpr ?_)
      rw [← same]
      exact child.stack addr (stack addr member)

/-- A process is created if its stack can be backed. -/
theorem createProcess_returns (settled : Settled kernel.memory table broken)
    (positive : 1 ≤ kernel.nextPid) (small : kernel.nextPid ≤ lastPid)
    (stack : Supplies kernel.memory table broken kernel.nextStackPages) (address : Nat) :
    ∃ made, kernel.createProcess address = .ok (kernel.nextPid, made) ∧
      made.memory = (kernel.memory.backAll true kernel.nextStackPages).memory := by
  obtain ⟨enough, -⟩ := stack.enough_frames settled (nextStackPages_ordinary positive small) true
  obtain ⟨same, reached⟩ := backPages_eq_backAll kernel.memory (kernelStackBase kernel.nextPid)
    kernelStackPages
  have backed := reached.mpr enough
  have returned : ∃ made, kernel.createProcess address = .ok (kernel.nextPid, made) := by
    unfold createProcess
    dsimp only
    cases taken : kernel.memory.backPages (kernelStackBase kernel.nextPid) kernelStackPages with
    | mk failed memory =>
      rw [taken] at backed
      obtain rfl : failed = none := backed
      exact ⟨_, rfl⟩
  obtain ⟨made, created⟩ := returned
  exact ⟨made, created, (createProcess_memory created).trans same⟩

/-- A fork goes on with the child by copying the regions of the running process. -/
theorem Kernel.HasChild.sysFork_eq (child : HasChild kernel table address made table')
    (running : kernel.currentProcess ≠ 0) (other : address ≠ kernel.currentProcess)
    (created : kernel.createProcess address = .ok (kernel.nextPid, made))
    (writable : List MemoryRegion → Bool) (image : ProgramImage) (cpuId ticks : Nat) :
    kernel.sysFork writable image address cpuId ticks =
      (do match ← made.memory.copyRegions writable [] kernel.runningRegions with
        | none => return none
        | some (false, memory, copied) =>
          let kernel ← (made.setRegions address memory copied).terminateProcess kernel.nextPid cpuId
            ticks
          return some (kernel.forkFails image)
        | some (true, memory, copied) =>
          return some ⟨kernel.nextPid, made.setRegions address memory copied,
            image.answering (BitVec.ofInt 64 kernel.nextPid), some (image.answering 0#64)⟩) := by
  have record := congrFun child.records address
  rw [Function.update_self] at record
  have found : made.getProcess kernel.nextPid = some address := by
    rw [getProcess, child.list, List.find?_cons_of_pos]
    rw [record]
    exact beq_self_eq_true kernel.nextPid
  have regions : (made.records kernel.currentProcess).memoryRegions = kernel.runningRegions := by
    rw [child.records, Function.update_of_ne (Ne.symm other)]
    rfl
  unfold sysFork
  dsimp only
  rw [if_neg running, created, Run.ok_bind]
  dsimp only
  rw [found]
  dsimp only
  rw [regions, record]
  rfl

end Forking

/-- Memory with the tables built at boot and twelve frames left. -/
def spareMemory : PagedMemory :=
  { fullMemory with
    pmm := ⟨fun word => if word = 0 then 0xFFFFF000#32 else 0xFFFFFFFF#32, 16384, 12,
      kernelMemoryStart⟩ }

/-- These are its first frames. -/
theorem spareMemory_bitSet (frame : Nat) :
    PhysicalMemoryManager.bitSet spareMemory.pmm.bitmap frame = decide (12 ≤ frame) := by
  by_cases first : frame < 32
  · revert frame
    decide
  · have inside : frame % 32 < 32 := Nat.mod_lt _ (by decide)
    rw [decide_eq_true (show 12 ≤ frame by omega), PhysicalMemoryManager.bitSet, spareMemory]
    dsimp only
    rw [if_neg (show ¬ frame / 32 = 0 by omega)]
    generalize frame % 32 = bit at inside
    revert bit
    decide

/-- That memory is in order, and no page is mapped in it. -/
theorem spareMemory_settled :
    ∃ table, Settled spareMemory table [] ∧ ∀ page, spareMemory.vmm.shown table page = none := by
  obtain ⟨table, tables, -, own⟩ := PageTables.boot rfl fourFrames_fit.1 fourFrames_fit.2
  have manages : spareMemory.pmm.Manages := by
    refine ⟨⟨?_, by decide, by decide⟩, rfl, rfl⟩
    have free : spareMemory.pmm.freeSet = Finset.range 12 := by
      ext frame
      rw [PhysicalMemoryManager.mem_freeSet, spareMemory_bitSet, decide_eq_false_iff_not,
        Finset.mem_range, show spareMemory.pmm.totalFrames = 16384 from rfl]
      omega
    rw [free, Finset.card_range]
    rfl
  have upper : ∀ level number addr, table level number = some addr → level < 3 :=
    fun level number addr here => (own level number addr here).2
  refine ⟨table, Settled.ofBoot manages (tables.resupply List.nodup_nil
    (fun _ member => absurd member List.not_mem_nil) fun _ _ _ _ => List.not_mem_nil) rfl ?_,
    VirtualMemoryManager.shown_eq_none upper⟩
  intro level number addr here
  obtain ⟨member, below⟩ := own level number addr here
  refine ⟨⟨(addr - kernelMemoryStart) / pageSize, ?_, ?_, ?_⟩, below⟩
  · show _ < 16384
    clear here
    revert addr
    decide
  · show addr = kernelMemoryStart + _
    clear here
    revert addr
    decide
  · rw [spareMemory_bitSet]
    clear here
    revert addr
    decide

namespace Kernel

/-- A kernel whose running process has a region of one page. -/
def onePageKernel : Kernel :=
  { fullKernel with
    memory := (spareMemory.backAll true [0x40000000#64]).memory
    records := fun _ => { newRecord 1 with memoryRegions := [⟨0x40000000#64, 4096#64⟩] }
    processList := [4096]
    currentProcess := 4096
    nextPid := 2 }

/-- The image of a process without arguments. -/
def blankImage : ProgramImage := ⟨0#64, 0#64, 0#64, fun _ => 0#64, none, none⟩

/-- The page is mapped there, and the stack of another process can be backed. -/
theorem onePageKernel_ready : ∃ table, Settled onePageKernel.memory table [] ∧
    Supplies onePageKernel.memory table [] onePageKernel.nextStackPages ∧
    onePageKernel.memory.vmm.shown table 0x40000 ≠ none := by
  obtain ⟨table, settled, blank⟩ := spareMemory_settled
  have stack : ∀ addr ∈ onePageKernel.nextStackPages, 4096 ≤ pageNumber addr :=
    nextStackPages_ordinary (by decide) (by decide)
  have ordinary : ∀ addr ∈ [0x40000000#64], 4096 ≤ pageNumber addr := by
    intro addr member
    rw [List.mem_singleton.mp member]
    decide
  have all : Supplies spareMemory table [] ([0x40000000#64] ++ onePageKernel.nextStackPages) := by
    refine ⟨fun _ _ => blank _, ?_, by decide, ?_⟩
    · rintro _ - ⟨_, _, _, -, member⟩
      exact List.not_mem_nil member
    · have nodes : (([0x40000000#64] ++ onePageKernel.nextStackPages).toFinset.biUnion fun addr =>
          wayTo (pageNumber addr)).card ≤ 6 := by decide
      have fewer := Finset.card_filter_le (([0x40000000#64] ++
        onePageKernel.nextStackPages).toFinset.biUnion fun addr => wayTo (pageNumber addr))
        fun node => table node.1 node.2 = none
      rw [missingNodes, show spareMemory.pmm.freeFrames = 12 from rfl,
        show ([0x40000000#64] ++ onePageKernel.nextStackPages).length = 5 from rfl]
      omega
  obtain ⟨enough, table', supplied⟩ := (all.first (List.prefix_append _ _)).enough_frames settled
    ordinary true
  obtain ⟨pages, whole, -⟩ := spareMemory.backAll_handed true [0x40000000#64]
  rw [whole enough] at pages
  refine ⟨table', supplied.settled, (supplied.supplies_iff settled stack).mp ?_, ?_⟩
  · rw [pages]
    exact all
  · obtain ⟨pair, member, same⟩ := List.mem_map.mp (show 0x40000000#64 ∈
      (spareMemory.backAll true [0x40000000#64]).handed.map Prod.fst by
        rw [pages]
        exact List.mem_singleton_self _)
    have shows := (supplied.shows pair member).1
    rw [same] at shows
    exact fun missing => Option.some_ne_none _ (shows.symm.trans missing)

end Kernel

section Forking

open Kernel

variable {kernel : Kernel} {table : Nat → Nat → Option Nat} {broken : List Nat} {address : Nat}

end Forking

end Pocky
