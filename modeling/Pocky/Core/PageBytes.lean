import Pocky.Core.LoadingLaws

/-! Bytes on pages above the large ones: what storing and backing further pages make of them. -/

namespace Pocky

open PagedMemory

/-- A byte of a word, the lowest at zero. -/
def getByte (word : BitVec 64) (index : Nat) : UInt8 :=
  UInt8.ofBitVec ((word >>> (8 * index)).setWidth 8)

/-- The byte at a physical address. -/
def VirtualMemoryManager.byteAt (vmm : VirtualMemoryManager) (place : Nat) : UInt8 :=
  getByte (vmm.readEntry 0 (place / 8)) (place % 8)

/-- The byte at an address; there is none where the processor finds no page. -/
def PagedMemory.loadByte (memory : PagedMemory) (virtualAddr : BitVec 64) : Option UInt8 :=
  if canonical virtualAddr then
    (memory.vmm.translate virtualAddr).map fun physicalAddr => memory.vmm.byteAt physicalAddr.toNat
  else none

/-- The bytes above the large pages are where they were. -/
def KeepsBytes (memory after : PagedMemory) : Prop :=
  ∀ virtualAddr, 4096 ≤ pageNumber virtualAddr → ∀ byte, memory.loadByte virtualAddr = some byte →
    after.loadByte virtualAddr = some byte

/-- The bits of a word with one of its bytes replaced. -/
theorem getLsbD_setByte (word : BitVec 64) (byte : UInt8) {index bit : Nat} (inside : index < 8)
    (within : bit < 64) :
    (setByte word index byte).getLsbD bit =
      if bit / 8 = index then byte.toNat.testBit (bit % 8) else word.getLsbD bit := by
  have ones : (0xFF#64).getLsbD (bit - 8 * index) = decide (bit - 8 * index < 8) := by
    rw [BitVec.getLsbD_ofNat, show 0xFF = 2 ^ 8 - 1 from rfl, Nat.testBit_two_pow_sub_one]
    rw [decide_eq_true (show bit - 8 * index < 64 by omega), Bool.true_and]
  have value : (BitVec.ofNat 64 byte.toNat).getLsbD (bit - 8 * index) =
      byte.toNat.testBit (bit - 8 * index) := by
    rw [BitVec.getLsbD_ofNat, decide_eq_true (show bit - 8 * index < 64 by omega), Bool.true_and]
  simp only [setByte, BitVec.getLsbD_or, BitVec.getLsbD_and, BitVec.getLsbD_not,
    BitVec.getLsbD_shiftLeft, ones, value, decide_eq_true within, Bool.true_and]
  -- The bit lies below the byte, in it or above it.
  rcases Nat.lt_trichotomy (bit / 8) index with below | same | above
  · rw [if_neg below.ne, decide_eq_true (show bit < 8 * index by omega)]
    simp
  · rw [if_pos same, decide_eq_false (show ¬ bit < 8 * index by omega),
      decide_eq_true (show bit - 8 * index < 8 by omega), show bit - 8 * index = bit % 8 by omega]
    simp
  · have none : byte.toNat.testBit (bit - 8 * index) = false :=
      Nat.testBit_lt_two_pow (Nat.lt_of_lt_of_le byte.toNat_lt
        (Nat.pow_le_pow_right (by decide) (show 8 ≤ bit - 8 * index by omega)))
    rw [if_neg above.ne', decide_eq_false (show ¬ bit < 8 * index by omega),
      decide_eq_false (show ¬ bit - 8 * index < 8 by omega), none]
    simp

/-- A byte replaced in a word is the only one that changes. -/
theorem getByte_setByte (word : BitVec 64) (byte : UInt8) {index other : Nat} (inside : index < 8)
    (inside' : other < 8) :
    getByte (setByte word index byte) other = if other = index then byte else getByte word other := by
  rw [← UInt8.toBitVec_inj]
  ext bit within
  have place : (8 * other + bit) / 8 = other := by omega
  have left : (getByte (setByte word index byte) other).toBitVec[bit] =
      (setByte word index byte).getLsbD (8 * other + bit) := by
    simp [getByte]
  rw [left, getLsbD_setByte word byte inside (by omega), place]
  split
  · rw [show (8 * other + bit) % 8 = bit by omega]
    rfl
  · simp [getByte]

/-- A byte written into its word is found at its place, and the others are as they were. -/
theorem VirtualMemoryManager.byteAt_writeEntry (vmm : VirtualMemoryManager) (place : Nat)
    (byte : UInt8) (other : Nat) :
    (vmm.writeEntry 0 (place / 8) (setByte (vmm.readEntry 0 (place / 8)) (place % 8) byte)).byteAt
      other = if other = place then byte else vmm.byteAt other := by
  rw [byteAt, readEntry, memory_writeEntry]
  by_cases word : other / 8 = place / 8
  · -- Both lie in the same word.
    rw [if_pos (by rw [word]), getByte_setByte _ _ (Nat.mod_lt _ (by decide)) (Nat.mod_lt _ (by decide))]
    by_cases same : other = place
    · rw [if_pos (by rw [same]), if_pos same]
    · rw [if_neg (by omega), if_neg same, byteAt, word]
  · rw [if_neg (by omega), if_neg (by rintro rfl; exact word rfl), byteAt, readEntry]

/-- Two addresses the processor accepts are the same if their pages and their offsets are. -/
theorem canonical_eq {virtualAddr other : BitVec 64} (accepted : canonical virtualAddr = true)
    (accepted' : canonical other = true) (page : pageNumber other = pageNumber virtualAddr)
    (offset : other.toNat % 4096 = virtualAddr.toNat % 4096) : other = virtualAddr := by
  have low : other.setWidth 48 = virtualAddr.setWidth 48 := by
    refine BitVec.eq_of_toNat_eq ?_
    rw [pageNumber, pageNumber] at page
    rw [BitVec.toNat_setWidth, BitVec.toNat_setWidth]
    omega
  rw [canonical, beq_iff_eq] at accepted accepted'
  rw [← accepted', low, accepted]

namespace Settled

variable {memory after : PagedMemory} {table : Nat → Nat → Option Nat} {broken : List Nat}

/-- The byte at an address lies in the frame shown for its page. -/
theorem loadByte_shown (settled : Settled memory table broken) {virtualAddr : BitVec 64}
    (ordinary : 4096 ≤ pageNumber virtualAddr) :
    memory.loadByte virtualAddr =
      if canonical virtualAddr then
        (memory.vmm.shown table (pageNumber virtualAddr)).map fun frame =>
          memory.vmm.byteAt (frame.toNat + virtualAddr.toNat % 4096)
      else none := by
  rw [loadByte, settled.tables.translate_shown ordinary]
  cases shows : memory.vmm.shown table (pageNumber virtualAddr) with
  | none => rfl
  | some frame =>
    -- The frame is aligned, so the offset is added to it.
    obtain ⟨used, -⟩ := settled.mapped _ frame ordinary shows
    obtain ⟨⟨-, aligned, -⟩, -⟩ := settled.manages.used_fit used
    rw [Option.map_some, Option.map_some, Option.map_some, toNat_withOffset aligned]

/-- A byte stored is found at its address, and the bytes at other addresses are as they were. -/
theorem storeByte_loads (settled : Settled memory table broken) {virtualAddr : BitVec 64}
    {byte : UInt8} (ordinary : 4096 ≤ pageNumber virtualAddr)
    (stored : memory.storeByte virtualAddr byte = some after) :
    after.loadByte virtualAddr = some byte ∧
      ∀ other, 4096 ≤ pageNumber other → other ≠ virtualAddr →
        after.loadByte other = memory.loadByte other := by
  obtain ⟨settled', -, shown⟩ := settled.storeByte ordinary stored
  rw [PagedMemory.storeByte] at stored
  split at stored
  · rename_i accepted
    rw [Bool.and_eq_true] at accepted
    obtain ⟨physicalAddr, found, rfl⟩ := Option.map_eq_some_iff.mp stored
    rw [settled.tables.translate_shown ordinary] at found
    obtain ⟨frame, shows, rfl⟩ := Option.map_eq_some_iff.mp found
    obtain ⟨used, -⟩ := settled.mapped _ frame ordinary shows
    obtain ⟨⟨-, aligned, -⟩, -⟩ := settled.manages.used_fit used
    -- Byte and address are those of a place in the frame behind the page.
    have place := toNat_withOffset aligned virtualAddr
    refine ⟨?_, fun other ordinary' apart => ?_⟩
    · rw [settled'.loadByte_shown ordinary, if_pos accepted.1, shown, shows, Option.map_some,
        VirtualMemoryManager.byteAt_writeEntry, if_pos place.symm]
    · rw [settled'.loadByte_shown ordinary', settled.loadByte_shown ordinary', shown]
      split
      · rename_i accepted'
        cases shows' : memory.vmm.shown table (pageNumber other) with
        | none => rfl
        | some frame' =>
          obtain ⟨used', -⟩ := settled.mapped _ frame' ordinary' shows'
          obtain ⟨⟨-, aligned', -⟩, -⟩ := settled.manages.used_fit used'
          rw [Option.map_some, Option.map_some, VirtualMemoryManager.byteAt_writeEntry, if_neg]
          -- The same place would mean the same frame, so the same page, and the same offset.
          rw [place]
          intro same
          have frames : frame' = frame := BitVec.eq_of_toNat_eq (by omega)
          have page := settled.unshared _ _ frame ordinary' ordinary (frames ▸ shows') shows
          exact apart (canonical_eq accepted.1 accepted' page (by omega))
      · rfl
  · cases stored

/-- So are several bytes. -/
theorem storeBytes_loads (settled : Settled memory table broken) {virtualAddr : BitVec 64}
    {data : Buffer} {count : Nat} (few : count ≤ 2 ^ 64)
    (ordinary : ∀ index < count, 4096 ≤ pageNumber (virtualAddr + BitVec.ofNat 64 index))
    (stored : memory.storeBytes virtualAddr data count = some after) :
    (∀ index < count, after.loadByte (virtualAddr + BitVec.ofNat 64 index) = some (data index)) ∧
      ∀ other, 4096 ≤ pageNumber other →
        (∀ index < count, other ≠ virtualAddr + BitVec.ofNat 64 index) →
        after.loadByte other = memory.loadByte other := by
  -- By induction on the number of bytes.
  induction count generalizing after with
  | zero =>
    cases stored
    exact ⟨fun index inside => absurd inside (Nat.not_lt_zero _), fun _ _ _ => rfl⟩
  | succ count ih =>
    obtain ⟨middle, before, last⟩ := Option.bind_eq_some_iff.mp stored
    have ordinary' := fun index inside => ordinary index (Nat.lt_succ_of_lt inside)
    obtain ⟨earlier, others⟩ := ih (by omega) ordinary' before
    obtain ⟨here, others'⟩ := (settled.storeBytes ordinary' before).settled.storeByte_loads
      (ordinary count (Nat.lt_succ_self count)) last
    refine ⟨fun index inside => ?_, fun other high apart => ?_⟩
    · rcases Nat.lt_succ_iff_lt_or_eq.mp inside with below | rfl
      · -- A byte stored before is still there.
        rw [others' _ (ordinary index inside), earlier index below]
        -- Fewer than all addresses there are cannot wrap around.
        intro same
        have number := congrArg BitVec.toNat ((BitVec.add_right_inj _).mp same)
        rw [BitVec.toNat_ofNat, BitVec.toNat_ofNat, Nat.mod_eq_of_lt (by omega),
          Nat.mod_eq_of_lt (by omega)] at number
        omega
      · exact here
    · rw [others' other high (apart count (Nat.lt_succ_self count)),
        others other high fun index inside => apart index (Nat.lt_succ_of_lt inside)]

end Settled

/-- Mapping a page writes only in the tables there are and in the frames it takes. -/
theorem PageTables.mapPage_memory {vmm : VirtualMemoryManager} {table : Nat → Nat → Option Nat}
    {broken : List Nat} (tables : PageTables vmm table broken) {virtualAddr : BitVec 64}
    (ordinary : 4096 ≤ pageNumber virtualAddr) (physicalAddr : BitVec 64) (writable : Bool) :
    ∃ taken, vmm.frames = taken ++ (vmm.mapPage virtualAddr physicalAddr writable).frames ∧
      ∀ place, 4096 ≤ place → ¬ InTables table place →
        (∀ frame ∈ taken, ¬ (frame ≤ place ∧ place < frame + 4096)) →
        (vmm.mapPage virtualAddr physicalAddr writable).memory place = vmm.memory place := by
  -- Unless nothing happens, the tables have grown by the frames taken.
  have grows : ∀ {after : VirtualMemoryManager} {table' : Nat → Nat → Option Nat},
      Grown vmm table after table' → ∃ taken, vmm.frames = taken ++ after.frames ∧
        ∀ place, 4096 ≤ place → ¬ InTables table place →
          (∀ frame ∈ taken, ¬ (frame ≤ place ∧ place < frame + 4096)) →
          after.memory place = vmm.memory place := by
    intro after table' grown
    obtain ⟨taken, split, new⟩ := grown.taken
    refine ⟨taken, split, fun place high apart untaken => grown.outside place high ?_⟩
    rintro ⟨level, number, addr, here, within⟩
    rcases new level number addr here with here | member
    · exact apart ⟨level, number, addr, here, within⟩
    · exact untaken addr member within
  have outcome := tables.mapPage_outcome ordinary physicalAddr writable
  generalize vmm.mapPage virtualAddr physicalAddr writable = after at outcome ⊢
  cases outcome with
  | nothing => exact ⟨[], rfl, fun _ _ _ _ => rfl⟩
  | filled _ grown => exact grows grown
  | short _ grown => exact grows grown

namespace Settled

variable {memory : PagedMemory} {table : Nat → Nat → Option Nat} {broken : List Nat}

/-- Mapping a page leaves what lies in a used frame that is no table. -/
theorem mapPage_memory (settled : Settled memory table broken) {virtualAddr : BitVec 64}
    (ordinary : 4096 ≤ pageNumber virtualAddr) (physicalAddr : BitVec 64) (writable : Bool)
    {frame : Nat} (used : memory.pmm.Used frame)
    (clear : ∀ level number, table level number ≠ some frame) {place : Nat}
    (inside : frame ≤ place ∧ place < frame + 4096) :
    (memory.mapPage virtualAddr physicalAddr writable).vmm.memory place = memory.vmm.memory place := by
  obtain ⟨frames, nodup, fit, -, outcome⟩ := settled.mapPage_supply virtualAddr physicalAddr writable
  have supplied : PageTables { memory.vmm with frames := frames } table broken :=
    settled.tables.resupply nodup (fun frame member => (fit frame member).1)
      fun level number addr here member => (fit addr member).2 (settled.owned level number addr here)
  -- Neither the tables there are nor those that are made lie in the frame.
  obtain ⟨taken, split, kept⟩ := supplied.mapPage_memory ordinary physicalAddr writable
  obtain ⟨⟨nonzero, aligned, -⟩, -⟩ := settled.manages.used_fit used
  rw [(outcome taken split).1]
  refine kept place (by omega) ?_ ?_
  · rintro ⟨level, number, addr, here, within⟩
    obtain ⟨⟨-, aligned', -⟩, -⟩ := settled.tables.placed here
    exact clear level number (by rw [here, show addr = frame by omega])
  · -- The frames taken were free.
    intro other member within
    have given : frames = taken ++ _ := split
    obtain ⟨⟨-, aligned', -⟩, free⟩ := fit other (by rw [given]; exact List.mem_append_left _ member)
    exact free (by rwa [show other = frame by omega])

/-- Backing a page leaves everything in order and the bytes of other pages where they were. -/
theorem backPage_keeps (settled : Settled memory table broken) {virtualAddr : BitVec 64}
    (ordinary : 4096 ≤ pageNumber virtualAddr) (given : memory.allocateFrame.1 ≠ 0)
    (writable : Bool) :
    let after := memory.allocateFrame.2.mapPage virtualAddr
      (BitVec.ofNat 64 memory.allocateFrame.1) writable
    (∃ table' broken', Settled after table' broken') ∧ KeepsBytes memory after := by
  intro after
  obtain ⟨settled', -, whole, taken, before, clear, unshown⟩ := settled.allocateFrame given
  have ending := settled'.mapPage ordinary (by rw [whole]; exact taken) (by rw [whole]; exact clear)
    unshown writable
  -- Whatever comes of it, the frames shown before are still shown, and their words are the same.
  have keeps : ∀ {table' : Nat → Nat → Option Nat} {broken' : List Nat},
      Settled after table' broken' → (∀ page frame, memory.vmm.shown table page = some frame →
        after.vmm.shown table' page = some frame) → KeepsBytes memory after := by
    intro table' broken' settled'' shown other high byte loaded
    rw [settled.loadByte_shown high] at loaded
    rw [settled''.loadByte_shown high]
    split at loaded
    · rename_i accepted
      obtain ⟨frame, shows, rfl⟩ := Option.map_eq_some_iff.mp loaded
      -- A frame behind a page is used and no table, so mapping leaves its words.
      obtain ⟨used, free⟩ := settled.mapped _ frame high shows
      obtain ⟨⟨-, aligned, -⟩, -⟩ := settled.manages.used_fit used
      rw [if_pos accepted, shown _ _ shows, Option.map_some]
      refine congrArg some (congrArg (getByte · _) ?_)
      exact settled'.mapPage_memory ordinary _ writable (before _ used) free (by omega)
    · cases loaded
  generalize mapped : memory.allocateFrame.2.mapPage virtualAddr
    (BitVec.ofNat 64 memory.allocateFrame.1) writable = result at ending
  have same : after = result := mapped
  rw [same] at keeps ⊢
  cases ending with
  | filled settled'' _ absent _ shown =>
    refine ⟨⟨_, _, settled''⟩, keeps settled'' fun page frame shows => ?_⟩
    -- The page that is mapped was not mapped before, so it is another one.
    rw [shown, if_neg]
    · exact shows
    · rintro rfl
      exact Option.some_ne_none _ (shows.symm.trans absent)
  | kept settled'' shown =>
    exact ⟨⟨_, _, settled''⟩, keeps settled'' fun page frame shows => (shown page).trans shows⟩

end Settled

/-- Backing pages leaves everything in order and the bytes of other pages where they were. -/
theorem backAll_keeps {memory : PagedMemory} {table : Nat → Nat → Option Nat} {broken : List Nat}
    (settled : Settled memory table broken) {addrs : List (BitVec 64)}
    (ordinary : ∀ addr ∈ addrs, 4096 ≤ pageNumber addr) (writable : Bool) :
    (∃ table' broken', Settled (memory.backAll writable addrs).memory table' broken') ∧
      KeepsBytes memory (memory.backAll writable addrs).memory := by
  -- By induction on the pages.
  induction addrs generalizing memory table broken with
  | nil => exact ⟨⟨table, broken, settled⟩, fun _ _ _ loaded => loaded⟩
  | cons addr addrs ih =>
    by_cases null : memory.allocateFrame.1 = 0
    · -- Without a frame the loop ends, and nothing has been written.
      simp only [PagedMemory.backAll, if_pos null]
      exact ⟨⟨table, broken, (settled.allocateFrame_null null).1.settled⟩, fun _ _ _ loaded => loaded⟩
    · simp only [PagedMemory.backAll, if_neg null]
      obtain ⟨⟨table', broken', settled'⟩, kept⟩ :=
        settled.backPage_keeps (ordinary addr List.mem_cons_self) null writable
      obtain ⟨rest, kept'⟩ := ih settled' fun other member => ordinary other (List.mem_cons_of_mem _ member)
      exact ⟨rest, fun virtualAddr high byte loaded => kept' virtualAddr high byte
        (kept virtualAddr high byte loaded)⟩

end Pocky
