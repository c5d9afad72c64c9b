import Pocky.Memory.PageTree

/-! The hardware's walk through the page tables, and the entries it reads as the code reads them. -/

namespace Pocky

open PageTableEntry VirtualMemoryManager

/-- The bits of an entry in which the hardware finds the frame of a table or page. -/
def PageTableEntry.frameBits (entry : PageTableEntry) : BitVec 64 := entry &&& 0xFFFFFFFFFF000#64

/-- The bits of an entry in which the hardware finds the base of a two-megabyte page. -/
def PageTableEntry.largeFrameBits (entry : PageTableEntry) : BitVec 64 := entry &&& 0xFFFFFFFE00000#64

/-- The physical address the processor translates an address to, if it is mapped. -/
def VirtualMemoryManager.translate (vmm : VirtualMemoryManager) (virtualAddr : BitVec 64) :
    Option (BitVec 64) :=
  let pml4Entry := vmm.readEntry vmm.pml4 (pml4Index virtualAddr)
  if !pml4Entry.present then none
  else
    let pdptEntry := vmm.readEntry pml4Entry.frameBits.toNat (pdptIndex virtualAddr)
    if !pdptEntry.present then none
    else
      let pdEntry := vmm.readEntry pdptEntry.frameBits.toNat (pdIndex virtualAddr)
      if !pdEntry.present then none
      else if pdEntry.hugePage then
        -- A two-megabyte page is found with an offset of twenty-one bits.
        some (pdEntry.largeFrameBits ||| (virtualAddr &&& 0x1FFFFF#64))
      else
        let ptEntry := vmm.readEntry pdEntry.frameBits.toNat (ptIndex virtualAddr)
        if !ptEntry.present then none
        else some (ptEntry.frameBits ||| (virtualAddr &&& 0xFFF#64))

/-- An entry that code and hardware read alike, for its level and the page numbers it is for. -/
def Clean (large level number : Nat) (entry : PageTableEntry) : Prop :=
  if level = 2 ∧ number < large then entry = largeEntry number
  else entry.hugePage = false ∧ (level < 3 → entry.frameBits = entry.address)

/-- All entries of all tables are clean. -/
def AllClean (large : Nat) (vmm : VirtualMemoryManager) (table : Nat → Nat → Option Nat) : Prop :=
  ∀ level number addr index, table level number = some addr → index < 512 →
    Clean large level (512 * number + index) (vmm.readEntry addr index)

/-- An empty entry is clean outside the large pages. -/
theorem clean_empty {large level number : Nat} (ordinary : ¬ (level = 2 ∧ number < large)) :
    Clean large level number emptyEntry := by
  -- It shows address zero to both.
  rw [Clean, if_neg ordinary]
  exact ⟨emptyEntry_flags.2, fun _ => by decide⟩

/-- The hardware's mask keeps what the code's mask keeps, and four more bits. -/
theorem getLsbD_frameMask : ∀ i < 64, (0xFFFFFFFFFF000#64).getLsbD i = decide (12 ≤ i ∧ i < 52) := by
  -- The mask is a constant, so every position is checked.
  decide

/-- The stored bits of an entry pointed somewhere, from the twelfth on, are those of the address. -/
theorem getLsbD_pointTo_high {entry : PageTableEntry} (small : entry.hugePage = false)
    (addr : BitVec 64) (writable : Bool) {i : Nat} (inside : i < 64) (high : 12 ≤ i) :
    (pointTo entry addr writable).getLsbD i = addr.getLsbD i := by
  -- The flags are written below the twelfth bit.
  rw [pointTo, setUser, getLsbD_setFlag _ _ _ inside, if_neg (by omega), setWritable,
    getLsbD_setFlag _ _ _ inside, if_neg (by omega), setPresent, getLsbD_setFlag _ _ _ inside,
    if_neg (by omega), getLsbD_setAddress small addr inside, if_neg (by omega)]

/-- An entry whose high bits are those of a frame's address shows that frame to code and hardware. -/
theorem frameBits_eq_address {entry : PageTableEntry} (small : entry.hugePage = false) {frame : Nat}
    (bounded : frame < 2 ^ 48)
    (bits : ∀ i < 64, 12 ≤ i → entry.getLsbD i = (BitVec.ofNat 64 frame).getLsbD i) :
    entry.frameBits = entry.address := by
  -- The four bits in which the masks differ are clear.
  rw [address_of_bits small bits, frameBits]
  apply BitVec.eq_of_getLsbD_eq
  intro i inside
  obtain ⟨-, middle, -⟩ := getLsbD_masks i inside
  rw [BitVec.getLsbD_and, BitVec.getLsbD_and, getLsbD_frameMask i inside, middle]
  by_cases low : 12 ≤ i
  · rw [bits i inside low]
    by_cases shown : i < 48
    · rw [decide_eq_true ⟨low, by omega⟩, decide_eq_true ⟨low, shown⟩]
    · have clear : (BitVec.ofNat 64 frame).getLsbD i = false := by
        have bound : 2 ^ 48 ≤ 2 ^ i := Nat.pow_le_pow_right (by decide) (by omega)
        rw [BitVec.getLsbD_ofNat, Nat.testBit_lt_two_pow (by omega), Bool.and_false]
      rw [clear, Bool.false_and, Bool.false_and]
  · rw [decide_eq_false (by omega), decide_eq_false (by omega), Bool.and_false, Bool.and_false]

/-- An entry made to point to a frame is clean outside the large pages. -/
theorem clean_pointTo {large level number frame : Nat} (ordinary : ¬ (level = 2 ∧ number < large))
    (bounded : frame < 2 ^ 48) (writable : Bool) :
    Clean large level number (pointTo emptyEntry (BitVec.ofNat 64 frame) writable) := by
  -- The frame lies below the bits the code does not read.
  have small := (pointTo_spec emptyEntry_flags.2 (BitVec.ofNat 64 frame) writable).2.1
  rw [Clean, if_neg ordinary]
  exact ⟨small, fun _ => frameBits_eq_address small bounded fun i inside high =>
    getLsbD_pointTo_high emptyEntry_flags.2 _ _ inside high⟩

namespace PageTree

variable {large : Nat} {vmm : VirtualMemoryManager} {table : Nat → Nat → Option Nat}
  {pages : Nat → Option (BitVec 64)}

/-- Hanging a fresh table into an entry keeps the tables clean. -/
theorem clean_hang (tree : PageTree large vmm table pages) (clean : AllClean large vmm table)
    {frame : Nat} {rest : List Nat} (next : vmm.frames = frame :: rest)
    {level number addr index : Nat} (here : table level number = some addr) (inside : index < 512)
    (below : table (level + 1) (512 * number + index) = none)
    (free : level + 1 = 2 → large ≤ 512 * (512 * number + index)) {entry : PageTableEntry}
    (written : Clean large level (512 * number + index) entry) :
    AllClean large (hangTable vmm frame rest addr index entry)
      (attach table (level + 1) (512 * number + index) frame) := by
  obtain ⟨fresh, kept⟩ := tree.readEntry_hangTable next here inside entry
  intro level' number' addr' index' here' inside'
  unfold attach at here'
  split at here'
  · -- The new table is empty, and none of the large pages lies below it.
    rename_i new
    obtain ⟨rfl, rfl⟩ := new
    cases here'
    rw [fresh index' inside']
    apply clean_empty
    rintro ⟨second, low⟩
    have above := free second
    omega
  · -- In the other tables one entry has changed.
    rw [kept level' number' addr' index' here' inside']
    split
    · rename_i same
      obtain ⟨rfl, rfl, rfl⟩ := same
      exact written
    · exact clean level' number' addr' index' here' inside'

/-- Entering one more large page keeps the tables clean. -/
theorem clean_enlarge (tree : PageTree large vmm table pages) (clean : AllClean large vmm table)
    {addr : Nat} (inside : large < 512) (here : table 2 0 = some addr) :
    AllClean (large + 1) (vmm.writeEntry addr large (largeEntry large)) table := by
  obtain ⟨⟨-, aligned, -⟩, -⟩ := tree.placed 2 0 addr here
  intro level number addr' index here' small
  obtain ⟨⟨-, aligned', -⟩, -⟩ := tree.placed level number addr' here'
  by_cases same : addr' + 8 * index = addr + 8 * large
  · -- This is the entry written.
    obtain ⟨rfl, rfl⟩ := entry_apart aligned' aligned small inside same
    obtain ⟨rfl, rfl⟩ := tree.distinct _ _ _ _ _ here' here
    rw [Clean, if_pos ⟨rfl, by omega⟩, show 512 * 0 + index = index by omega]
    simp only [readEntry, writeEntry, Function.update_self]
  · -- For the others nothing has changed, nor what they are for.
    have before := clean level number addr' index here' small
    have other : ¬ (level = 2 ∧ 512 * number + index = large) := by
      rintro ⟨rfl, equal⟩
      obtain ⟨rfl, rfl⟩ : number = 0 ∧ index = large := by omega
      rw [here] at here'
      cases here'
      exact same rfl
    have alike : (level = 2 ∧ 512 * number + index < large + 1) ↔
        (level = 2 ∧ 512 * number + index < large) := by omega
    simp only [Clean, readEntry, writeEntry, Function.update_of_ne same, alike]
    exact before

/-- Entering the first large pages keeps the tables clean. -/
theorem clean_mapFirstPages (tree : PageTree 0 vmm table pages) (clean : AllClean 0 vmm table)
    {addr : Nat} (here : table 2 0 = some addr) (bare : ∀ number, table 3 number = none) (count : Nat)
    (few : count ≤ 8) : AllClean count (vmm.mapFirstPages addr count) table := by
  -- By induction on the pages entered.
  induction count with
  | zero => exact clean
  | succ count ih =>
    obtain ⟨before, -⟩ := tree.mapFirstPages here bare count (by omega)
    exact before.clean_enlarge (ih (by omega)) (by omega) here

/-- A zeroed top table alone is clean. -/
theorem clean_single (frame : Nat) (rest : List Nat) (memory : Nat → PageTableEntry) :
    AllClean 0 (VirtualMemoryManager.clearTable ⟨memory, frame, rest⟩ frame)
      (attach (fun _ _ => none) 0 0 frame) := by
  -- All its entries are empty.
  intro level number addr index here inside
  unfold attach at here
  split at here
  · cases here
    have empty : (VirtualMemoryManager.clearTable ⟨memory, frame, rest⟩ frame).readEntry frame index =
        emptyEntry := by
      simp only [readEntry, clearTable, entriesPerTable]
      exact if_pos (by omega)
    rw [empty]
    exact clean_empty (by omega)
  · cases here

end PageTree

end Pocky
