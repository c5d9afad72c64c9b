import Pocky.Memory.PageWrites

/-! When the code's lookup of a physical address answers what the hardware translates. -/

namespace Pocky

open PageTableEntry VirtualMemoryManager

/-- The word the lookup takes for a last entry under a large page. -/
def VirtualMemoryManager.strayEntry (vmm : VirtualMemoryManager) (virtualAddr : BitVec 64) :
    PageTableEntry :=
  vmm.readEntry (pageNumber virtualAddr / 512 * 0x200000) (pageNumber virtualAddr % 512)

/--
The addresses whose translation survives the lookup.

Outside the large pages the address is page-aligned and its page below the limit.
Under a large page it is translated to null, or data in that page happen to show its translation.
-/
def VirtualMemoryManager.Survives (vmm : VirtualMemoryManager) (virtualAddr : BitVec 64) : Prop :=
  ∀ physicalAddr, vmm.translate virtualAddr = some physicalAddr →
    if 4096 ≤ pageNumber virtualAddr then
      virtualAddr.toNat % 4096 = 0 ∧ physicalAddr.toNat < 2 ^ 48
    else physicalAddr = 0#64 ∨ 512 ≤ pageNumber virtualAddr ∧
      (vmm.strayEntry virtualAddr).present = true ∧
      (vmm.strayEntry virtualAddr).address &&& pageMask = physicalAddr

/-- The lookup drops what the code's mask drops from the translation. -/
theorem lookup_bits (entry : PageTableEntry) (virtualAddr : BitVec 64) :
    ((entry &&& 0xFFFFFFFFF000#64) &&& pageMask) ||| ((virtualAddr &&& pageMask) &&& ~~~pageMask) =
      (entry.frameBits ||| (virtualAddr &&& 0xFFF#64)) &&& 0xFFFFFFFFF000#64 := by
  -- The masks are compared bit by bit.
  apply BitVec.eq_of_getLsbD_eq
  intro i inside
  obtain ⟨low, middle, page⟩ := getLsbD_masks i inside
  simp only [frameBits, BitVec.getLsbD_or, BitVec.getLsbD_and, BitVec.getLsbD_not, low, middle, page,
    getLsbD_frameMask i inside]
  by_cases offset : i < 12
  · simp [offset, Nat.not_le.mpr offset]
  · by_cases shown : i < 48
    · simp [offset, shown, Nat.le_of_not_lt offset, show i < 52 by omega]
    · simp only [offset, shown, inside, and_false, decide_false, Bool.and_false, Bool.or_false,
        Nat.le_of_not_lt offset, decide_true, Bool.not_true, Bool.and_true]

/-- The mask keeps exactly the page-aligned addresses below the limit. -/
theorem masked_eq_self_iff (addr : BitVec 64) :
    addr &&& 0xFFFFFFFFF000#64 = addr ↔ addr.toNat % 4096 = 0 ∧ addr.toNat < 2 ^ 48 := by
  constructor
  · intro same
    have number : addr.toNat &&& 0xFFFFFFFFF000 = addr.toNat := by
      have numbers := congrArg BitVec.toNat same
      rwa [BitVec.toNat_and] at numbers
    have small : addr.toNat ≤ 0xFFFFFFFFF000 := by
      rw [← number]
      exact Nat.and_le_right
    have low : (addr.toNat &&& 0xFFFFFFFFF000) % 2 ^ 12 =
        addr.toNat % 2 ^ 12 &&& 0xFFFFFFFFF000 % 2 ^ 12 := Nat.and_mod_two_pow
    rw [number, show 0xFFFFFFFFF000 % 2 ^ 12 = 0 from rfl, Nat.and_zero] at low
    exact ⟨low, by omega⟩
  · rintro ⟨aligned, small⟩
    apply BitVec.eq_of_toNat_eq
    have masked := tableAddress_masked aligned small
    rwa [BitVec.ofNat_toNat, BitVec.setWidth_eq] at masked

/-- A translation has the page offset of its address. -/
theorem offset_kept (entry : PageTableEntry) (virtualAddr : BitVec 64) :
    (entry.frameBits ||| (virtualAddr &&& 0xFFF#64)).toNat % 4096 = virtualAddr.toNat % 4096 := by
  -- The frame has no bits there.
  have frame : (entry.toNat &&& 0xFFFFFFFFFF000) % 2 ^ 12 = 0 := by
    rw [Nat.and_mod_two_pow, show 0xFFFFFFFFFF000 % 2 ^ 12 = 0 from rfl, Nat.and_zero]
  have offset : (virtualAddr.toNat &&& 0xFFF) % 2 ^ 12 = virtualAddr.toNat % 2 ^ 12 := by
    rw [Nat.and_mod_two_pow, show 0xFFF % 2 ^ 12 = 2 ^ 12 - 1 from rfl, Nat.and_two_pow_sub_one_eq_mod,
      Nat.mod_mod]
  have both : ((entry.toNat &&& 0xFFFFFFFFFF000) ||| (virtualAddr.toNat &&& 0xFFF)) % 2 ^ 12 =
      (entry.toNat &&& 0xFFFFFFFFFF000) % 2 ^ 12 ||| (virtualAddr.toNat &&& 0xFFF) % 2 ^ 12 :=
    Nat.or_mod_two_pow
  rw [frame, offset, Nat.zero_or] at both
  rw [frameBits, BitVec.toNat_or, BitVec.toNat_and, BitVec.toNat_and]
  exact both

namespace PageTables

variable {vmm : VirtualMemoryManager} {table : Nat → Nat → Option Nat} {broken : List Nat}

/-- Outside the large pages the lookup answers what is left of the translation. -/
theorem getPhysicalAddress_ordinary (tables : PageTables vmm table broken) {virtualAddr : BitVec 64}
    (ordinary : 4096 ≤ pageNumber virtualAddr) :
    vmm.getPhysicalAddress virtualAddr =
      ((vmm.translate virtualAddr).map (· &&& 0xFFFFFFFFF000#64)).getD 0#64 := by
  obtain ⟨-, -, -, last⟩ := tableIndex_pageNumber virtualAddr
  have inside : pageNumber virtualAddr % 512 < 512 := Nat.mod_lt _ (by decide)
  rcases walkDown_find ordinary 3 0 rfl tables (tables.root_of_page virtualAddr) with
    ⟨ended, absent⟩ | ⟨pt, found, here⟩
  · simp only [getPhysicalAddress, walk_eq_walkDown, ended, if_true, tables.translate_none ordinary absent]
    rfl
  · have nonzero := (tables.placed here).1.1
    simp only [getPhysicalAddress, walk_eq_walkDown, found, if_neg nonzero, last,
      tables.translate_last ordinary here]
    rcases tables.leaf_cases here inside with empty | ⟨present, plain⟩
    · simp [empty, emptyEntry_flags]
    · -- The entry is an ordinary one, so code and hardware differ in the mask only.
      simp only [present, Bool.not_true, Bool.false_eq_true, if_false, if_true, Option.map_some,
        Option.getD_some, address, plain]
      exact lookup_bits _ virtualAddr

/-- Under a large page the lookup reads a word of that page. -/
theorem getPhysicalAddress_large (tables : PageTables vmm table broken) {virtualAddr : BitVec 64}
    (large : pageNumber virtualAddr < 4096) :
    vmm.getPhysicalAddress virtualAddr =
      if pageNumber virtualAddr < 512 then 0#64
      else if (vmm.strayEntry virtualAddr).present then
        (vmm.strayEntry virtualAddr).address &&& pageMask
      else 0#64 := by
  obtain ⟨-, -, -, last⟩ := tableIndex_pageNumber virtualAddr
  simp only [getPhysicalAddress, walk_eq_walkDown, (tables.walkDown_large large false).1, last]
  have cleared : (virtualAddr &&& pageMask) &&& ~~~pageMask = 0#64 := by
    rw [BitVec.and_assoc, show pageMask &&& ~~~pageMask = 0#64 by decide, BitVec.and_zero]
  by_cases low : pageNumber virtualAddr < 512
  · rw [Nat.div_eq_of_lt low, Nat.zero_mul, if_pos rfl, if_pos low]
  · -- The walk has come to the large page, as if it were a table.
    have nonzero : pageNumber virtualAddr / 512 * 0x200000 ≠ 0 := by omega
    rw [if_neg nonzero, if_neg low, cleared, BitVec.or_zero, strayEntry]
    cases (vmm.readEntry (pageNumber virtualAddr / 512 * 0x200000)
      (pageNumber virtualAddr % 512)).present <;> rfl

/-- The lookup answers the translation exactly where it survives. -/
theorem getPhysicalAddress_eq_iff (tables : PageTables vmm table broken) (virtualAddr : BitVec 64) :
    vmm.getPhysicalAddress virtualAddr = (vmm.translate virtualAddr).getD 0#64 ↔
      vmm.Survives virtualAddr := by
  by_cases ordinary : 4096 ≤ pageNumber virtualAddr
  · rw [tables.getPhysicalAddress_ordinary ordinary]
    simp only [Survives, if_pos ordinary]
    cases mapped : vmm.translate virtualAddr with
    | none => simp
    | some physicalAddr =>
      -- The translation has the offset of the address.
      have offset : physicalAddr.toNat % 4096 = virtualAddr.toNat % 4096 := by
        cases here : table 3 (pageNumber virtualAddr / 512) with
        | none =>
          rw [tables.translate_none ordinary here] at mapped
          cases mapped
        | some pt =>
          rw [tables.translate_last ordinary here] at mapped
          split at mapped
          · rw [← Option.some.inj mapped]
            exact offset_kept _ virtualAddr
          · cases mapped
      simp only [Option.map_some, Option.getD_some, masked_eq_self_iff, offset, Option.some.injEq,
        forall_eq']
  · have large := Nat.lt_of_not_le ordinary
    rw [tables.getPhysicalAddress_large large]
    simp only [Survives, if_neg ordinary, tables.translate_large large, Option.getD_some,
      Option.some.injEq, forall_eq']
    by_cases low : pageNumber virtualAddr < 512
    · rw [if_pos low, eq_comm]
      exact ⟨Or.inl, fun either => either.resolve_right fun wrong => absurd low (Nat.not_lt.mpr wrong.1)⟩
    · -- From the second large page on no translation is null.
      have nonzero : BitVec.ofNat 64 (pageNumber virtualAddr / 512 * 0x200000) |||
          (virtualAddr &&& 0x1FFFFF#64) ≠ 0#64 := by
        intro zero
        have base := congrArg BitVec.toNat (BitVec.or_eq_zero_iff.mp zero).1
        rw [BitVec.toNat_ofNat, BitVec.toNat_ofNat] at base
        omega
      rw [if_neg low]
      split
      · rename_i present
        exact ⟨fun same => Or.inr ⟨Nat.le_of_not_lt low, present, same⟩,
          fun either => (either.resolve_left nonzero).2.2⟩
      · rename_i absent
        exact ⟨fun same => absurd same.symm nonzero,
          fun either => absurd (either.resolve_left nonzero).2.1 absent⟩

/-- A call that avoids the large pages leaves page tables behind, broken entries or not. -/
theorem step (tables : PageTables vmm table broken) {call : PageCall}
    (avoids : AvoidsLargePages call.virtualAddr) :
    ∃ table' broken', PageTables (call.step vmm) table' broken' := by
  cases call with
  | mapPage virtualAddr physicalAddr writable =>
    rw [PageCall.virtualAddr] at avoids
    rw [PageCall.step]
    rcases avoids with low | ordinary
    · rw [tables.mapPage_low low]
      exact ⟨table, broken, tables⟩
    · have outcome := tables.mapPage_outcome ordinary physicalAddr writable
      generalize vmm.mapPage virtualAddr physicalAddr writable = after at outcome
      cases outcome with
      | nothing => exact ⟨table, broken, tables⟩
      | filled tables' => exact ⟨_, _, tables'⟩
      | short tables' => exact ⟨_, _, tables'⟩
  | unmapPage virtualAddr =>
    rw [PageCall.virtualAddr] at avoids
    rw [PageCall.step]
    rcases avoids with low | ordinary
    · rw [tables.unmapPage_low low]
      exact ⟨table, broken, tables⟩
    · exact ⟨table, broken, tables.unmapPage ordinary⟩

/-- Calls that avoid the large pages leave page tables behind. -/
theorem run (tables : PageTables vmm table broken) {calls : List PageCall}
    (avoids : ∀ call ∈ calls, AvoidsLargePages call.virtualAddr) :
    ∃ table' broken', PageTables (runPageCalls vmm calls) table' broken' := by
  -- By induction on the calls.
  induction calls generalizing vmm table broken with
  | nil => exact ⟨table, broken, tables⟩
  | cons call calls ih =>
    obtain ⟨table', broken', tables'⟩ := tables.step (avoids call List.mem_cons_self)
    exact ih tables' fun other member => avoids other (List.mem_cons_of_mem _ member)

end PageTables

/--
After any run that avoids the large pages, the lookup is right exactly where the translation survives.

The frames may run out on the way, and any physical addresses may be mapped.
-/
theorem getPhysicalAddress_agrees_iff {vmm : VirtualMemoryManager} {calls : List PageCall}
    (nodup : vmm.frames.Nodup) (fit : ∀ frame ∈ vmm.frames, TableFrame frame)
    (enough : 4 ≤ vmm.frames.length) (avoids : ∀ call ∈ calls, AvoidsLargePages call.virtualAddr)
    (virtualAddr : BitVec 64) :
    let after := runPageCalls vmm.initializeTables calls
    after.getPhysicalAddress virtualAddr = (after.translate virtualAddr).getD 0#64 ↔
      after.Survives virtualAddr := by
  intro after
  -- The tables built at boot are kept by every call.
  obtain ⟨pml4, pdpt, pd, kernelPdpt, rest, frames⟩ := boot_frames enough
  obtain ⟨table, tables, -⟩ := PageTables.boot frames nodup fit
  obtain ⟨table', broken', tables'⟩ := tables.run avoids
  exact tables'.getPhysicalAddress_eq_iff virtualAddr

/-- A page mapped at one gigabyte is looked up as the hardware translates it. -/
theorem getPhysicalAddress_agrees_iff_gigabyte :
    let after := runPageCalls tenFrames.initializeTables [.mapPage 0x40000000#64 0x5000#64 true]
    after.getPhysicalAddress 0x40000000#64 = (after.translate 0x40000000#64).getD 0#64 ↔
      after.Survives 0x40000000#64 := by
  have fit : ∀ frame ∈ tenFrames.frames, TableFrame frame := by
    unfold TableFrame
    decide
  exact getPhysicalAddress_agrees_iff (by decide) fit (by decide) (by decide) 0x40000000#64

/-- Inside that page the lookup loses the offset. -/
theorem getPhysicalAddress_drops_offset :
    let after := runPageCalls tenFrames.initializeTables [.mapPage 0x40000000#64 0x5000#64 true]
    after.translate 0x40000123#64 = some 0x5123#64 ∧
      after.getPhysicalAddress 0x40000123#64 = 0x5000#64 := by
  -- Both are evaluated.
  decide +kernel

end Pocky
