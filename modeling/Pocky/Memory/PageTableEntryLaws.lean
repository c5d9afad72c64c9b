import Pocky.Memory.VirtualMemory

/-! What the setters of a page table entry store and what its getters show, bit by bit. -/

namespace Pocky

namespace PageTableEntry

/-- A shifted one has a single set bit. -/
theorem getLsbD_flagMask (bit : Nat) {i : Nat} (small : i < 64) :
    (1#64 <<< bit).getLsbD i = decide (i = bit) := by
  -- Below the shift there are zeros, and above it only the bit at distance zero is set.
  rw [BitVec.getLsbD_shiftLeft, BitVec.getLsbD_one]
  by_cases below : i < bit
  · have apart : i ≠ bit := by omega
    simp [below, apart]
  · have distance : i - bit = 0 ↔ i = bit := by omega
    simp [below, small, distance]

/-- A flag is the bit at its position. -/
theorem flag_eq_getLsbD (entry : PageTableEntry) {bit : Nat} (small : bit < 64) :
    entry.flag bit = entry.getLsbD bit := by
  -- The conjunction with the mask keeps this bit and clears every other.
  have masked : ∀ i < 64, (entry &&& 1#64 <<< bit).getLsbD i =
      (entry.getLsbD i && decide (i = bit)) := by
    intro i inside
    rw [BitVec.getLsbD_and, getLsbD_flagMask bit inside]
  unfold flag
  cases set : entry.getLsbD bit with
  | false =>
    have zero : entry &&& 1#64 <<< bit = 0#64 := by
      apply BitVec.eq_of_getLsbD_eq
      intro i inside
      rw [masked i inside, BitVec.getLsbD_zero]
      by_cases same : i = bit
      · rw [same, set, Bool.false_and]
      · rw [decide_eq_false same, Bool.and_false]
    rw [zero]
    rfl
  | true =>
    rw [bne_iff_ne]
    intro zero
    have bitSet := masked bit small
    rw [zero, set, BitVec.getLsbD_zero, decide_eq_true rfl] at bitSet
    cases bitSet

/-- Writing a flag changes the bit at its position and no other. -/
theorem getLsbD_setFlag (entry : PageTableEntry) (bit : Nat) (on : Bool) {i : Nat}
    (small : i < 64) :
    (entry.setFlag bit on).getLsbD i = if i = bit then on else entry.getLsbD i := by
  -- The mask clears one bit, and the second operand may set it again.
  have added : (if on then 1#64 <<< bit else 0#64).getLsbD i = (on && decide (i = bit)) := by
    cases on with
    | false => rw [if_neg Bool.false_ne_true, BitVec.getLsbD_zero, Bool.false_and]
    | true => rw [if_pos rfl, getLsbD_flagMask bit small, Bool.true_and]
  unfold setFlag
  rw [BitVec.getLsbD_or, BitVec.getLsbD_and, BitVec.getLsbD_not, getLsbD_flagMask bit small, added]
  by_cases same : i = bit
  · simp [same]
  · simp [same, small]

/-- The low twelve bits are set in the flag mask and in no address mask. -/
theorem getLsbD_masks : ∀ i < 64,
    (0xFFF#64).getLsbD i = decide (i < 12) ∧
    (0xFFFFFFFFF000#64).getLsbD i = decide (12 ≤ i ∧ i < 48) ∧
    pageMask.getLsbD i = decide (12 ≤ i) := by
  -- All three masks are constants, so every position is checked.
  decide

/-- Replacing the address of an ordinary entry keeps its twelve low bits. -/
theorem getLsbD_setAddress {entry : PageTableEntry} (small : entry.hugePage = false)
    (addr : BitVec 64) {i : Nat} (inside : i < 64) :
    (entry.setAddress addr).getLsbD i = if i < 12 then entry.getLsbD i else addr.getLsbD i := by
  -- An ordinary entry takes the branch with the twelve-bit mask.
  obtain ⟨low, -, -⟩ := getLsbD_masks i inside
  have ordinary : entry.setAddress addr = (entry &&& 0xFFF#64) ||| (addr &&& ~~~0xFFF#64) := by
    rw [setAddress, small]
    rfl
  rw [ordinary, BitVec.getLsbD_or, BitVec.getLsbD_and, BitVec.getLsbD_and, BitVec.getLsbD_not, low]
  by_cases flagBit : i < 12
  · simp [flagBit]
  · simp [flagBit, inside]

/-- An ordinary entry shows the address bits it was given. -/
theorem address_of_bits {entry : PageTableEntry} (small : entry.hugePage = false)
    {addr : BitVec 64} (bits : ∀ i < 64, 12 ≤ i → entry.getLsbD i = addr.getLsbD i) :
    entry.address = addr &&& 0xFFFFFFFFF000#64 := by
  -- The mask hides the flags, where the two words may differ.
  have ordinary : entry.address = entry &&& 0xFFFFFFFFF000#64 := by
    rw [address, small]
    rfl
  rw [ordinary]
  apply BitVec.eq_of_getLsbD_eq
  intro i inside
  obtain ⟨-, middle, -⟩ := getLsbD_masks i inside
  rw [BitVec.getLsbD_and, BitVec.getLsbD_and, middle]
  by_cases shown : 12 ≤ i ∧ i < 48
  · rw [bits i inside shown.1]
  · rw [decide_eq_false shown, Bool.and_false, Bool.and_false]

end PageTableEntry

open PageTableEntry VirtualMemoryManager

/-- An empty entry is neither present nor large. -/
theorem emptyEntry_flags : emptyEntry.present = false ∧ emptyEntry.hugePage = false := by
  -- Both flags are bits of a constant.
  decide

/-- An entry pointed somewhere is present, ordinary, and shows that address. -/
theorem pointTo_spec {entry : PageTableEntry} (small : entry.hugePage = false) (addr : BitVec 64)
    (writable : Bool) :
    (pointTo entry addr writable).present = true ∧
      (pointTo entry addr writable).hugePage = false ∧
      (pointTo entry addr writable).address = addr &&& 0xFFFFFFFFF000#64 := by
  -- Each bit is the last value written to its position.
  have bits : ∀ i < 64, (pointTo entry addr writable).getLsbD i =
      if i = 2 then false else if i = 1 then writable else if i = 0 then true
      else if i < 12 then entry.getLsbD i else addr.getLsbD i := by
    intro i inside
    rw [pointTo, setUser, getLsbD_setFlag _ _ _ inside, setWritable, getLsbD_setFlag _ _ _ inside,
      setPresent, getLsbD_setFlag _ _ _ inside, getLsbD_setAddress small addr inside]
  have ordinary : (pointTo entry addr writable).hugePage = false := by
    rw [hugePage, flag_eq_getLsbD _ (by decide), bits 7 (by decide)]
    rw [hugePage, flag_eq_getLsbD _ (by decide)] at small
    simpa using small
  refine ⟨?_, ordinary, address_of_bits ordinary ?_⟩
  · rw [present, flag_eq_getLsbD _ (by decide), bits 0 (by decide)]
    rfl
  · intro i inside high
    have notFlag : i ≠ 2 ∧ i ≠ 1 ∧ i ≠ 0 ∧ ¬ i < 12 := by omega
    rw [bits i inside, if_neg notFlag.1, if_neg notFlag.2.1, if_neg notFlag.2.2.1,
      if_neg notFlag.2.2.2]

/-- A page-aligned address below the limit survives the address mask. -/
theorem tableAddress_masked {table : Nat} (aligned : table % 4096 = 0) (small : table < 2 ^ 48) :
    (BitVec.ofNat 64 table &&& 0xFFFFFFFFF000#64).toNat = table := by
  -- The bits the mask clears are clear already.
  have same : BitVec.ofNat 64 table &&& 0xFFFFFFFFF000#64 = BitVec.ofNat 64 table := by
    apply BitVec.eq_of_getLsbD_eq
    intro i inside
    obtain ⟨-, middle, -⟩ := getLsbD_masks i inside
    rw [BitVec.getLsbD_and, middle, BitVec.getLsbD_ofNat]
    by_cases shown : 12 ≤ i ∧ i < 48
    · rw [decide_eq_true shown, Bool.and_true]
    · have clear : table.testBit i = false := by
        by_cases low : i < 12
        · have bit := Nat.testBit_mod_two_pow table 12 i
          rw [show table % 2 ^ 12 = 0 from aligned] at bit
          simpa [low] using bit.symm
        · have high : 2 ^ 48 ≤ 2 ^ i := Nat.pow_le_pow_right (by decide) (by omega)
          exact Nat.testBit_lt_two_pow (by omega)
      rw [clear, Bool.and_false, Bool.false_and]
  rw [same, BitVec.toNat_ofNat]
  exact Nat.mod_eq_of_lt (by omega)

/-- The page a physical address lies in. -/
def pageAddress (physicalAddr : BitVec 64) : BitVec 64 := physicalAddr &&& pageMask

/-- What a last entry shows for a physical page, once the page offset is put back. -/
theorem pageAddress_shown {physicalAddr : BitVec 64} (small : physicalAddr.toNat < 2 ^ 48)
    (virtualAddr : BitVec 64) :
    (((pageAddress physicalAddr &&& 0xFFFFFFFFF000#64) &&& pageMask) |||
      ((virtualAddr &&& pageMask) &&& ~~~pageMask)) = pageAddress physicalAddr := by
  -- Above bit 47 the physical address has no bits, and the virtual address keeps no offset.
  apply BitVec.eq_of_getLsbD_eq
  intro i inside
  obtain ⟨-, middle, page⟩ := getLsbD_masks i inside
  have high : 48 ≤ i → physicalAddr.getLsbD i = false := by
    intro above
    have bound : 2 ^ 48 ≤ 2 ^ i := Nat.pow_le_pow_right (by decide) above
    exact Nat.testBit_lt_two_pow (by omega)
  simp only [pageAddress, BitVec.getLsbD_or, BitVec.getLsbD_and, BitVec.getLsbD_not, middle, page]
  by_cases low : 12 ≤ i
  · by_cases above : 48 ≤ i
    · simp [high above, low]
    · simp [low, inside, Nat.lt_of_not_le above]
  · simp [low]

/-- The thirty-six bits of an address that the tables translate. -/
def pageNumber (virtualAddr : BitVec 64) : Nat := virtualAddr.toNat / 4096 % 2 ^ 36

/-- Masking out the page offset keeps the page. -/
theorem toNat_pageMask (virtualAddr : BitVec 64) :
    (virtualAddr &&& pageMask).toNat / 4096 = virtualAddr.toNat / 4096 := by
  -- Both sides are the address shifted right by twelve.
  have shifted : (virtualAddr &&& pageMask) >>> 12 = virtualAddr >>> 12 := by
    apply BitVec.eq_of_getLsbD_eq
    intro i inside
    simp only [BitVec.getLsbD_ushiftRight, BitVec.getLsbD_and]
    by_cases room : 12 + i < 64
    · rw [(getLsbD_masks (12 + i) room).2.2, decide_eq_true (by omega), Bool.and_true]
    · rw [BitVec.getLsbD_of_ge virtualAddr (12 + i) (by omega), Bool.false_and]
  have numbers := congrArg BitVec.toNat shifted
  rw [BitVec.toNat_ushiftRight, BitVec.toNat_ushiftRight, Nat.shiftRight_eq_div_pow,
    Nat.shiftRight_eq_div_pow] at numbers
  exact numbers

/-- Nine bits of a shifted address, as a number. -/
theorem tableIndex_eq (shift : Nat) (virtualAddr : BitVec 64) :
    tableIndex shift virtualAddr = virtualAddr.toNat / 2 ^ shift % 512 := by
  -- The mask of nine ones is a remainder.
  rw [tableIndex, BitVec.toNat_and, BitVec.toNat_ushiftRight, Nat.shiftRight_eq_div_pow]
  exact Nat.and_two_pow_sub_one_eq_mod _ 9

/-- The four indices of a masked address, from its page number. -/
theorem tableIndex_pageNumber (virtualAddr : BitVec 64) :
    pml4Index (virtualAddr &&& pageMask) = pageNumber virtualAddr / 512 ^ 3 ∧
    pdptIndex (virtualAddr &&& pageMask) = pageNumber virtualAddr / 512 ^ 2 % 512 ∧
    pdIndex (virtualAddr &&& pageMask) = pageNumber virtualAddr / 512 % 512 ∧
    ptIndex (virtualAddr &&& pageMask) = pageNumber virtualAddr % 512 := by
  -- Each shift is a division, and the first twelve places of it drop the page offset.
  have page := toNat_pageMask virtualAddr
  simp only [pml4Index, pdptIndex, pdIndex, ptIndex, tableIndex_eq, pageNumber]
  omega

end Pocky
