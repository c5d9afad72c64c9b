import Pocky.Lib.ByteMemory
import Pocky.Lib.Moves

/-! Moving bytes between ranges of memory that may overlap, by pointers of 64 bits. -/

namespace Pocky

namespace ByteMemory

/-- The loop that copies a byte and moves both pointers on. -/
def copyUp (memory : ByteMemory) (d s : BitVec 64) : Nat → ByteMemory
  | 0 => memory
  | count + 1 => copyUp (Function.update memory d (memory s)) (d + 1#64) (s + 1#64) count

/-- The loop that moves both pointers back and copies a byte. -/
def copyDown (memory : ByteMemory) (d s : BitVec 64) : Nat → ByteMemory
  | 0 => memory
  | count + 1 => copyDown (Function.update memory (d - 1#64) (memory (s - 1#64))) (d - 1#64) (s - 1#64) count

/-- Moving a number of bytes; the destination is returned. -/
def memmove (memory : ByteMemory) (dest src count : BitVec 64) : BitVec 64 × ByteMemory :=
  if dest < src then (dest, memory.copyUp dest src count.toNat)
  else (dest, memory.copyDown (dest + count) (src + count) count.toNat)

/-- A range of bytes does not go beyond the end of memory. -/
def InMemory (base : BitVec 64) (length : Nat) : Prop := base.toNat + length ≤ 2 ^ 64

/-- Memory holds the items of an array from an address on, as far as there are so many. -/
def Holds (memory : ByteMemory) (base : BitVec 64) (size : Nat) (items : Nat → BitVec 8) : Prop :=
  ∀ index < size, memory (base + BitVec.ofNat 64 index) = items index

/-- Memory as an array, by the numbers of the addresses. -/
def items (memory : ByteMemory) (index : Nat) : BitVec 8 := memory (BitVec.ofNat 64 index)

/-- An array that has the byte of every address at its number. -/
def Listed (memory : ByteMemory) (items : Nat → BitVec 8) : Prop := ∀ addr : BitVec 64, memory addr = items addr.toNat

/-- Memory is listed by itself. -/
theorem listed_items (memory : ByteMemory) : memory.Listed memory.items := by
  intro addr
  rw [items, BitVec.ofNat_toNat, BitVec.setWidth_eq]

/-- Copying one byte keeps memory listed. -/
theorem Listed.update {memory : ByteMemory} {items : Nat → BitVec 8} (listed : memory.Listed items)
    (d s : BitVec 64) :
    Listed (Function.update memory d (memory s)) (Function.update items d.toNat (items s.toNat)) := by
  intro addr
  by_cases here : addr = d
  · rw [here, Function.update_self, Function.update_self, listed s]
  · have apart : addr.toNat ≠ d.toNat := fun same => here (BitVec.eq_of_toNat_eq same)
    rw [Function.update_of_ne here, Function.update_of_ne apart, listed addr]

/-- Copying upwards by pointers copies upwards by numbers. -/
theorem Listed.copyUp {memory : ByteMemory} {items : Nat → BitVec 8} (listed : memory.Listed items)
    {d s : BitVec 64} {count : Nat} (fits : InMemory d count) (fits' : InMemory s count) :
    (memory.copyUp d s count).Listed (Moves.copyUp d.toNat s.toNat count items) := by
  -- By induction on the bytes that are left; only behind the last one may a pointer wrap around.
  induction count generalizing memory items d s with
  | zero => exact listed
  | succ count ih =>
    rw [ByteMemory.copyUp, Moves.copyUp]
    cases count with
    | zero => exact listed.update d s
    | succ count =>
      simp only [InMemory] at fits fits'
      have next : (d + 1#64).toNat = d.toNat + 1 := by
        rw [BitVec.toNat_add, BitVec.toNat_ofNat]
        omega
      have next' : (s + 1#64).toNat = s.toNat + 1 := by
        rw [BitVec.toNat_add, BitVec.toNat_ofNat]
        omega
      have rest := ih (listed.update d s) (d := d + 1#64) (s := s + 1#64)
        (by rw [InMemory, next]; omega) (by rw [InMemory, next']; omega)
      rwa [next, next'] at rest

/-- The pointer behind a range, moved back, points to its last byte. -/
theorem end_sub_one (base : BitVec 64) (count : Nat) :
    base + BitVec.ofNat 64 (count + 1) - 1#64 = base + BitVec.ofNat 64 count := by
  rw [BitVec.ofNat_add, ← BitVec.add_assoc, BitVec.add_sub_cancel]

/-- Copying downwards by pointers copies downwards by numbers. -/
theorem Listed.copyDown {memory : ByteMemory} {items : Nat → BitVec 8} (listed : memory.Listed items)
    {d s : BitVec 64} {count : Nat} (fits : InMemory d count) (fits' : InMemory s count) :
    (memory.copyDown (d + BitVec.ofNat 64 count) (s + BitVec.ofNat 64 count) count).Listed
      (Moves.copyDown d.toNat s.toNat count items) := by
  induction count generalizing memory items with
  | zero => exact listed
  | succ count ih =>
    simp only [InMemory] at fits fits'
    have last : (d + BitVec.ofNat 64 count).toNat = d.toNat + count := by
      rw [BitVec.toNat_add, BitVec.toNat_ofNat]
      omega
    have last' : (s + BitVec.ofNat 64 count).toNat = s.toNat + count := by
      rw [BitVec.toNat_add, BitVec.toNat_ofNat]
      omega
    have update := listed.update (d + BitVec.ofNat 64 count) (s + BitVec.ofNat 64 count)
    rw [last, last'] at update
    rw [ByteMemory.copyDown, Moves.copyDown, end_sub_one, end_sub_one]
    exact ih update (by rw [InMemory]; omega) (by rw [InMemory]; omega)

/-- Moving bytes by pointers moves them by numbers. -/
theorem Listed.memmove {memory : ByteMemory} {items : Nat → BitVec 8} (listed : memory.Listed items)
    {dest src count : BitVec 64} (fits : InMemory dest count.toNat) (fits' : InMemory src count.toNat) :
    (memory.memmove dest src count).2.Listed (Moves.memmove dest.toNat src.toNat count.toNat items) := by
  rw [ByteMemory.memmove, Moves.memmove]
  by_cases lower : dest < src
  · rw [if_pos lower, if_pos (BitVec.lt_def.mp lower)]
    exact listed.copyUp fits fits'
  · rw [if_neg lower, if_neg fun less => lower (BitVec.lt_def.mpr less)]
    have down := listed.copyDown fits fits'
    rwa [BitVec.ofNat_toNat, BitVec.setWidth_eq] at down

/-- Every byte of the destination is the old one of the source, and no other byte changes. -/
theorem memmove_moves (memory : ByteMemory) (dest src count : BitVec 64) (fits : InMemory dest count.toNat)
    (fits' : InMemory src count.toNat) :
    (memory.memmove dest src count).1 = dest ∧
      (∀ index < count.toNat, (memory.memmove dest src count).2 (dest + BitVec.ofNat 64 index) =
        memory (src + BitVec.ofNat 64 index)) ∧
      ∀ addr, ¬ Covers dest count.toNat addr → (memory.memmove dest src count).2 addr = memory addr := by
  have listed := memory.listed_items.memmove fits fits'
  simp only [InMemory] at fits fits'
  refine ⟨?_, fun index few => ?_, fun addr outside => ?_⟩
  · rw [memmove]
    split <;> rfl
  · have place : (dest + BitVec.ofNat 64 index).toNat = dest.toNat + index := by
      rw [BitVec.toNat_add, BitVec.toNat_ofNat]
      omega
    have from_eq : BitVec.ofNat 64 (src.toNat + index) = src + BitVec.ofNat 64 index := by
      rw [BitVec.ofNat_add, BitVec.ofNat_toNat, BitVec.setWidth_eq]
    rw [listed, place, Moves.memmove_inside (Nat.le_add_right _ _) (by omega), Nat.add_sub_cancel_left, items,
      from_eq]
  · -- An address that is not covered lies before the destination or behind it.
    have apart : ¬ (dest.toNat ≤ addr.toNat ∧ addr.toNat < dest.toNat + count.toNat) := by
      intro inside
      apply outside
      rw [Covers, BitVec.toNat_sub]
      omega
    rw [listed, Moves.memmove_apply, if_neg apart, ← listed_items]

/-- Five bytes moved up by one, over themselves. -/
theorem memmove_moves_up :
    let memory : ByteMemory := fun addr => addr.setWidth 8
    (memory.memmove 0x1001#64 0x1000#64 5#64).1 = 0x1001#64 ∧
      (∀ index < 5, (memory.memmove 0x1001#64 0x1000#64 5#64).2 (0x1001#64 + BitVec.ofNat 64 index) =
        memory (0x1000#64 + BitVec.ofNat 64 index)) ∧
      ∀ addr, ¬ Covers 0x1001#64 5 addr → (memory.memmove 0x1001#64 0x1000#64 5#64).2 addr = memory addr :=
  memmove_moves _ 0x1001#64 0x1000#64 5#64 (by unfold InMemory; decide) (by unfold InMemory; decide)

/-- The distance of an address from a place in an array. -/
theorem sub_place (base addr : BitVec 64) {offset : Nat} (small : offset < 2 ^ 64) :
    (addr - (base + BitVec.ofNat 64 offset)).toNat =
      ((addr - base).toNat + (2 ^ 64 - offset)) % 2 ^ 64 := by
  have bound := addr.isLt
  have bound' := base.isLt
  simp only [BitVec.toNat_sub, BitVec.toNat_add, BitVec.toNat_ofNat]
  omega

/-- An array in memory is moved like any array, and memory outside of it does not change. -/
theorem Holds.memmove {memory : ByteMemory} {base : BitVec 64} {size : Nat} {items : Nat → BitVec 8}
    (holds : memory.Holds base size items) (room : InMemory base size) (small : size < 2 ^ 64)
    {dest src count : Nat} (inside : dest + count ≤ size) (inside' : src + count ≤ size) :
    (memory.memmove (base + BitVec.ofNat 64 dest) (base + BitVec.ofNat 64 src) (BitVec.ofNat 64 count)).2.Holds
        base size (Moves.memmove dest src count items) ∧
      ∀ addr, ¬ Covers base size addr →
        (memory.memmove (base + BitVec.ofNat 64 dest) (base + BitVec.ofNat 64 src) (BitVec.ofNat 64 count)).2
          addr = memory addr := by
  have length : (BitVec.ofNat 64 count).toNat = count := by
    rw [BitVec.toNat_ofNat]
    omega
  have fits : ∀ {offset : Nat}, offset + count ≤ size →
      InMemory (base + BitVec.ofNat 64 offset) (BitVec.ofNat 64 count).toNat := by
    intro offset within
    simp only [InMemory] at room ⊢
    rw [length, BitVec.toNat_add, BitVec.toNat_ofNat]
    omega
  obtain ⟨-, moved, kept⟩ := memmove_moves memory _ _ _ (fits inside) (fits inside')
  rw [length] at moved kept
  refine ⟨fun index few => ?_, fun addr outside => kept addr ?_⟩
  · by_cases target : dest ≤ index ∧ index < dest + count
    · -- The byte comes from as far behind the source.
      obtain ⟨offset, rfl⟩ := Nat.exists_eq_add_of_le target.1
      rw [Moves.memmove_inside target.1 target.2, Nat.add_sub_cancel_left, BitVec.ofNat_add, ← BitVec.add_assoc,
        moved offset (by omega), BitVec.add_assoc, ← BitVec.ofNat_add]
      exact holds _ (by omega)
    · rw [Moves.memmove_apply, if_neg target, kept]
      · exact holds index few
      · rw [Covers, sub_place base _ (by omega), add_sub_base base (by omega)]
        omega
  · rw [Covers] at outside ⊢
    rw [sub_place base addr (by omega)]
    have bound := (addr - base).isLt
    omega

end ByteMemory

end Pocky
