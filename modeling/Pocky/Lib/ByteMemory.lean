import Mathlib.Algebra.Order.Ring.Int
import Mathlib.Data.Nat.Basic

/-! Byte-addressed memory with 64-bit addresses that wrap around, and the words stored in it. -/

namespace Pocky

/-- The byte at each address. -/
abbrev ByteMemory := BitVec 64 → BitVec 8

namespace ByteMemory

/-- An address lies in a range of bytes, which may wrap around the end of memory. -/
def Covers (base : BitVec 64) (length : Nat) (addr : BitVec 64) : Prop := (addr - base).toNat < length

instance (base : BitVec 64) (length : Nat) (addr : BitVec 64) : Decidable (Covers base length addr) :=
  inferInstanceAs (Decidable ((addr - base).toNat < length))

/-- Two ranges of bytes share no address. -/
def Apart (base : BitVec 64) (length : Nat) (other : BitVec 64) (length' : Nat) : Prop :=
  ∀ addr, Covers base length addr → ¬ Covers other length' addr

/-- The bytes of a word, from the given one up, as a number. -/
def digits (memory : ByteMemory) (addr : BitVec 64) : Nat → Nat → Nat
  | 0, _ => 0
  | count + 1, index =>
    (memory (addr + BitVec.ofNat 64 index)).toNat + 256 * digits memory addr count (index + 1)

/-- The eight bytes at an address as one word, the lowest byte first. -/
def readWord (memory : ByteMemory) (addr : BitVec 64) : BitVec 64 :=
  BitVec.ofNat 64 (digits memory addr 8 0)

/-- Storing the lowest bytes of a word at an address. -/
def write (memory : ByteMemory) (count : Nat) (addr value : BitVec 64) : ByteMemory :=
  fun other =>
    if Covers addr count other then value.extractLsb' (8 * (other - addr).toNat) 8 else memory other

/-- Numbers depend on their bytes. -/
theorem digits_congr {memory memory' : ByteMemory} {addr : BitVec 64} {count first : Nat}
    (same : ∀ index, first ≤ index → index < first + count →
      memory' (addr + BitVec.ofNat 64 index) = memory (addr + BitVec.ofNat 64 index)) :
    digits memory' addr count first = digits memory addr count first := by
  -- By induction on the bytes that are left.
  induction count generalizing first with
  | zero => rfl
  | succ count ih =>
    rw [digits, digits, same first (Nat.le_refl _) (by omega),
      ih fun index low high => same index (by omega) (by omega)]

/-- Words depend on their eight bytes. -/
theorem readWord_congr {memory memory' : ByteMemory} {addr : BitVec 64}
    (same : ∀ index < 8, memory' (addr + BitVec.ofNat 64 index) =
      memory (addr + BitVec.ofNat 64 index)) : readWord memory' addr = readWord memory addr := by
  rw [readWord, digits_congr fun index _ high => same index (by omega), readWord]

/-- How far an address is from a base. -/
theorem add_sub_base (base : BitVec 64) {offset : Nat} (small : offset < 2 ^ 64) :
    (base + BitVec.ofNat 64 offset - base).toNat = offset := by
  have bound := base.isLt
  simp only [BitVec.toNat_sub, BitVec.toNat_add, BitVec.toNat_ofNat]
  omega

/-- A stored byte is read back. -/
theorem write_inside (memory : ByteMemory) (addr value : BitVec 64) {count index : Nat}
    (inside : index < count) (small : count ≤ 2 ^ 64) :
    write memory count addr value (addr + BitVec.ofNat 64 index) = value.extractLsb' (8 * index) 8 := by
  have offset := add_sub_base addr (show index < 2 ^ 64 by omega)
  rw [write, if_pos (by rw [Covers, offset]; exact inside), offset]

/-- A stored word is read back. -/
theorem readWord_write (memory : ByteMemory) (addr value : BitVec 64) :
    readWord (write memory 8 addr value) addr = value := by
  have bytes : ∀ index < 8, (write memory 8 addr value (addr + BitVec.ofNat 64 index)).toNat =
      value.toNat / 2 ^ (8 * index) % 256 := by
    intro index inside
    rw [write_inside memory addr value inside (by decide), BitVec.extractLsb'_toNat,
      Nat.shiftRight_eq_div_pow]
  have bound := value.isLt
  apply BitVec.eq_of_toNat_eq
  simp only [readWord, digits, BitVec.toNat_ofNat, bytes 0 (by decide), bytes 1 (by decide),
    bytes 2 (by decide), bytes 3 (by decide), bytes 4 (by decide), bytes 5 (by decide),
    bytes 6 (by decide), bytes 7 (by decide), Nat.reduceAdd, Nat.reduceMul, Nat.reducePow]
  omega

/-- Bytes outside the stored ones are not affected. -/
theorem write_outside (memory : ByteMemory) {count : Nat} {addr other : BitVec 64}
    (value : BitVec 64) (outside : ¬ Covers addr count other) :
    write memory count addr value other = memory other := if_neg outside

/-- Words outside the stored bytes are not affected. -/
theorem readWord_write_apart (memory : ByteMemory) {count : Nat} {addr other : BitVec 64}
    (value : BitVec 64) (apart : ∀ index < 8, ¬ Covers addr count (other + BitVec.ofNat 64 index)) :
    readWord (write memory count addr value) other = readWord memory other :=
  readWord_congr fun index inside => write_outside memory value (apart index inside)

/-- Words of one record at other offsets are not affected. -/
theorem readWord_write_offset (memory : ByteMemory) (base value : BitVec 64) {count here there : Nat}
    (low : here < 2 ^ 32) (low' : there < 2 ^ 32) (few : count ≤ 8)
    (apart : here + count ≤ there ∨ there + 8 ≤ here) :
    readWord (write memory count (base + BitVec.ofNat 64 here) value) (base + BitVec.ofNat 64 there) =
      readWord memory (base + BitVec.ofNat 64 there) := by
  apply readWord_write_apart
  intro index inside
  have bound := base.isLt
  simp only [Covers, BitVec.toNat_sub, BitVec.toNat_add, BitVec.toNat_ofNat]
  omega

end ByteMemory

end Pocky
