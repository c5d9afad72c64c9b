import Pocky.Lib.ByteMemory

/-! Words that lie one after the other in memory, as on a stack that grows downwards. -/

namespace Pocky.ByteMemory

/-- The words from an address up. -/
def Words (memory : ByteMemory) : BitVec 64 → List (BitVec 64) → Prop
  | _, [] => True
  | addr, word :: rest => readWord memory addr = word ∧ Words memory (addr + 8#64) rest

/-- An address behind a base is covered by a longer range from it. -/
theorem covers_behind {base : BitVec 64} {length index : Nat} {addr : BitVec 64}
    (covered : Covers (base + BitVec.ofNat 64 index) length addr) (small : index + length ≤ 2 ^ 64) :
    Covers base (index + length) addr := by
  have low := base.isLt
  have low' := addr.isLt
  simp only [Covers, BitVec.toNat_sub, BitVec.toNat_add, BitVec.toNat_ofNat] at covered ⊢
  omega

/-- A range below a base is not reached by one from the base. -/
theorem not_covers_below {base : BitVec 64} {length below : Nat} {addr : BitVec 64}
    (covered : Covers base length addr) (small : below + length ≤ 2 ^ 64) :
    ¬ Covers (base - BitVec.ofNat 64 below) below addr := by
  have low := base.isLt
  have low' := addr.isLt
  simp only [Covers, BitVec.toNat_sub, BitVec.toNat_ofNat] at covered ⊢
  omega

namespace Words

variable {memory memory' : ByteMemory} {addr : BitVec 64} {words : List (BitVec 64)}

/-- Words depend on the bytes they cover. -/
theorem congr (held : Words memory addr words) (small : 8 * words.length ≤ 2 ^ 64)
    (same : ∀ other, Covers addr (8 * words.length) other → memory' other = memory other) :
    Words memory' addr words := by
  -- By induction on the words, upwards.
  induction words generalizing addr with
  | nil => exact trivial
  | cons word rest ih =>
    rw [List.length_cons] at small same
    refine ⟨?_, ih held.2 (by omega) fun other covered => same other ?_⟩
    · rw [← held.1]
      refine readWord_congr fun index inside => same _ ?_
      rw [Covers, add_sub_base addr (by omega)]
      omega
    · have longer := covers_behind covered (by omega)
      rwa [show 8 + 8 * rest.length = 8 * (rest.length + 1) by omega] at longer

/-- One more word is put below the others. -/
theorem push (held : Words memory addr words) (small : 8 * (words.length + 1) ≤ 2 ^ 64)
    (value : BitVec 64) : Words (memory.write 8 (addr - 8#64) value) (addr - 8#64) (value :: words) := by
  refine ⟨readWord_write _ _ _, ?_⟩
  rw [BitVec.sub_add_cancel]
  exact held.congr (by omega) fun other covered =>
    write_outside _ _ (not_covers_below covered (by omega))

/-- Words lie behind others. -/
theorem append {before after : List (BitVec 64)} :
    Words memory addr (before ++ after) ↔ Words memory addr before ∧
      Words memory (addr + BitVec.ofNat 64 (8 * before.length)) after := by
  induction before generalizing addr with
  | nil => simp [Words]
  | cons word rest ih =>
    have behind : addr + 8#64 + BitVec.ofNat 64 (8 * rest.length) =
        addr + BitVec.ofNat 64 (8 * (rest.length + 1)) := by
      apply BitVec.eq_of_toNat_eq
      simp only [BitVec.toNat_add, BitVec.toNat_ofNat]
      omega
    rw [List.cons_append, Words, Words, ih, behind, List.length_cons, and_assoc]

end Words

end Pocky.ByteMemory
