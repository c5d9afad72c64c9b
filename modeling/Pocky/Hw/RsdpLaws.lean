import Mathlib.Data.Nat.Find
import Pocky.Hw.Acpi

/-! When the scan for the root pointer finds the first valid one, in spite of the padding it sums up. -/

namespace Pocky

/-- The name and the first twenty bytes are right. -/
def HeadedRsdp (memory : ByteMemory) (addr : BitVec 64) : Prop :=
  hasSignature memory addr = true ∧ byteSum memory addr 20 = 0

/-- A root pointer as it should be: in a later revision all its members add up to zero as well. -/
def ValidRsdp (memory : ByteMemory) (addr : BitVec 64) : Prop :=
  HeadedRsdp memory addr ∧ (2 ≤ rsdpRevision memory addr → byteSum memory addr (recordEnd acpiRsdp) = 0)

/-- The sum of the bytes that pad the record. -/
def paddingSum (memory : ByteMemory) (addr : BitVec 64) : BitVec 8 :=
  byteSum memory (addr + BitVec.ofNat 64 (recordEnd acpiRsdp)) (recordSize acpiRsdp - recordEnd acpiRsdp)

/-- A root pointer whose members add up to zero together with the padding. -/
def PaddedRsdp (memory : ByteMemory) (addr : BitVec 64) : Prop :=
  HeadedRsdp memory addr ∧
    (2 ≤ rsdpRevision memory addr → byteSum memory addr (recordEnd acpiRsdp) + paddingSum memory addr = 0)

/-- Bytes can be added up in two parts. -/
theorem byteSum_add (memory : ByteMemory) (addr : BitVec 64) (count more : Nat) :
    byteSum memory addr (count + more) =
      byteSum memory addr count + byteSum memory (addr + BitVec.ofNat 64 count) more := by
  induction more with
  | zero => simp [byteSum]
  | succ more ih =>
    rw [← Nat.add_assoc, byteSum, byteSum, ih, BitVec.add_assoc, BitVec.add_assoc, ← BitVec.ofNat_add]

/-- The sum is taken over the padding too. -/
theorem acceptsRsdp_iff (memory : ByteMemory) (addr : BitVec 64) :
    acceptsRsdp memory addr = true ↔ PaddedRsdp memory addr := by
  have parts : byteSum memory addr (recordSize acpiRsdp) =
      byteSum memory addr (recordEnd acpiRsdp) + paddingSum memory addr :=
    byteSum_add memory addr 36 4
  rw [acceptsRsdp, Bool.and_eq_true, Bool.and_eq_true, beq_iff_eq, parts]
  apply and_congr_right
  intro _
  by_cases later : 2 ≤ rsdpRevision memory addr
  · rw [if_pos later, beq_iff_eq]
    exact ⟨fun sum _ => sum, fun sum => sum later⟩
  · rw [if_neg later]
    exact ⟨fun _ revision => absurd revision later, fun _ => rfl⟩

/-- An address of the scan. -/
def scanned (start : BitVec 64) (index : Nat) : BitVec 64 := start + BitVec.ofNat 64 (16 * index)

/-- An address of the scan lies before its end. -/
def InScan (start stop : BitVec 64) (index : Nat) : Prop := start.toNat + 16 * index < stop.toNat

/-- An answer is the first valid root pointer of the scan, or there is none. -/
def FirstValid (memory : ByteMemory) (start stop : BitVec 64) : Option (BitVec 64) → Prop
  | some addr => ∃ index, InScan start stop index ∧ addr = scanned start index ∧
    ValidRsdp memory addr ∧ ∀ earlier < index, ¬ ValidRsdp memory (scanned start earlier)
  | none => ∀ index, InScan start stop index → ¬ ValidRsdp memory (scanned start index)

/-- The scan starts at its first address. -/
theorem scanned_zero (start : BitVec 64) : scanned start 0 = start := by
  simp [scanned]

/-- The addresses of a scan are those of a scan that starts one step later. -/
theorem scanned_step (start : BitVec 64) (index : Nat) :
    scanned (start + 16#64) index = scanned start (index + 1) := by
  rw [scanned, scanned, BitVec.add_assoc, Nat.mul_add, Nat.add_comm, BitVec.ofNat_add]

/-- The addresses before one of the scan are in the scan. -/
theorem InScan.earlier {start stop : BitVec 64} {index skipped : Nat} (inside : InScan start stop index)
    (low : skipped < index) : InScan start stop skipped := by
  simp only [InScan] at inside ⊢
  omega

/-- Before the end of a scan its addresses do not wrap around. -/
theorem scanned_toNat {start stop : BitVec 64} {index : Nat} (inside : InScan start stop index) :
    (scanned start index).toNat = start.toNat + 16 * index := by
  have bound := stop.isLt
  simp only [InScan] at inside
  simp only [scanned, BitVec.toNat_add, BitVec.toNat_ofNat]
  omega

section Scan

variable {memory : ByteMemory} {start stop : BitVec 64}

/-- More rounds do not change an answer. -/
theorem findRsdp_more {rounds : Nat} {addr : BitVec 64} {answer : Option (BitVec 64)} (more : Nat)
    (found : findRsdp memory stop rounds addr = .ok answer) :
    findRsdp memory stop (rounds + more) addr = .ok answer := by
  induction rounds generalizing addr with
  | zero => cases found
  | succ rounds ih =>
    rw [findRsdp] at found
    rw [Nat.add_right_comm, findRsdp]
    by_cases before : addr < stop
    · rw [if_pos before] at found ⊢
      by_cases accepted : acceptsRsdp memory addr = true
      · rwa [if_pos accepted] at found ⊢
      · rw [if_neg accepted] at found ⊢
        exact ih found
    · rwa [if_neg before] at found ⊢

/-- There is one answer. -/
theorem findRsdp_unique {rounds others : Nat} {addr : BitVec 64} {answer other : Option (BitVec 64)}
    (found : findRsdp memory stop rounds addr = .ok answer)
    (also : findRsdp memory stop others addr = .ok other) : answer = other := by
  have first := findRsdp_more others found
  have second := findRsdp_more rounds also
  rw [Nat.add_comm, second] at first
  exact (Except.ok.inj first).symm

/-- What is found has been accepted. -/
theorem findRsdp_accepts {rounds : Nat} {addr answer : BitVec 64}
    (found : findRsdp memory stop rounds addr = .ok (some answer)) : acceptsRsdp memory answer = true := by
  induction rounds generalizing addr with
  | zero => cases found
  | succ rounds ih =>
    rw [findRsdp] at found
    by_cases before : addr < stop
    · rw [if_pos before] at found
      by_cases accepted : acceptsRsdp memory addr = true
      · rw [if_pos accepted] at found
        cases found
        exact accepted
      · rw [if_neg accepted] at found
        exact ih found
    · rw [if_neg before] at found
      cases found

/-- Nothing is found only where some address lies behind the end. -/
theorem findRsdp_passes {rounds : Nat} {addr : BitVec 64}
    (found : findRsdp memory stop rounds addr = .ok none) : ∃ index, ¬ scanned addr index < stop := by
  induction rounds generalizing addr with
  | zero => cases found
  | succ rounds ih =>
    rw [findRsdp] at found
    by_cases before : addr < stop
    · rw [if_pos before] at found
      by_cases accepted : acceptsRsdp memory addr = true
      · rw [if_pos accepted] at found
        cases found
      · rw [if_neg accepted] at found
        obtain ⟨index, behind⟩ := ih found
        rw [scanned_step] at behind
        exact ⟨index + 1, behind⟩
    · exact ⟨0, by rwa [scanned_zero]⟩

/-- Addresses that are not accepted are passed over. -/
theorem findRsdp_skip {skipped : Nat} (rounds : Nat)
    (before : ∀ index < skipped, InScan start stop index ∧ ¬ acceptsRsdp memory (scanned start index) = true) :
    findRsdp memory stop (rounds + skipped) start = findRsdp memory stop rounds (scanned start skipped) := by
  -- By induction on how many there are, the last of them taken off.
  induction skipped generalizing rounds with
  | zero => rw [scanned_zero, Nat.add_zero]
  | succ skipped ih =>
    obtain ⟨inside, refused⟩ := before skipped (Nat.lt_succ_self _)
    have lower : scanned start skipped < stop := by
      rw [BitVec.lt_def, scanned_toNat inside]
      exact inside
    have next : scanned start skipped + 16#64 = scanned start (skipped + 1) := by
      rw [scanned, scanned, BitVec.add_assoc, Nat.mul_add, BitVec.ofNat_add]
    rw [← Nat.add_assoc, Nat.add_right_comm, ih (rounds + 1) fun index low => before index (Nat.lt_succ_of_lt low),
      findRsdp, if_pos lower, if_neg refused, next]

/-- The first address that is accepted is found. -/
theorem findRsdp_first {index : Nat} (inside : InScan start stop index)
    (accepted : acceptsRsdp memory (scanned start index) = true)
    (earlier : ∀ skipped < index, ¬ acceptsRsdp memory (scanned start skipped) = true) :
    findRsdp memory stop (1 + index) start = .ok (some (scanned start index)) := by
  have before : ∀ skipped < index,
      InScan start stop skipped ∧ ¬ acceptsRsdp memory (scanned start skipped) = true :=
    fun skipped low => ⟨inside.earlier low, earlier skipped low⟩
  have lower : scanned start index < stop := by
    rw [BitVec.lt_def, scanned_toNat inside]
    exact inside
  rw [findRsdp_skip 1 before, findRsdp, if_pos lower, if_pos accepted]

/-- Where no address is accepted, and the step over the end does not wrap around, nothing is found. -/
theorem findRsdp_nothing
    (refused : ∀ index, InScan start stop index → ¬ acceptsRsdp memory (scanned start index) = true)
    (ends : ∀ index, InScan start stop index → start.toNat + 16 * (index + 1) < 2 ^ 64) :
    ∃ rounds, findRsdp memory stop rounds start = .ok none := by
  -- The number of addresses before the end.
  have steps : ∃ count, (∀ index < count, InScan start stop index) ∧ ¬ InScan start stop count := by
    refine ⟨(stop.toNat - start.toNat + 15) / 16, fun index low => ?_, ?_⟩
    · simp only [InScan]
      omega
    · simp only [InScan]
      omega
  obtain ⟨count, inside, outside⟩ := steps
  use 1 + count
  rw [findRsdp_skip 1 fun index low => ⟨inside index low, refused index (inside index low)⟩, findRsdp, if_neg]
  have small : start.toNat + 16 * count < 2 ^ 64 := by
    cases count with
    | zero => exact start.isLt
    | succ count => exact ends count (inside count (Nat.lt_succ_self _))
  simp only [InScan] at outside
  simp only [scanned, BitVec.lt_def, BitVec.toNat_add, BitVec.toNat_ofNat]
  omega

/-- A scan whose step over the end wraps around never comes to an end by itself. -/
theorem findRsdp_wraps {rounds index : Nat} (inside : InScan start stop index)
    (wraps : 2 ^ 64 ≤ start.toNat + 16 * (index + 1)) : findRsdp memory stop rounds start ≠ .ok none := by
  intro found
  obtain ⟨behind, outside⟩ := findRsdp_passes found
  -- All addresses have the same remainder, and none with it lies behind the end.
  simp only [InScan] at inside
  simp only [scanned, BitVec.lt_def, BitVec.toNat_add, BitVec.toNat_ofNat] at outside
  omega

end Scan

/--
The padding does no harm to a scan.

Either the first address that passes with or without it passes both ways, or there is no such address
before the end, and the step over the end does not wrap around.
-/
def PaddingHarmless (memory : ByteMemory) (start stop : BitVec 64) : Prop :=
  (∃ index, InScan start stop index ∧ ValidRsdp memory (scanned start index) ∧
    (2 ≤ rsdpRevision memory (scanned start index) → paddingSum memory (scanned start index) = 0) ∧
    ∀ earlier < index, ¬ ValidRsdp memory (scanned start earlier) ∧ ¬ PaddedRsdp memory (scanned start earlier)) ∨
  ((∀ index, InScan start stop index →
      ¬ ValidRsdp memory (scanned start index) ∧ ¬ PaddedRsdp memory (scanned start index)) ∧
    ∀ index, InScan start stop index → start.toNat + 16 * (index + 1) < 2 ^ 64)

/-- A valid root pointer passes with the padding exactly if that does not change the sum. -/
theorem ValidRsdp.padded_iff {memory : ByteMemory} {addr : BitVec 64} (valid : ValidRsdp memory addr) :
    PaddedRsdp memory addr ↔ (2 ≤ rsdpRevision memory addr → paddingSum memory addr = 0) := by
  constructor
  · intro padded later
    have sum := padded.2 later
    rw [valid.2 later] at sum
    exact (BitVec.zero_add _).symm.trans sum
  · intro harmless
    refine ⟨valid.1, fun later => ?_⟩
    rw [valid.2 later, harmless later]
    rfl

/-- The scan ends with the first valid root pointer, or with none, exactly if the padding does no harm. -/
theorem findRsdp_firstValid_iff (memory : ByteMemory) (start stop : BitVec 64) :
    (∃ rounds answer, findRsdp memory stop rounds start = .ok answer ∧ FirstValid memory start stop answer) ↔
      PaddingHarmless memory start stop := by
  classical
  constructor
  · rintro ⟨rounds, answer, found, first⟩
    by_cases accepted : ∃ index, InScan start stop index ∧ acceptsRsdp memory (scanned start index) = true
    -- The first address that is accepted is the answer.
    · left
      obtain ⟨index, ⟨inside, passes⟩, lowest⟩ : ∃ index,
          (InScan start stop index ∧ acceptsRsdp memory (scanned start index) = true) ∧
          ∀ skipped < index, ¬ (InScan start stop skipped ∧ acceptsRsdp memory (scanned start skipped) = true) :=
        ⟨Nat.find accepted, Nat.find_spec accepted, fun _ => Nat.find_min accepted⟩
      have earlier : ∀ skipped < index, ¬ acceptsRsdp memory (scanned start skipped) = true :=
        fun skipped low passes => lowest skipped low ⟨inside.earlier low, passes⟩
      have same := findRsdp_unique found (findRsdp_first inside passes earlier)
      subst same
      obtain ⟨other, within, place, valid, before⟩ := first
      -- Addresses of the scan differ, so that it is the first valid one too.
      have index_eq : other = index := by
        have numbers := congrArg BitVec.toNat place
        rw [scanned_toNat inside, scanned_toNat within] at numbers
        omega
      subst index_eq
      refine ⟨other, inside, valid, valid.padded_iff.mp ((acceptsRsdp_iff _ _).mp passes), fun skipped low => ?_⟩
      exact ⟨before skipped low, fun padded => earlier skipped low ((acceptsRsdp_iff _ _).mpr padded)⟩
    · right
      have refused : ∀ index, InScan start stop index → ¬ acceptsRsdp memory (scanned start index) = true :=
        fun index inside passes => accepted ⟨index, inside, passes⟩
      cases answer with
      | some addr =>
        -- What is found has been accepted, and lies before the end.
        obtain ⟨index, inside, place, -, -⟩ := first
        subst place
        exact absurd (findRsdp_accepts found) (refused index inside)
      | none =>
        refine ⟨fun index inside => ?_, fun index inside => ?_⟩
        · exact ⟨first index inside, fun padded => refused index inside ((acceptsRsdp_iff _ _).mpr padded)⟩
        · by_contra wraps
          exact findRsdp_wraps inside (Nat.le_of_not_lt wraps) found
  · rintro (⟨index, inside, valid, harmless, earlier⟩ | ⟨neither, ends⟩)
    · have accepted := (acceptsRsdp_iff _ _).mpr (valid.padded_iff.mpr harmless)
      have found := findRsdp_first inside accepted fun skipped low passes =>
        (earlier skipped low).2 ((acceptsRsdp_iff _ _).mp passes)
      exact ⟨_, _, found, index, inside, rfl, valid, fun skipped low => (earlier skipped low).1⟩
    · obtain ⟨rounds, found⟩ := findRsdp_nothing
        (fun index inside passes => (neither index inside).2 ((acceptsRsdp_iff _ _).mp passes)) ends
      exact ⟨rounds, none, found, fun index inside => (neither index inside).1⟩

/-- A root pointer of the second revision at the start of the firmware's area, with a byte of the padding. -/
def sampleRsdp (padding : BitVec 8) : ByteMemory := fun addr =>
  if addr < 0xE0008#64 ∧ 0xE0000#64 ≤ addr then rsdpSignature.getD (addr - 0xE0000#64).toNat 0
  else if addr = 0xE0008#64 then 0xDF
  else if addr = 0xE000F#64 then 2
  else if addr = 0xE0024#64 then padding
  else 0

/-- A valid root pointer is passed over on account of a byte behind it. -/
theorem findRsdp_misses_valid : ¬ ∀ (memory : ByteMemory) (start stop : BitVec 64),
    ∃ rounds answer, findRsdp memory stop rounds start = .ok answer ∧ FirstValid memory start stop answer := by
  intro always
  obtain ⟨rounds, answer, found, first⟩ := always (sampleRsdp 1) 0xE0000#64 0xE0010#64
  -- It is the only address there is.
  have valid : ValidRsdp (sampleRsdp 1) (scanned 0xE0000#64 0) :=
    ⟨⟨by decide +kernel, by decide +kernel⟩, by decide +kernel⟩
  have refused : ¬ acceptsRsdp (sampleRsdp 1) (scanned 0xE0000#64 0) = true := by decide +kernel
  cases answer with
  | none => exact first 0 (by unfold InScan; decide) valid
  | some addr =>
    obtain ⟨index, inside, place, -, -⟩ := first
    have only : index = 0 := by
      simp only [InScan, BitVec.toNat_ofNat] at inside
      omega
    subst only place
    exact refused (findRsdp_accepts found)

end Pocky
