import Pocky.Memory.PhysicalMemory
import Mathlib.Data.Finset.Card
import Mathlib.Data.Finset.Range
import Mathlib.Algebra.Order.Group.Nat

/-! The frame allocator keeps its counter, its bitmap and its answers in step over every run. -/

namespace Pocky

namespace PhysicalMemoryManager

/-- Whether a frame's bit is set, read as a bit of its word. -/
theorem bitSet_eq_getLsbD (bitmap : Nat → BitVec 32) (frame : Nat) :
    bitSet bitmap frame = (bitmap (frame / 32)).getLsbD (frame % 32) := by
  -- The mask has a single one bit, so the test reads exactly that position.
  have within : frame % 32 < 32 := Nat.mod_lt _ (by decide)
  unfold bitSet
  generalize bitmap (frame / 32) = word
  generalize frame % 32 = position at within
  cases read : word.getLsbD position with
  | true =>
    have nonzero : word &&& (1#32 <<< position) ≠ 0#32 := by
      intro zero
      have bit := congrArg (fun w => BitVec.getLsbD w position) zero
      simp only [BitVec.getLsbD_and, read, BitVec.getLsbD_shiftLeft, within] at bit
      simp at bit
    simpa using nonzero
  | false =>
    have zero : word &&& (1#32 <<< position) = 0#32 := by
      apply BitVec.eq_of_getLsbD_eq
      intro i bound
      by_cases same : i = position
      · subst same; simp [read]
      · simp only [BitVec.getLsbD_and, BitVec.getLsbD_shiftLeft, BitVec.getLsbD_one,
          BitVec.getLsbD_zero]
        have : ¬ (i - position = 0 ∧ ¬ i < position) := by omega
        simp only [bound, decide_true, Bool.true_and]
        by_cases low : i < position
        · simp [low]
        · simp [low]; omega
    simp [zero]

/-- Two frames share both word and bit position only when they are the same frame. -/
theorem frame_eq_of_word_bit {a b : Nat} (word : a / 32 = b / 32) (bit : a % 32 = b % 32) :
    a = b := by
  omega

/-- Setting a bit turns that frame used and leaves every other frame as it was. -/
@[simp] theorem bitSet_setBit (bitmap : Nat → BitVec 32) (frame other : Nat) :
    bitSet (setBit bitmap frame) other = (decide (other = frame) || bitSet bitmap other) := by
  simp only [bitSet_eq_getLsbD]
  by_cases word : other / 32 = frame / 32
  · -- Inside the touched word only the masked position gains a bit.
    have within : other % 32 < 32 := Nat.mod_lt _ (by decide)
    rw [setBit, word, Function.update_self]
    simp only [BitVec.getLsbD_or, BitVec.getLsbD_shiftLeft, BitVec.getLsbD_one, within,
      decide_true, Bool.true_and]
    by_cases same : other = frame
    · subst same; simp
    · have apart : other % 32 ≠ frame % 32 := fun bit => same (frame_eq_of_word_bit word bit)
      by_cases low : other % 32 < frame % 32
      · simp [same, low]
      · have : ¬ other % 32 - frame % 32 = 0 := by omega
        simp [same, low, this]
  · -- Another word is not touched at all.
    have same : other ≠ frame := fun eq => word (by rw [eq])
    rw [setBit, Function.update_of_ne word]
    simp [same]

/-- Clearing a bit turns that frame free and leaves every other frame as it was. -/
@[simp] theorem bitSet_clearBit (bitmap : Nat → BitVec 32) (frame other : Nat) :
    bitSet (clearBit bitmap frame) other = (decide (other ≠ frame) && bitSet bitmap other) := by
  simp only [bitSet_eq_getLsbD]
  by_cases word : other / 32 = frame / 32
  · have within : other % 32 < 32 := Nat.mod_lt _ (by decide)
    rw [clearBit, word, Function.update_self]
    simp only [BitVec.getLsbD_and, BitVec.getLsbD_not, BitVec.getLsbD_shiftLeft,
      BitVec.getLsbD_one, within, decide_true, Bool.true_and]
    by_cases same : other = frame
    · subst same; simp
    · have apart : other % 32 ≠ frame % 32 := fun bit => same (frame_eq_of_word_bit word bit)
      by_cases low : other % 32 < frame % 32
      · simp [same, low]
      · have : ¬ other % 32 - frame % 32 = 0 := by omega
        simp [same, low, this]
  · have same : other ≠ frame := fun eq => word (by rw [eq])
    rw [clearBit, Function.update_of_ne word]
    simp [same]

/-- The frames whose bit is clear, among those the region holds. -/
def freeSet (pmm : PhysicalMemoryManager) : Finset Nat :=
  (Finset.range pmm.totalFrames).filter fun frame => bitSet pmm.bitmap frame = false

/-- A frame is free when it lies in the region and its bit is clear. -/
theorem mem_freeSet {pmm : PhysicalMemoryManager} {frame : Nat} :
    frame ∈ pmm.freeSet ↔ frame < pmm.totalFrames ∧ bitSet pmm.bitmap frame = false := by
  simp [freeSet]

/--
What every reachable allocator state satisfies.

The region lies inside the address space above address zero, so a frame's address is never null.
-/
structure Consistent (pmm : PhysicalMemoryManager) : Prop where
  /-- The counter is the number of clear bits. -/
  counted : pmm.freeFrames = pmm.freeSet.card
  /-- No frame sits at address zero. -/
  positive : 0 < pmm.memoryStart
  /-- Every frame's last byte has a 64-bit address. -/
  fits : pmm.memoryStart + pageSize * pmm.totalFrames < 2 ^ 64

/-- The counter never exceeds the number of frames. -/
theorem Consistent.freeFrames_le {pmm : PhysicalMemoryManager} (consistent : pmm.Consistent) :
    pmm.freeFrames ≤ pmm.totalFrames := by
  rw [consistent.counted]
  calc pmm.freeSet.card ≤ (Finset.range pmm.totalFrames).card := Finset.card_filter_le _ _
    _ = pmm.totalFrames := Finset.card_range _

/-- The number of frames is itself a machine word. -/
theorem Consistent.totalFrames_lt {pmm : PhysicalMemoryManager} (consistent : pmm.Consistent) :
    pmm.totalFrames < 2 ^ 64 := by
  have fits := consistent.fits
  simp only [pageSize] at fits
  omega

/-- Using up one free frame removes exactly that frame from the free set. -/
theorem freeSet_setBit (pmm : PhysicalMemoryManager) (frame count : Nat) :
    freeSet { pmm with bitmap := setBit pmm.bitmap frame, freeFrames := count } =
      pmm.freeSet.erase frame := by
  ext other
  simp only [mem_freeSet, Finset.mem_erase, bitSet_setBit, Bool.or_eq_false_iff,
    decide_eq_false_iff_not]
  tauto

/-- Returning a used frame of the region adds exactly that frame to the free set. -/
theorem freeSet_clearBit (pmm : PhysicalMemoryManager) {frame : Nat} (count : Nat)
    (inside : frame < pmm.totalFrames) :
    freeSet { pmm with bitmap := clearBit pmm.bitmap frame, freeFrames := count } =
      insert frame pmm.freeSet := by
  ext other
  simp only [mem_freeSet, Finset.mem_insert, bitSet_clearBit, Bool.and_eq_false_iff,
    decide_eq_false_iff_not, not_not]
  constructor
  · rintro ⟨bound, same | clear⟩
    · exact Or.inl same
    · exact Or.inr ⟨bound, clear⟩
  · rintro (same | ⟨bound, clear⟩)
    · exact ⟨same ▸ inside, Or.inl same⟩
    · exact ⟨bound, Or.inr clear⟩

/-- Counting down from a positive word is ordinary subtraction. -/
theorem wordSub_one {a : Nat} (positive : 0 < a) (bounded : a < 2 ^ 64) :
    wordSub a 1 = a - 1 := by
  unfold wordSub
  omega

/-- Taking a free frame keeps the counter equal to the number of clear bits. -/
theorem Consistent.take {pmm : PhysicalMemoryManager} (consistent : pmm.Consistent) {frame : Nat}
    (free : frame ∈ pmm.freeSet) :
    Consistent { pmm with
      bitmap := setBit pmm.bitmap frame, freeFrames := wordSub pmm.freeFrames 1 } := by
  have some : 0 < pmm.freeSet.card := Finset.card_pos.mpr ⟨frame, free⟩
  have counted := consistent.counted
  have bounded := consistent.freeFrames_le
  have small := consistent.totalFrames_lt
  refine ⟨?_, consistent.positive, consistent.fits⟩
  rw [freeSet_setBit, Finset.card_erase_of_mem free]
  show wordSub pmm.freeFrames 1 = _
  rw [wordSub_one (by omega) (by omega), counted]

/-- Reserving a run of frames sets exactly their bits. -/
theorem bitSet_reserveFrames (pmm : PhysicalMemoryManager) (first count frame : Nat) :
    bitSet (pmm.reserveFrames first count).bitmap frame =
      (decide (first ≤ frame ∧ frame < first + count) || bitSet pmm.bitmap frame) := by
  induction count with
  | zero => simp [reserveFrames]
  | succ count ih =>
    -- The last visited frame is new; the earlier ones are the induction hypothesis.
    simp only [reserveFrames, bitSet_setBit, ih, ← Bool.or_assoc]
    congr 1
    rw [← Bool.decide_or, decide_eq_decide]
    omega

/-- Reserving frames moves neither end of the region. -/
@[simp] theorem reserveFrames_totalFrames (pmm : PhysicalMemoryManager) (first count : Nat) :
    (pmm.reserveFrames first count).totalFrames = pmm.totalFrames := by
  induction count with
  | zero => rfl
  | succ count ih => exact ih

/-- Reserving frames leaves the base address alone. -/
@[simp] theorem reserveFrames_memoryStart (pmm : PhysicalMemoryManager) (first count : Nat) :
    (pmm.reserveFrames first count).memoryStart = pmm.memoryStart := by
  induction count with
  | zero => rfl
  | succ count ih => exact ih

/-- Reserving a run of free frames keeps the counter right. -/
theorem Consistent.reserve {pmm : PhysicalMemoryManager} (consistent : pmm.Consistent)
    (first count : Nat) (inside : first + count ≤ pmm.totalFrames)
    (clear : ∀ frame, first ≤ frame → frame < first + count → bitSet pmm.bitmap frame = false) :
    (pmm.reserveFrames first count).Consistent := by
  induction count with
  | zero => exact consistent
  | succ count ih =>
    have before := ih (by omega) fun frame low high => clear frame low (by omega)
    refine before.take ?_
    -- The frame reached now was free at the start and no earlier visit touched it.
    rw [mem_freeSet, reserveFrames_totalFrames, bitSet_reserveFrames,
      clear (first + count) (by omega) (by omega)]
    refine ⟨by omega, ?_⟩
    simp

/-- The bitmap and counters before any frame is reserved at boot. -/
def clearedFrames (pmm : PhysicalMemoryManager) : PhysicalMemoryManager :=
  { bitmap := fun word => if word < 512 then 0#32 else pmm.bitmap word
    totalFrames := 16384
    freeFrames := 16384
    memoryStart := kernelMemoryStart }

/-- Boot-time set-up reserves frames 0–255, 12288–16383 and 256–260 in that order. -/
theorem initializeFrames_eq (pmm : PhysicalMemoryManager) :
    pmm.initializeFrames kernelMemoryStart kernelMemorySize =
      ((pmm.clearedFrames.reserveFrames 0 256).reserveFrames 12288 4096).reserveFrames 256 5 := by
  have heapStart : wordSub kernelMemorySize (16 * 1024 * 1024) / pageSize = 12288 := by decide
  have total : kernelMemorySize / pageSize = 16384 := by decide
  have low : 0x100000 / pageSize = 256 := by decide
  have heap : 16 * 1024 * 1024 / pageSize = 4096 := by decide
  simp only [initializeFrames, heapStart, total, low, heap]
  rfl

/-- No frame is used before the reservations. -/
theorem bitSet_clearedFrames (pmm : PhysicalMemoryManager) {frame : Nat} (bound : frame < 16384) :
    bitSet pmm.clearedFrames.bitmap frame = false := by
  have word : frame / 32 < 512 := by omega
  simp [clearedFrames, bitSet_eq_getLsbD, word]

/-- Every frame is free before the reservations, and the counter says so. -/
theorem clearedFrames_consistent (pmm : PhysicalMemoryManager) :
    pmm.clearedFrames.Consistent := by
  have all : pmm.clearedFrames.freeSet = Finset.range pmm.clearedFrames.totalFrames := by
    ext frame
    rw [mem_freeSet, Finset.mem_range]
    exact ⟨fun free => free.1, fun bound => ⟨bound, pmm.bitSet_clearedFrames bound⟩⟩
  refine ⟨by rw [all, Finset.card_range, clearedFrames], ?_, ?_⟩
  · show 0 < kernelMemoryStart
    decide
  · show kernelMemoryStart + pageSize * 16384 < 2 ^ 64
    decide

/-- The state the kernel boots with is consistent. -/
theorem initializeFrames_consistent (pmm : PhysicalMemoryManager) :
    (pmm.initializeFrames kernelMemoryStart kernelMemorySize).Consistent := by
  have total : pmm.clearedFrames.totalFrames = 16384 := rfl
  rw [initializeFrames_eq]
  -- The three reserved runs do not meet, so each visits only free frames.
  have low := pmm.clearedFrames_consistent.reserve 0 256 (by omega)
    fun frame _ high => pmm.bitSet_clearedFrames (by omega)
  have withHeap := low.reserve 12288 4096
    (by rw [reserveFrames_totalFrames]; omega) fun frame low high => by
      rw [bitSet_reserveFrames, pmm.bitSet_clearedFrames (by omega)]
      simp
      omega
  refine withHeap.reserve 256 5
    (by rw [reserveFrames_totalFrames, reserveFrames_totalFrames]; omega) fun frame low high => ?_
  rw [bitSet_reserveFrames, bitSet_reserveFrames, pmm.bitSet_clearedFrames (by omega)]
  simp
  omega

/-- Boot-time set-up records the kernel's region. -/
theorem initializeFrames_region (pmm : PhysicalMemoryManager) :
    (pmm.initializeFrames kernelMemoryStart kernelMemorySize).memoryStart = kernelMemoryStart ∧
      (pmm.initializeFrames kernelMemoryStart kernelMemorySize).totalFrames = 16384 := by
  rw [initializeFrames_eq]
  simp [clearedFrames]

/-- A scan that stops has passed only used frames. -/
theorem firstClear_some {bitmap : Nat → BitVec 32} {remaining start frame : Nat}
    (found : firstClear bitmap remaining start = some frame) :
    start ≤ frame ∧ frame < start + remaining ∧ bitSet bitmap frame = false ∧
      ∀ lower, start ≤ lower → lower < frame → bitSet bitmap lower = true := by
  induction remaining generalizing start with
  | zero => simp [firstClear] at found
  | succ remaining ih =>
    simp only [firstClear] at found
    split at found
    · rename_i used
      obtain ⟨low, high, clear, passed⟩ := ih found
      refine ⟨by omega, by omega, clear, fun lower from_ below => ?_⟩
      rcases Nat.eq_or_lt_of_le from_ with same | later
      · exact same ▸ used
      · exact passed lower later below
    · rename_i unused
      obtain rfl := Option.some.inj found
      exact ⟨Nat.le_refl _, by omega, by simpa using unused, fun _ _ _ => by omega⟩

/-- A scan that finds nothing has seen every frame used. -/
theorem firstClear_none {bitmap : Nat → BitVec 32} {remaining start : Nat}
    (absent : firstClear bitmap remaining start = none) :
    ∀ frame, start ≤ frame → frame < start + remaining → bitSet bitmap frame = true := by
  induction remaining generalizing start with
  | zero => intro frame low high; omega
  | succ remaining ih =>
    simp only [firstClear] at absent
    split at absent
    · rename_i used
      intro frame low high
      rcases Nat.eq_or_lt_of_le low with same | later
      · exact same ▸ used
      · exact ih absent frame later (by omega)
    · simp at absent

/-- A frame inside the region has its plain address, without wrapping. -/
theorem Consistent.address {pmm : PhysicalMemoryManager} (consistent : pmm.Consistent)
    {frame : Nat} (inside : frame < pmm.totalFrames) :
    (pmm.memoryStart + pageSize * frame) % 2 ^ 64 = pmm.memoryStart + pageSize * frame := by
  have fits := consistent.fits
  simp only [pageSize] at fits ⊢
  exact Nat.mod_eq_of_lt (by omega)

/-- The two things taking a frame can do: refuse on a full region, or take the lowest free frame. -/
theorem Consistent.allocateFrame_cases {pmm : PhysicalMemoryManager}
    (consistent : pmm.Consistent) :
    (pmm.freeSet = ∅ ∧ pmm.allocateFrame = (0, pmm)) ∨
    ∃ frame ∈ pmm.freeSet, (∀ lower < frame, bitSet pmm.bitmap lower = true) ∧
      pmm.allocateFrame = (pmm.memoryStart + pageSize * frame,
        { pmm with
          bitmap := setBit pmm.bitmap frame, freeFrames := wordSub pmm.freeFrames 1 }) := by
  by_cases none : pmm.freeFrames = 0
  · left
    rw [consistent.counted, Finset.card_eq_zero] at none
    refine ⟨none, ?_⟩
    rw [allocateFrame, if_pos (by rw [consistent.counted, none]; rfl)]
  · right
    rw [allocateFrame, if_neg none]
    cases scan : firstClear pmm.bitmap pmm.totalFrames 0 with
    | none =>
      -- A positive counter promises a clear bit, so the scan cannot come back empty.
      exfalso
      obtain ⟨frame, free⟩ := Finset.card_pos.mp (by rw [← consistent.counted]; omega)
      obtain ⟨bound, clear⟩ := mem_freeSet.mp free
      have used := firstClear_none scan frame (Nat.zero_le _) (by omega)
      rw [clear] at used
      exact Bool.noConfusion used
    | some frame =>
      obtain ⟨-, bound, clear, passed⟩ := firstClear_some scan
      have inside : frame < pmm.totalFrames := by omega
      refine ⟨frame, mem_freeSet.mpr ⟨inside, clear⟩,
        fun lower below => passed lower (Nat.zero_le _) below, ?_⟩
      simp only [consistent.address inside]

/-- The two things returning an address can do: nothing, or free the used frame it lies in. -/
theorem freeFrame_cases (pmm : PhysicalMemoryManager) (addr : Nat) :
    pmm.freeFrame addr = pmm ∨
    ∃ frame < pmm.totalFrames, bitSet pmm.bitmap frame = true ∧
      pmm.memoryStart + pageSize * frame ≤ addr ∧
      addr < pmm.memoryStart + pageSize * frame + pageSize ∧
      pmm.freeFrame addr = { pmm with
        bitmap := clearBit pmm.bitmap frame
        freeFrames := (pmm.freeFrames + 1) % 2 ^ 64 } := by
  unfold freeFrame
  split
  · exact Or.inl rfl
  · rename_i above
    dsimp only
    split
    · exact Or.inl rfl
    · rename_i inside
      split
      · rename_i used
        -- The frame number is the offset divided by the frame size, so the address lies in it.
        refine Or.inr ⟨(addr - pmm.memoryStart) / pageSize, by omega, used, ?_, ?_, rfl⟩
        · simp only [pageSize]; omega
        · simp only [pageSize]; omega
      · exact Or.inl rfl

/-- Taking a frame keeps the allocator consistent. -/
theorem Consistent.allocateFrame {pmm : PhysicalMemoryManager} (consistent : pmm.Consistent) :
    pmm.allocateFrame.2.Consistent := by
  rcases consistent.allocateFrame_cases with ⟨-, same⟩ | ⟨frame, free, -, taken⟩
  · rw [same]; exact consistent
  · rw [taken]; exact consistent.take free

/-- Returning any address keeps the allocator consistent. -/
theorem Consistent.freeFrame {pmm : PhysicalMemoryManager} (consistent : pmm.Consistent)
    (addr : Nat) : (pmm.freeFrame addr).Consistent := by
  rcases pmm.freeFrame_cases addr with same | ⟨frame, inside, used, -, -, freed⟩
  · rw [same]; exact consistent
  · rw [freed]
    refine ⟨?_, consistent.positive, consistent.fits⟩
    have absent : frame ∉ pmm.freeSet := by simp [mem_freeSet, used]
    rw [freeSet_clearBit pmm _ inside, Finset.card_insert_of_notMem absent, ← consistent.counted]
    -- A used frame leaves room below the total, so the increment cannot wrap.
    have room := consistent.freeFrames_le
    have small := consistent.totalFrames_lt
    have grown : pmm.freeFrames + 1 ≤ pmm.totalFrames := by
      rw [consistent.counted, ← Finset.card_insert_of_notMem absent]
      calc (insert frame pmm.freeSet).card
          ≤ (Finset.range pmm.totalFrames).card := by
            apply Finset.card_le_card
            intro other member
            rcases Finset.mem_insert.mp member with rfl | free
            · exact Finset.mem_range.mpr inside
            · exact Finset.mem_range.mpr (mem_freeSet.mp free).1
        _ = pmm.totalFrames := Finset.card_range _
    exact Nat.mod_eq_of_lt (by omega)

/-- The region's base and length after taking a frame. -/
@[simp] theorem allocateFrame_region (pmm : PhysicalMemoryManager) :
    pmm.allocateFrame.2.memoryStart = pmm.memoryStart ∧
      pmm.allocateFrame.2.totalFrames = pmm.totalFrames := by
  unfold PhysicalMemoryManager.allocateFrame
  split
  · exact ⟨rfl, rfl⟩
  · split <;> exact ⟨rfl, rfl⟩

/-- The region's base and length after returning an address. -/
@[simp] theorem freeFrame_region (pmm : PhysicalMemoryManager) (addr : Nat) :
    (pmm.freeFrame addr).memoryStart = pmm.memoryStart ∧
      (pmm.freeFrame addr).totalFrames = pmm.totalFrames := by
  rcases pmm.freeFrame_cases addr with same | ⟨_, _, _, _, _, freed⟩
  · rw [same]; exact ⟨rfl, rfl⟩
  · rw [freed]; exact ⟨rfl, rfl⟩

/-- Returning an address outside a used frame leaves that frame used. -/
theorem bitSet_freeFrame {pmm : PhysicalMemoryManager} {addr frame : Nat}
    (used : bitSet pmm.bitmap frame = true)
    (outside : ¬ (pmm.memoryStart + pageSize * frame ≤ addr ∧
      addr < pmm.memoryStart + pageSize * frame + pageSize)) :
    bitSet (pmm.freeFrame addr).bitmap frame = true := by
  rcases pmm.freeFrame_cases addr with same | ⟨other, _, _, low, high, freed⟩
  · rw [same]; exact used
  · rw [freed, bitSet_clearBit, used]
    have apart : frame ≠ other := by
      rintro rfl
      exact outside ⟨low, high⟩
    simp [apart]

/-- Taking a frame never turns a used frame free. -/
theorem bitSet_allocateFrame {pmm : PhysicalMemoryManager} {frame : Nat}
    (used : bitSet pmm.bitmap frame = true) :
    bitSet pmm.allocateFrame.2.bitmap frame = true := by
  unfold PhysicalMemoryManager.allocateFrame
  split
  · exact used
  · split
    · simp [used]
    · exact used

end PhysicalMemoryManager

/-- The calls other parts of the kernel make on the frame allocator. -/
inductive FrameCall where
  /-- Take a frame. -/
  | allocateFrame
  /-- Return the frame an arbitrary address lies in. -/
  | freeFrame (addr : Nat)
  deriving Repr, DecidableEq

/-- The allocator after one call. -/
def FrameCall.step (pmm : PhysicalMemoryManager) : FrameCall → PhysicalMemoryManager
  | .allocateFrame => pmm.allocateFrame.2
  | .freeFrame addr => pmm.freeFrame addr

/-- The allocator after a sequence of calls. -/
def runFrameCalls (pmm : PhysicalMemoryManager) (calls : List FrameCall) :
    PhysicalMemoryManager :=
  calls.foldl FrameCall.step pmm

open PhysicalMemoryManager

/-- One call keeps the allocator consistent and its region in place. -/
theorem FrameCall.step_consistent {pmm : PhysicalMemoryManager} (consistent : pmm.Consistent)
    (call : FrameCall) :
    (call.step pmm).Consistent ∧ (call.step pmm).memoryStart = pmm.memoryStart ∧
      (call.step pmm).totalFrames = pmm.totalFrames := by
  cases call with
  | allocateFrame => exact ⟨consistent.allocateFrame, allocateFrame_region pmm⟩
  | freeFrame addr => exact ⟨consistent.freeFrame addr, freeFrame_region pmm addr⟩

/-- A whole run keeps the allocator consistent and its region in place. -/
theorem runFrameCalls_consistent {pmm : PhysicalMemoryManager} (consistent : pmm.Consistent)
    (calls : List FrameCall) :
    (runFrameCalls pmm calls).Consistent ∧
      (runFrameCalls pmm calls).memoryStart = pmm.memoryStart ∧
      (runFrameCalls pmm calls).totalFrames = pmm.totalFrames := by
  induction calls generalizing pmm with
  | nil => exact ⟨consistent, rfl, rfl⟩
  | cons call calls ih =>
    obtain ⟨kept, start, total⟩ := call.step_consistent consistent
    obtain ⟨final, start', total'⟩ := ih kept
    exact ⟨final, start'.trans start, total'.trans total⟩

/-- A used frame stays used over every run that returns no address inside it. -/
theorem bitSet_runFrameCalls {pmm : PhysicalMemoryManager} (consistent : pmm.Consistent)
    {frame : Nat} (used : bitSet pmm.bitmap frame = true) (calls : List FrameCall)
    (kept : ∀ addr, FrameCall.freeFrame addr ∈ calls →
      ¬ (pmm.memoryStart + pageSize * frame ≤ addr ∧
        addr < pmm.memoryStart + pageSize * frame + pageSize)) :
    bitSet (runFrameCalls pmm calls).bitmap frame = true := by
  induction calls generalizing pmm with
  | nil => exact used
  | cons call calls ih =>
    obtain ⟨next, start, -⟩ := call.step_consistent consistent
    refine ih next ?_ fun addr member => ?_
    · cases call with
      | allocateFrame => exact bitSet_allocateFrame used
      | freeFrame addr => exact bitSet_freeFrame used (kept addr (by simp))
    · rw [start]
      exact kept addr (by simp [member])

/-- The allocator as the kernel leaves it after boot-time set-up. -/
def kernelFrames (pmm : PhysicalMemoryManager) : PhysicalMemoryManager :=
  pmm.initializeFrames kernelMemoryStart kernelMemorySize

/--
Every run of the booted frame allocator answers correctly.

The counter is the number of clear bits.
The next answer is null exactly when that number is zero, and otherwise the lowest free frame.
A frame handed out is not handed out again before an address inside it is returned.
-/
theorem frameAllocator_run (boot : PhysicalMemoryManager) (calls : List FrameCall) :
    let pmm := runFrameCalls (kernelFrames boot) calls
    let answer := pmm.allocateFrame.1
    pmm.freeFrames = pmm.freeSet.card ∧
    (answer = 0 ↔ pmm.freeSet.card = 0) ∧
    (answer ≠ 0 → ∃ frame ∈ pmm.freeSet, (∀ lower ∈ pmm.freeSet, frame ≤ lower) ∧
      answer = kernelMemoryStart + pageSize * frame ∧ answer % pageSize = 0 ∧
      kernelMemoryStart ≤ answer ∧ answer + pageSize ≤ kernelMemoryStart + kernelMemorySize) ∧
    (answer ≠ 0 → ∀ later : List FrameCall,
      (∀ addr, FrameCall.freeFrame addr ∈ later → ¬ (answer ≤ addr ∧ addr < answer + pageSize)) →
      (runFrameCalls pmm.allocateFrame.2 later).allocateFrame.1 ≠ answer) := by
  intro pmm answer
  obtain ⟨consistent, start, total⟩ :=
    runFrameCalls_consistent (initializeFrames_consistent boot) calls
  have start : pmm.memoryStart = kernelMemoryStart := start.trans (initializeFrames_region boot).1
  have total : pmm.totalFrames = 16384 := total.trans (initializeFrames_region boot).2
  refine ⟨consistent.counted, ?_⟩
  rcases consistent.allocateFrame_cases with ⟨empty, refused⟩ | ⟨frame, free, lowest, taken⟩
  · have null : answer = 0 := congrArg Prod.fst refused
    have empty : pmm.freeSet = ∅ := empty
    simp [null, empty]
  · have answered : answer = kernelMemoryStart + pageSize * frame := by
      rw [← start]
      exact congrArg Prod.fst taken
    have positive : answer ≠ 0 := by rw [answered]; simp [kernelMemoryStart]
    obtain ⟨inside, clear⟩ := mem_freeSet.mp free
    have bound : frame < 16384 := by rw [← total]; exact inside
    have filled : 0 < pmm.freeSet.card := Finset.card_pos.mpr ⟨frame, free⟩
    refine ⟨⟨fun null => absurd null positive, fun none => by omega⟩, fun _ => ?_, fun _ => ?_⟩
    · refine ⟨frame, free, fun other member => ?_, answered, ?_, ?_, ?_⟩
      · -- Every frame below the answer is used, so no free frame is lower.
        by_contra below
        have used := lowest other (by omega)
        have unused : bitSet pmm.bitmap other = false := (mem_freeSet.mp member).2
        exact Bool.noConfusion (used.symm.trans unused)
      · rw [answered]; simp only [kernelMemoryStart, pageSize]; omega
      · omega
      · rw [answered]; simp only [kernelMemoryStart, kernelMemorySize, pageSize]; omega
    · intro later kept again
      -- The frame's bit is set now and stays set, while a later answer has a clear bit.
      have next : pmm.allocateFrame.2.Consistent := consistent.allocateFrame
      have nextStart : pmm.allocateFrame.2.memoryStart = kernelMemoryStart :=
        (allocateFrame_region pmm).1.trans start
      have used : bitSet pmm.allocateFrame.2.bitmap frame = true := by
        rw [show pmm.allocateFrame = _ from taken]
        simp
      obtain ⟨final, finalStart, -⟩ := runFrameCalls_consistent next later
      have stillUsed := bitSet_runFrameCalls next used later fun addr member => by
        rw [nextStart, ← answered]
        exact kept addr member
      rcases final.allocateFrame_cases with ⟨-, refused⟩ | ⟨other, otherFree, -, otherTaken⟩
      · rw [refused] at again
        exact positive again.symm
      · rw [otherTaken, finalStart, nextStart, answered] at again
        have same : other = frame := by
          simp only [pageSize] at again
          omega
        subst same
        rw [(mem_freeSet.mp otherFree).2] at stillUsed
        exact Bool.noConfusion stillUsed

end Pocky
