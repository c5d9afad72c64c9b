import Pocky.Memory.PagedMemory
import Pocky.Memory.PhysicalMemoryLaws
import Pocky.Memory.VirtualMemoryLaws

/-! Which frames the allocator has given out, and what each of its answers changes. -/

namespace Pocky

namespace PhysicalMemoryManager

variable {pmm : PhysicalMemoryManager}

/-- The frame at an address is marked used. -/
def Used (pmm : PhysicalMemoryManager) (addr : Nat) : Prop :=
  ∃ frame < pmm.totalFrames, addr = pmm.memoryStart + pageSize * frame ∧
    bitSet pmm.bitmap frame = true

/-- The allocator is consistent and manages the kernel's region. -/
structure Manages (pmm : PhysicalMemoryManager) : Prop where
  /-- The counter is right and no frame is null. -/
  consistent : pmm.Consistent
  /-- The region starts where the kernel's memory does. -/
  starts : pmm.memoryStart = kernelMemoryStart
  /-- The region has as many frames as the kernel's memory. -/
  total : pmm.totalFrames = 16384

/-- A frame of the region has an address fit for a table, below the region's end. -/
theorem Manages.address {frame : Nat} (manages : pmm.Manages) (inside : frame < pmm.totalFrames) :
    TableFrame (pmm.memoryStart + pageSize * frame) ∧
      pmm.memoryStart + pageSize * frame < kernelMemoryStart + kernelMemorySize := by
  -- The region starts at a page boundary above zero.
  rw [manages.total] at inside
  rw [manages.starts]
  simp only [TableFrame, kernelMemoryStart, kernelMemorySize, pageSize]
  omega

/-- A used frame has an address fit for a table, below the region's end. -/
theorem Manages.used_fit {addr : Nat} (manages : pmm.Manages) (used : pmm.Used addr) :
    TableFrame addr ∧ addr < kernelMemoryStart + kernelMemorySize := by
  -- It is the address of a frame of the region.
  obtain ⟨frame, inside, rfl, -⟩ := used
  exact manages.address inside

/-- Frames of the same region have the same address only when they are the same. -/
theorem frame_of_address {first second : Nat}
    (same : pmm.memoryStart + pageSize * first = pmm.memoryStart + pageSize * second) :
    first = second := by
  -- A page has more than no bytes.
  simp only [pageSize] at same
  omega

/-- A frame that is given was not used before, and then it is the only one that has become used. -/
theorem Manages.allocateFrame (manages : pmm.Manages) :
    pmm.allocateFrame.2.Manages ∧
    (pmm.allocateFrame.1 = 0 → pmm.allocateFrame.2 = pmm) ∧
    (pmm.allocateFrame.1 ≠ 0 → ¬ pmm.Used pmm.allocateFrame.1 ∧
      ∀ addr, pmm.allocateFrame.2.Used addr ↔ pmm.Used addr ∨ addr = pmm.allocateFrame.1) := by
  obtain ⟨starts, total⟩ := pmm.allocateFrame_region
  refine ⟨⟨manages.consistent.allocateFrame, starts.trans manages.starts,
    total.trans manages.total⟩, ?_⟩
  rcases manages.consistent.allocateFrame_cases with ⟨-, same⟩ | ⟨frame, free, -, taken⟩
  · -- A full region gives nothing and stays as it is.
    simp [same]
  · obtain ⟨inside, clear⟩ := mem_freeSet.mp free
    obtain ⟨⟨nonzero, -⟩, -⟩ := manages.address inside
    rw [taken]
    refine ⟨fun zero => absurd zero nonzero, fun _ => ⟨?_, fun addr => ?_⟩⟩
    · -- The bit of the frame was clear.
      rintro ⟨other, -, same, used⟩
      obtain rfl := frame_of_address same
      rw [clear] at used
      exact Bool.noConfusion used
    · -- Afterwards it is set, and every other bit is as before.
      constructor
      · rintro ⟨other, below, rfl, used⟩
        simp only [bitSet_setBit, Bool.or_eq_true, decide_eq_true_eq] at used
        rcases used with rfl | used
        · exact Or.inr rfl
        · exact Or.inl ⟨other, below, rfl, used⟩
      · rintro (⟨other, below, rfl, used⟩ | rfl)
        · exact ⟨other, below, rfl, by simp [used]⟩
        · exact ⟨frame, inside, rfl, by simp⟩

/-- Returning a used frame makes it, and nothing else, free. -/
theorem Manages.freeFrame (manages : pmm.Manages) {addr : Nat} (used : pmm.Used addr) :
    (pmm.freeFrame addr).Manages ∧
      ∀ other, (pmm.freeFrame addr).Used other ↔ pmm.Used other ∧ other ≠ addr := by
  obtain ⟨starts, total⟩ := pmm.freeFrame_region addr
  refine ⟨⟨manages.consistent.freeFrame addr, starts.trans manages.starts,
    total.trans manages.total⟩, ?_⟩
  obtain ⟨frame, inside, rfl, set⟩ := used
  -- The address names its own frame, so that is the one whose bit is cleared.
  have number : (pmm.memoryStart + pageSize * frame - pmm.memoryStart) / pageSize = frame := by
    simp only [pageSize]
    omega
  have freed : pmm.freeFrame (pmm.memoryStart + pageSize * frame) =
      { pmm with
        bitmap := clearBit pmm.bitmap frame
        freeFrames := (pmm.freeFrames + 1) % 2 ^ 64 } := by
    simp only [PhysicalMemoryManager.freeFrame, number]
    rw [if_neg (by omega), if_neg (by omega), if_pos set]
  intro other
  rw [freed]
  constructor
  · rintro ⟨third, below, rfl, still⟩
    simp only [bitSet_clearBit, Bool.and_eq_true, decide_eq_true_eq] at still
    exact ⟨⟨third, below, rfl, still.2⟩, fun same => still.1 (frame_of_address same)⟩
  · rintro ⟨⟨third, below, rfl, still⟩, apart⟩
    refine ⟨third, below, rfl, ?_⟩
    have different : third ≠ frame := fun same => apart (by rw [same])
    simp [still, different]

/--
Frames taken in a row, none of them null, are all different and were not used before.

They are the only ones that have become used.
-/
theorem Manages.allocateFrames (manages : pmm.Manages) {count : Nat}
    (given : 0 ∉ (pmm.allocateFrames count).1) :
    (pmm.allocateFrames count).2.Manages ∧ (pmm.allocateFrames count).1.Nodup ∧
    (∀ frame ∈ (pmm.allocateFrames count).1, ¬ pmm.Used frame) ∧
    ∀ addr, (pmm.allocateFrames count).2.Used addr ↔
      pmm.Used addr ∨ addr ∈ (pmm.allocateFrames count).1 := by
  -- By induction on the number of frames, the first of them taken first.
  induction count generalizing pmm with
  | zero => simp [PhysicalMemoryManager.allocateFrames, manages]
  | succ count ih =>
    simp only [PhysicalMemoryManager.allocateFrames, List.mem_cons, not_or] at given ⊢
    obtain ⟨manages', -, one⟩ := manages.allocateFrame
    obtain ⟨fresh, used⟩ := one (Ne.symm given.1)
    obtain ⟨manages'', nodup, others, all⟩ := ih manages' given.2
    refine ⟨manages'', List.nodup_cons.mpr ⟨fun again => ?_, nodup⟩, ?_, fun addr => ?_⟩
    · exact others _ again ((used _).mpr (Or.inr rfl))
    · rintro frame (rfl | later)
      · exact fresh
      · exact fun before => others frame later ((used frame).mpr (Or.inl before))
    · rw [all addr, used addr, or_assoc]

/-- While a frame is free, taking one succeeds and leaves one fewer. -/
theorem Manages.allocateFrame_available (manages : pmm.Manages) (available : 0 < pmm.freeFrames) :
    pmm.allocateFrame.1 ≠ 0 ∧ pmm.allocateFrame.2.freeFrames + 1 = pmm.freeFrames := by
  rcases manages.consistent.allocateFrame_cases with ⟨full, -⟩ | ⟨frame, free, -, taken⟩
  · -- The counter is the number of free frames.
    rw [manages.consistent.counted, full] at available
    exact absurd available (Nat.lt_irrefl 0)
  · have small := manages.consistent.freeFrames_le
    have bounded := manages.consistent.totalFrames_lt
    obtain ⟨⟨nonzero, -⟩, -⟩ := manages.address (mem_freeSet.mp free).1
    rw [taken]
    refine ⟨nonzero, ?_⟩
    show wordSub pmm.freeFrames 1 + 1 = pmm.freeFrames
    rw [wordSub_one available (by omega)]
    omega

/-- As many frames as are free can be taken in a row. -/
theorem Manages.allocateFrames_available (manages : pmm.Manages) {count : Nat}
    (available : count ≤ pmm.freeFrames) :
    0 ∉ (pmm.allocateFrames count).1 ∧
      (pmm.allocateFrames count).2.freeFrames + count = pmm.freeFrames := by
  -- By induction on the number of frames, each of which leaves one fewer.
  induction count generalizing pmm with
  | zero => exact ⟨List.not_mem_nil, rfl⟩
  | succ count ih =>
    obtain ⟨nonzero, fewer⟩ := manages.allocateFrame_available (by omega)
    obtain ⟨others, left⟩ := ih manages.allocateFrame.1 (by omega)
    simp only [PhysicalMemoryManager.allocateFrames, List.mem_cons, not_or]
    exact ⟨⟨Ne.symm nonzero, others⟩, by omega⟩

/-- Reserving frames lowers the counter by their number, while it does not wrap. -/
theorem freeFrames_reserveFrames (pmm : PhysicalMemoryManager) (first count : Nat)
    (enough : count ≤ pmm.freeFrames) (bounded : pmm.freeFrames < 2 ^ 64) :
    (pmm.reserveFrames first count).freeFrames + count = pmm.freeFrames := by
  -- By induction on the number of frames.
  induction count with
  | zero => rfl
  | succ count ih =>
    have before := ih (by omega)
    simp only [reserveFrames]
    rw [wordSub_one (by omega) (by omega)]
    omega

/-- Frames that have not become used, but for some of a few, are still free. -/
theorem Manages.freeFrames_le {boot : PhysicalMemoryManager} (before : boot.Manages)
    (now : pmm.Manages) (taken : Finset Nat)
    (accounted : ∀ frame, pmm.Used (pmm.memoryStart + pageSize * frame) →
      boot.Used (boot.memoryStart + pageSize * frame) ∨ frame ∈ taken) :
    boot.freeFrames ≤ pmm.freeFrames + taken.card := by
  -- What was free at first is free now, unless it is one of the few.
  have still : boot.freeSet \ taken ⊆ pmm.freeSet := by
    intro frame member
    obtain ⟨free, elsewhere⟩ := Finset.mem_sdiff.mp member
    obtain ⟨inside, clear⟩ := mem_freeSet.mp free
    have inside' : frame < pmm.totalFrames := by rwa [now.total, ← before.total]
    refine mem_freeSet.mpr ⟨inside', ?_⟩
    by_contra marked
    rcases accounted frame ⟨frame, inside', rfl, by simpa using marked⟩ with
      ⟨other, -, same, marked'⟩ | few
    · rw [← frame_of_address same, clear] at marked'
      cases marked'
    · exact elsewhere few
  have left := Finset.card_le_card still
  have apart := Finset.le_card_sdiff taken boot.freeSet
  rw [now.consistent.counted, before.consistent.counted]
  omega

/-- The allocator the kernel boots with has twelve thousand and twenty-seven free frames. -/
theorem initializeFrames_manages (pmm : PhysicalMemoryManager) :
    (pmm.initializeFrames kernelMemoryStart kernelMemorySize).Manages ∧
      (pmm.initializeFrames kernelMemoryStart kernelMemorySize).freeFrames = 12027 := by
  obtain ⟨starts, total⟩ := pmm.initializeFrames_region
  refine ⟨⟨pmm.initializeFrames_consistent, starts, total⟩, ?_⟩
  -- The first mebibyte, the heap and five more frames are reserved.
  rw [initializeFrames_eq]
  have start : pmm.clearedFrames.freeFrames = 16384 := rfl
  have low := pmm.clearedFrames.freeFrames_reserveFrames 0 256 (by omega) (by omega)
  have withHeap := (pmm.clearedFrames.reserveFrames 0 256).freeFrames_reserveFrames 12288
    4096 (by omega) (by omega)
  have all := ((pmm.clearedFrames.reserveFrames 0 256).reserveFrames 12288 4096).freeFrames_reserveFrames
    256 5 (by omega) (by omega)
  omega

/-- Taking fewer frames gives the first of them. -/
theorem allocateFrames_take (pmm : PhysicalMemoryManager) {count more : Nat} (fewer : count ≤ more) :
    (pmm.allocateFrames count).1 = (pmm.allocateFrames more).1.take count := by
  -- By induction on the larger number; the first frame does not depend on it.
  induction more generalizing pmm count with
  | zero =>
    obtain rfl := Nat.le_zero.mp fewer
    rfl
  | succ more ih =>
    cases count with
    | zero => rfl
    | succ count =>
      simp only [PhysicalMemoryManager.allocateFrames, List.take_succ_cons]
      rw [ih _ (Nat.le_of_succ_le_succ fewer)]

/-- As many frames are answered as are asked for, some of them null perhaps. -/
@[simp] theorem length_allocateFrames (pmm : PhysicalMemoryManager) (count : Nat) :
    (pmm.allocateFrames count).1.length = count := by
  -- By induction on the number of frames.
  induction count generalizing pmm with
  | zero => rfl
  | succ count ih => simp [PhysicalMemoryManager.allocateFrames, ih]

end PhysicalMemoryManager

namespace VirtualMemoryManager

/--
A call takes at most a number of the frames to come, from the front.

What it does otherwise does not depend on the frames behind those.
-/
def TakesFrames (limit : Nat) {α : Type} (call : VirtualMemoryManager → α × VirtualMemoryManager)
    (vmm : VirtualMemoryManager) : Prop :=
  ∃ taken, taken.length ≤ limit ∧ vmm.frames = taken ++ (call vmm).2.frames ∧
    ∀ frames, call { vmm with frames := taken ++ frames } =
      ((call vmm).1, { (call vmm).2 with frames := frames })

/-- A call and one that goes on with its answer take their frames one after the other. -/
theorem TakesFrames.andThen {vmm : VirtualMemoryManager} {first : Nat} {α β : Type}
    {call : VirtualMemoryManager → α × VirtualMemoryManager}
    (here : TakesFrames first call vmm) (second : Nat)
    (next : α → VirtualMemoryManager → β × VirtualMemoryManager)
    (there : TakesFrames second (next (call vmm).1) (call vmm).2) :
    TakesFrames (first + second) (fun vmm => next (call vmm).1 (call vmm).2) vmm := by
  -- The frames of the second call are at the front of those the first leaves.
  obtain ⟨taken, few, split, same⟩ := here
  obtain ⟨taken', few', split', same'⟩ := there
  refine ⟨taken ++ taken', ?_, ?_, ?_⟩
  · rw [List.length_append]
    omega
  · rw [split, split', List.append_assoc]
  · intro frames
    simp only [List.append_assoc, same, same']

/-- A call that looks at no frame takes none. -/
theorem takesFrames_none {vmm : VirtualMemoryManager} {α : Type} (limit : Nat)
    {call : VirtualMemoryManager → α × VirtualMemoryManager} (left : (call vmm).2.frames = vmm.frames)
    (same : ∀ frames, call { vmm with frames := frames } =
      ((call vmm).1, { (call vmm).2 with frames := frames })) : TakesFrames limit call vmm :=
  ⟨[], Nat.zero_le _, left.symm, same⟩

/-- Reading where an entry points takes no frame. -/
theorem followEntry_takesFrames (vmm : VirtualMemoryManager) (table index : Nat) :
    TakesFrames 0 (fun vmm => if !(vmm.readEntry table index).present then (0, vmm)
      else ((vmm.readEntry table index).address.toNat, vmm)) vmm := by
  -- Memory is read only.
  by_cases present : (vmm.memory (table + 8 * index)).present = true
  · apply takesFrames_none <;> simp [readEntry, present]
  · apply takesFrames_none <;> simp [readEntry, present]

/-- One step of the walk takes at most one frame, if there is one. -/
theorem getNextLevel_takesFrames (vmm : VirtualMemoryManager) (available : 1 ≤ vmm.frames.length)
    (table index : Nat) (create : Bool) :
    TakesFrames 1 (fun vmm => vmm.getNextLevel table index create) vmm := by
  -- A frame is taken only for an entry that is not present.
  obtain ⟨frame, rest, next⟩ := List.exists_cons_of_length_pos available
  have entered : TakesFrames 1 (fun vmm => ((),
      if !(vmm.readEntry table index).present && create then
        let created := vmm.createPageTable
        created.2.writeEntry table index
          (pointTo (created.2.readEntry table index) (BitVec.ofNat 64 created.1) true)
      else vmm)) vmm := by
    by_cases creates : (!(vmm.readEntry table index).present && create) = true
    · refine ⟨[frame], Nat.le_refl 1, ?_, ?_⟩
      · simp [creates, createPageTable, nextFrame, next, writeEntry, clearTable]
      · intro frames
        simp only [readEntry] at creates
        simp [readEntry, creates, createPageTable, nextFrame, next, writeEntry, clearTable]
        rfl
    · apply takesFrames_none
      · simp [creates]
      · intro frames
        simp only [readEntry] at creates
        simp [readEntry, creates]
  -- What the entry says is then read.
  refine entered.andThen 0 (fun _ vmm => if !(vmm.readEntry table index).present then (0, vmm)
    else ((vmm.readEntry table index).address.toNat, vmm)) ?_
  exact followEntry_takesFrames _ table index

/-- Nothing is taken where the walk ends early. -/
theorem null_takesFrames (limit : Nat) (vmm : VirtualMemoryManager) :
    TakesFrames limit (fun vmm => ((0 : Nat), vmm)) vmm :=
  takesFrames_none limit rfl fun _ => rfl

/-- A call that takes frames leaves all but those. -/
theorem TakesFrames.left {limit : Nat} {α : Type}
    {call : VirtualMemoryManager → α × VirtualMemoryManager} {vmm : VirtualMemoryManager}
    (takes : TakesFrames limit call vmm) :
    vmm.frames.length ≤ (call vmm).2.frames.length + limit := by
  obtain ⟨taken, few, split, -⟩ := takes
  rw [split, List.length_append]
  omega

/-- The walk takes at most three frames, if there are as many. -/
theorem walk_takesFrames (vmm : VirtualMemoryManager) (available : 3 ≤ vmm.frames.length)
    (virtualAddr : BitVec 64) (create : Bool) :
    TakesFrames 3 (fun vmm => vmm.walk virtualAddr create) vmm := by
  -- One frame at most for each of the three steps, while no pointer is null.
  have first : TakesFrames 1
      (fun vmm => vmm.getNextLevel vmm.pml4 (pml4Index virtualAddr) create) vmm := by
    -- The top table is the same whatever frames are to come.
    obtain ⟨taken, few, split, same⟩ := getNextLevel_takesFrames vmm (by omega)
      vmm.pml4 (pml4Index virtualAddr) create
    exact ⟨taken, few, split, same⟩
  have left := first.left
  refine first.andThen 2 (fun pdpt vmm => if pdpt = 0 then (0, vmm) else
      let reached := vmm.getNextLevel pdpt (pdptIndex virtualAddr) create
      if reached.1 = 0 then (0, reached.2)
      else reached.2.getNextLevel reached.1 (pdIndex virtualAddr) create) ?_
  generalize vmm.getNextLevel vmm.pml4 (pml4Index virtualAddr) create = reached at left ⊢
  obtain ⟨pdpt, vmm'⟩ := reached
  dsimp only at left ⊢
  split
  · exact null_takesFrames 2 _
  · have second : TakesFrames 1
        (fun vmm => vmm.getNextLevel pdpt (pdptIndex virtualAddr) create) vmm' :=
      getNextLevel_takesFrames _ (by omega) _ _ _
    have left' := second.left
    have third : ∀ pd vmm'', vmm'.frames.length ≤ vmm''.frames.length + 1 → TakesFrames 1
        (fun vmm => if pd = 0 then (0, vmm) else
          vmm.getNextLevel pd (pdIndex virtualAddr) create) vmm'' := by
      intro pd vmm'' left''
      by_cases null : pd = 0
      · simp only [null, if_true]
        exact null_takesFrames 1 vmm''
      · simp only [null, if_false]
        apply getNextLevel_takesFrames
        omega
    exact second.andThen 1 (fun pd vmm => if pd = 0 then (0, vmm) else
      vmm.getNextLevel pd (pdIndex virtualAddr) create) (third _ _ left')

/-- Entering a page in its last table takes no frame. -/
theorem enterPage_takesFrames (vmm : VirtualMemoryManager) (pt index : Nat)
    (physicalAddr : BitVec 64) (writable : Bool) :
    TakesFrames 0 (fun vmm => ((), if pt = 0 then vmm else
      let entry := vmm.readEntry pt index
      if !entry.present then vmm.writeEntry pt index (pointTo entry physicalAddr writable)
      else vmm)) vmm := by
  -- At most one word of memory is written.
  by_cases null : pt = 0
  · apply takesFrames_none <;> simp [null]
  by_cases present : (vmm.memory (pt + 8 * index)).present = true
  · apply takesFrames_none <;> simp [null, readEntry, present]
  · apply takesFrames_none <;> simp [null, readEntry, present, writeEntry]

/-- Mapping a page takes at most three frames, if there are as many. -/
theorem mapPage_takesFrames (vmm : VirtualMemoryManager) (available : 3 ≤ vmm.frames.length)
    (virtualAddr physicalAddr : BitVec 64) (writable : Bool) :
    TakesFrames 3 (fun vmm => ((), vmm.mapPage virtualAddr physicalAddr writable)) vmm :=
  -- The walk takes them.
  (walk_takesFrames vmm available (virtualAddr &&& pageMask) true).andThen 0
    (fun pt vmm => ((), if pt = 0 then vmm else
      let entry := vmm.readEntry pt (ptIndex (virtualAddr &&& pageMask))
      if !entry.present then vmm.writeEntry pt (ptIndex (virtualAddr &&& pageMask))
        (pointTo entry (physicalAddr &&& pageMask) writable)
      else vmm)) (enterPage_takesFrames _ _ _ _ _)

end VirtualMemoryManager

end Pocky
