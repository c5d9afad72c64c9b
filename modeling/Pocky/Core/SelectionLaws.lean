import Mathlib.Data.Nat.ModEq
import Pocky.Core.KernelInvariants

/-! What the scheduler selects: the next ready process in turn, or one of highest priority. -/

namespace Pocky

/-- The indices of a queue in cyclic order behind a given one, which comes last. -/
def cyclicFrom (length start : Nat) : List Nat :=
  (List.range length).map fun step => (start + 1 + step) % length

/-- The index is that of an entry, or there are none; no entry is null. -/
structure CpuRunQueue.Sound (runqueue : CpuRunQueue) : Prop where
  /-- The index. -/
  index : runqueue.currentIndex < runqueue.processQueue.length ∨
    runqueue.processQueue = [] ∧ runqueue.currentIndex = 0
  /-- The entries. -/
  nonnull : 0 ∉ runqueue.processQueue

namespace Kernel

/-- The indices that the rounds of the search in turn look at, one after the other. -/
def examined (kernel : Kernel) (runqueue : CpuRunQueue) (startIndex : Nat) : Nat → Nat → List Nat
  | 0, _ => []
  | fuel + 1, index =>
    let index := (index + 1) % runqueue.processQueue.length
    if kernel.isReady (runqueue.processAt index) then [index]
    else if index ≠ startIndex then index :: kernel.examined runqueue startIndex fuel index
    else [index]

/-- What the search in turn should answer: the first ready entry in cyclic order, or null. -/
def firstReady (kernel : Kernel) (runqueue : CpuRunQueue) : Nat × CpuRunQueue :=
  match (cyclicFrom runqueue.processQueue.length runqueue.currentIndex).find?
      fun index => kernel.isReady (runqueue.processAt index) with
  | some index => (runqueue.processAt index, { runqueue with currentIndex := index })
  | none => (0, runqueue)

section InTurn

variable {kernel : Kernel} {runqueue : CpuRunQueue}

/-- Behind the first entries of the cyclic order comes the next one. -/
theorem cyclicFrom_drop {length done : Nat} (start : Nat) (within : done < length) :
    (cyclicFrom length start).drop done =
      (start + 1 + done) % length :: (cyclicFrom length start).drop (done + 1) := by
  have inside : done < (cyclicFrom length start).length := by
    rw [cyclicFrom, List.length_map, List.length_range]
    exact within
  rw [List.drop_eq_getElem_cons inside]
  simp only [cyclicFrom, List.getElem_map, List.getElem_range]

/-- The cyclic order is as long as the queue. -/
theorem length_cyclicFrom (length start : Nat) : (cyclicFrom length start).length = length := by
  rw [cyclicFrom, List.length_map, List.length_range]

/-- Only the last step of the cyclic order is back at its start. -/
theorem cyclic_step {length start done : Nat} (inside : start < length) (within : done < length) :
    (start + 1 + done) % length = start ↔ done + 1 = length := by
  constructor
  · intro back
    by_contra early
    by_cases wraps : start + 1 + done < length
    · rw [Nat.mod_eq_of_lt wraps] at back
      omega
    · rw [Nat.mod_eq_sub_mod (by omega), Nat.mod_eq_of_lt (by omega)] at back
      omega
  · intro last
    rw [show start + 1 + done = start + length by omega, Nat.add_mod_right, Nat.mod_eq_of_lt inside]

/--
Some rounds before its end, the search has a part of the cyclic order left.

It answers the first ready entry of that part, and has looked at the entries up to there.
-/
theorem searchRound_eq {start : Nat} (inside : start < runqueue.processQueue.length) (rest done : Nat)
    (total : done + rest + 1 = runqueue.processQueue.length) :
    kernel.searchRound runqueue start (rest + 1) ((start + done) % runqueue.processQueue.length) =
        .ok (match ((cyclicFrom runqueue.processQueue.length start).drop done).find?
            fun index => kernel.isReady (runqueue.processAt index) with
          | some index => (runqueue.processAt index, index)
          | none => (0, start)) ∧
      kernel.examined runqueue start (rest + 1) ((start + done) % runqueue.processQueue.length) <+:
        (cyclicFrom runqueue.processQueue.length start).drop done := by
  -- By induction on the rounds left.
  have back := cyclic_step inside (show done < runqueue.processQueue.length by omega)
  have next : ((start + done) % runqueue.processQueue.length + 1) % runqueue.processQueue.length =
      (start + 1 + done) % runqueue.processQueue.length := by
    rw [Nat.mod_add_mod, Nat.add_right_comm]
  rw [cyclicFrom_drop start (by omega), searchRound, examined, next]
  by_cases ready : kernel.isReady
      (runqueue.processAt ((start + 1 + done) % runqueue.processQueue.length)) = true
  · simp only [ready, if_true, List.find?_cons_of_pos]
    exact ⟨trivial, List.prefix_append [_] _⟩
  · simp only [if_neg ready]
    rw [List.find?_cons_of_neg (p := fun index => kernel.isReady (runqueue.processAt index)) ready]
    cases rest with
    | zero =>
      -- The last entry is the one at the start.
      have last := back.mpr (by omega)
      rw [List.drop_eq_nil_of_le (by rw [length_cyclicFrom]; omega), last, if_neg (by simp),
        if_neg (by simp)]
      exact ⟨rfl, List.prefix_refl _⟩
    | succ rest =>
      have early : (start + 1 + done) % runqueue.processQueue.length ≠ start := by
        rw [ne_eq, back]
        omega
      obtain ⟨answer, looked⟩ := searchRound_eq inside rest (done + 1) (by omega)
      rw [show start + (done + 1) = start + 1 + done by omega] at answer looked
      rw [if_pos early, if_pos early]
      exact ⟨answer, List.prefix_cons_inj _ |>.mpr looked⟩

/-- The cyclic order has every index once. -/
theorem cyclicFrom_nodup {length start : Nat} : (cyclicFrom length start).Nodup := by
  refine List.Nodup.map_on (fun step within step' within' same => ?_) List.nodup_range
  have together := Nat.ModEq.add_left_cancel' (start + 1) (show _ ≡ _ [MOD length] from same)
  rw [List.mem_range] at within within'
  exact Nat.ModEq.eq_of_lt_of_lt together within within'

/-- The cyclic order has just the indices of the queue. -/
theorem mem_cyclicFrom {length start index : Nat} (inside : start < length) :
    index ∈ cyclicFrom length start ↔ index < length := by
  rw [cyclicFrom, List.mem_map]
  constructor
  · rintro ⟨step, -, rfl⟩
    exact Nat.mod_lt _ (Nat.zero_lt_of_lt inside)
  · intro within
    by_cases behind : start < index
    · refine ⟨index - start - 1, List.mem_range.mpr (by omega), ?_⟩
      rw [show start + 1 + (index - start - 1) = index by omega, Nat.mod_eq_of_lt within]
    · refine ⟨index + length - start - 1, List.mem_range.mpr (by omega), ?_⟩
      rw [show start + 1 + (index + length - start - 1) = index + length by omega, Nat.add_mod_right,
        Nat.mod_eq_of_lt within]

/-- In a sound queue the search in turn answers what it should, and looks at no entry twice. -/
theorem selectNextProcess_inTurn (sound : runqueue.Sound) (inTurn : kernel.policy = .roundRobin) :
    kernel.selectNextProcess runqueue = .ok (kernel.firstReady runqueue) ∧
      (kernel.examined runqueue runqueue.currentIndex runqueue.processQueue.length
        runqueue.currentIndex).Nodup := by
  rcases sound.index with inside | ⟨empty, -⟩
  · have filled : runqueue.processQueue.length ≠ 0 := by omega
    obtain ⟨rounds, count⟩ : ∃ rounds, rounds + 1 = runqueue.processQueue.length :=
      ⟨runqueue.processQueue.length - 1, by omega⟩
    obtain ⟨answer, looked⟩ := @searchRound_eq kernel runqueue _ inside rounds 0 (by omega)
    rw [Nat.add_zero runqueue.currentIndex, Nat.mod_eq_of_lt inside, List.drop_zero, count] at answer looked
    refine ⟨?_, looked.sublist.nodup cyclicFrom_nodup⟩
    simp only [selectNextProcess, if_neg filled, inTurn, answer, Run.ok_bind, Run.pure_eq, firstReady]
    split
    · rfl
    · rfl
  · -- An empty queue is not searched.
    rw [selectNextProcess, firstReady, empty]
    exact ⟨rfl, List.nodup_nil⟩

/-- The answer is null just if no entry is ready. -/
theorem firstReady_null (sound : runqueue.Sound) :
    (kernel.firstReady runqueue).1 = 0 ↔
      ∀ process ∈ runqueue.processQueue, kernel.isReady process = false := by
  rcases sound.index with inside | ⟨empty, -⟩
  · rw [firstReady]
    cases found : (cyclicFrom runqueue.processQueue.length runqueue.currentIndex).find?
        fun index => kernel.isReady (runqueue.processAt index) with
    | none =>
      rw [List.find?_eq_none] at found
      refine ⟨fun _ process member => ?_, fun _ => rfl⟩
      obtain ⟨index, within, rfl⟩ := List.getElem_of_mem member
      have unready := found index ((mem_cyclicFrom inside).mpr within)
      rw [CpuRunQueue.processAt, List.getD_eq_getElem _ _ within] at unready
      exact Bool.eq_false_iff.mpr unready
    | some index =>
      have within := (mem_cyclicFrom inside).mp (List.mem_of_find?_eq_some found)
      have member := processAt_mem within
      refine ⟨fun null => ?_, fun none => ?_⟩
      · exact absurd (null ▸ member) sound.nonnull
      · have ready := List.find?_some found
        rw [none _ member] at ready
        cases ready
  · rw [firstReady, empty]
    exact ⟨fun _ process member => absurd member List.not_mem_nil, fun _ => rfl⟩

end InTurn

/-- Every run queue is sound. -/
def SoundQueues (kernel : Kernel) : Prop := ∀ runqueue ∈ kernel.runqueues, runqueue.Sound

end Kernel

namespace CpuRunQueue.Sound

variable {runqueue : CpuRunQueue}

/-- An empty queue is sound. -/
theorem fresh (cpuId : Nat) : (CpuRunQueue.fresh cpuId).Sound :=
  ⟨Or.inr ⟨rfl, rfl⟩, List.not_mem_nil⟩

/-- Only the entries and the index matter. -/
theorem congr (sound : runqueue.Sound) {other : CpuRunQueue}
    (queue : other.processQueue = runqueue.processQueue)
    (index : other.currentIndex = runqueue.currentIndex ∨
      other.currentIndex < runqueue.processQueue.length) : other.Sound := by
  refine ⟨?_, queue ▸ sound.nonnull⟩
  rw [queue]
  rcases index with same | inside
  · rw [same]
    exact sound.index
  · exact Or.inl inside

/-- A process is added at the end, behind the index. -/
theorem enqueue (sound : runqueue.Sound) {process : Nat} (nonzero : process ≠ 0) :
    (runqueue.enqueue process).Sound := by
  refine ⟨Or.inl ?_, ?_⟩
  · show runqueue.currentIndex < (runqueue.processQueue ++ [process]).length
    rw [List.length_append, List.length_singleton]
    rcases sound.index with inside | ⟨-, zero⟩
    · omega
    · omega
  · show 0 ∉ runqueue.processQueue ++ [process]
    rw [List.mem_append, List.mem_singleton, not_or]
    exact ⟨sound.nonnull, nonzero.symm⟩

/-- When an entry is taken out at the index or before it, the index moves down with the others. -/
theorem dequeue (sound : runqueue.Sound) {process : Nat} (held : process ∈ runqueue.processQueue) :
    (runqueue.dequeue process).Sound := by
  have queue := Kernel.dequeue_processQueue held
  have length := List.length_erase_of_mem held
  have place := List.idxOf_lt_length_of_mem held
  refine ⟨?_, ?_⟩
  · rw [queue]
    rcases sound.index with inside | ⟨empty, -⟩
    · by_cases last : runqueue.processQueue.erase process = []
      · -- The only entry was at index zero.
        have none := congrArg List.length last
        rw [length, List.length_nil] at none
        refine Or.inr ⟨last, ?_⟩
        simp only [CpuRunQueue.dequeue]
        split <;> omega
      · have some := List.length_pos_iff.mpr last
        rw [length] at some
        refine Or.inl ?_
        rw [length]
        simp only [CpuRunQueue.dequeue]
        split <;> omega
    · rw [empty] at held
      exact absurd held List.not_mem_nil
  · rw [queue]
    exact fun null => sound.nonnull (List.mem_of_mem_erase null)

end CpuRunQueue.Sound

namespace Kernel.SoundQueues

variable {kernel : Kernel}

/-- Changing one queue in place keeps all of them sound if it keeps that one sound. -/
theorem modify (sound : kernel.SoundQueues) {cpuId : Nat} {change : CpuRunQueue → CpuRunQueue}
    (kept : ∀ runqueue, runqueue.Sound → (change runqueue).Sound) :
    (kernel.modifyRunqueue cpuId change).SoundQueues := by
  intro runqueue member
  rcases mem_modifyFirst member with before | ⟨old, before, rfl⟩
  · exact sound runqueue before
  · exact kept old (sound old before)

/-- Queues set up anew are empty. -/
theorem initializeScheduler (kernel : Kernel) (policy : SchedulerPolicy) (cpuCount : Nat) :
    (kernel.initializeScheduler policy cpuCount).SoundQueues := by
  intro runqueue member
  obtain ⟨cpuId, -, rfl⟩ := List.mem_map.mp member
  exact .fresh cpuId

/-- Adding a process never adds null. -/
theorem addProcess (sound : kernel.SoundQueues) (process : Nat) :
    (kernel.addProcess process).SoundQueues := by
  rcases kernel.addProcess_cases process with same | ⟨runqueue, nonzero, -, -, added⟩
  · rw [same]
    exact sound
  · rw [added]
    exact @modify { kernel with processes := _ } sound _ _ fun _ held => held.enqueue nonzero

/-- Removing a process moves the index if it has to. -/
theorem removeProcess (sound : kernel.SoundQueues) (process : Nat) :
    (kernel.removeProcess process).SoundQueues := by
  rcases kernel.removeProcess_cases process with
    ⟨same, -⟩ | ⟨front, runqueue, rest, parts, -, held, removed⟩
  · rw [same]
    exact sound
  · rw [removed]
    rw [SoundQueues, parts] at sound
    intro other member
    simp only [List.mem_append, List.mem_cons] at member sound
    rcases member with inFront | rfl | inRest
    · exact sound other (Or.inl inFront)
    · refine ((sound runqueue (Or.inr (Or.inl rfl))).dequeue held).congr
        (clearCurrent_processQueue _ _) (Or.inl ?_)
      unfold CpuRunQueue.clearCurrent
      split <;> rfl
    · exact sound other (Or.inr (Or.inr inRest))

/-- A process moved to another queue is not null. -/
theorem migrateProcess (sound : kernel.SoundQueues) (process fromCpu toCpu : Nat) :
    (kernel.migrateProcess process fromCpu toCpu).SoundQueues := by
  unfold Kernel.migrateProcess
  split
  · exact sound
  · rename_i pointful
    split
    · refine modify (modify sound fun runqueue held => ?_) fun runqueue held =>
        held.enqueue fun null => pointful (Or.inl null)
      split
      · rename_i inside
        exact held.dequeue inside
      · exact held
    · exact sound

/-- So the loop that moves processes keeps the queues sound. -/
theorem moveProcesses (fromCpu toCpu fuel : Nat) : ∀ (index toMove : Nat) (kernel : Kernel),
    kernel.SoundQueues → (kernel.moveProcesses fromCpu toCpu fuel index toMove).SoundQueues := by
  -- By induction on the rounds.
  induction fuel with
  | zero => exact fun _ _ _ sound => sound
  | succ fuel ih =>
    intro index toMove kernel sound
    unfold Kernel.moveProcesses
    split
    · exact sound
    · split
      · exact sound
      · dsimp only
        split
        · exact ih _ _ _ (sound.migrateProcess _ _ _)
        · exact ih _ _ _ sound

/-- Balancing keeps the queues sound. -/
theorem loadBalance (sound : kernel.SoundQueues) : kernel.loadBalance.SoundQueues := by
  unfold Kernel.loadBalance
  dsimp only
  split
  · exact sound
  · split
    · exact moveProcesses _ _ _ _ _ _ sound
    · exact sound

/-- Rescheduling returns, and leaves the index at an entry. -/
theorem scheduleOnCpu (sound : kernel.SoundQueues) (cpuId ticks : Nat) :
    ∃ after, kernel.scheduleOnCpu cpuId ticks = .ok after ∧ after.SoundQueues := by
  have returns : ∃ after, kernel.scheduleOnCpu cpuId ticks = .ok after := by
    unfold Kernel.scheduleOnCpu
    split
    · exact ⟨_, rfl⟩
    · rename_i runqueue found
      have held := sound runqueue (List.mem_of_find?_eq_some found)
      obtain ⟨selected, answer⟩ : ∃ selected, kernel.selectNextProcess runqueue = .ok selected := by
        cases policy : kernel.policy with
        | roundRobin => exact ⟨_, (selectNextProcess_inTurn held policy).1⟩
        | priority =>
          rw [selectNextProcess, policy]
          split
          · exact ⟨_, rfl⟩
          · exact ⟨_, rfl⟩
      rw [answer, Run.ok_bind]
      dsimp only
      split
      · exact ⟨_, rfl⟩
      · split
        · exact ⟨_, rfl⟩
        · exact ⟨_, rfl⟩
  obtain ⟨after, scheduled⟩ := returns
  refine ⟨after, scheduled, ?_⟩
  rcases scheduleOnCpu_cases scheduled with
    rfl | ⟨runqueue, index, found, bounded, moved⟩
  · exact sound
  · -- The queue has its index moved, and perhaps another current process.
    have held := sound runqueue (List.mem_of_find?_eq_some found)
    have searched : (kernel.modifyRunqueue cpuId
        fun _ => { runqueue with currentIndex := index }).SoundQueues := by
      intro other member
      rcases mem_modifyFirst member with before | ⟨-, -, rfl⟩
      · exact sound other before
      · exact held.congr rfl bounded
    rcases moved with rfl | ⟨next, -, -, -, -, rfl⟩
    · exact searched
    · intro other member
      rw [(dispatch_frame _ _ _ _ _).1] at member
      rcases mem_modifyFirst member with before | ⟨old, before, rfl⟩
      · exact searched other before
      · exact (searched old before).congr rfl (Or.inl rfl)

end Kernel.SoundQueues

/-- A call of the scheduler, or anything else the kernel does to its processes in between. -/
inductive SchedulerCall where
  /-- Setting up the queues. -/
  | initializeScheduler (policy : SchedulerPolicy) (cpuCount : Nat)
  /-- Adding a process. -/
  | addProcess (process : Nat)
  /-- Removing a process. -/
  | removeProcess (process : Nat)
  /-- Balancing the queues. -/
  | loadBalance
  /-- Rescheduling a processor. -/
  | scheduleOnCpu (cpuId ticks : Nat)
  /-- Changing states, priorities and the running process. -/
  | others (processes : Nat → Process) (records : Nat → ProcessRecord) (current : Nat)

namespace Kernel

/-- The kernel after a call of the scheduler; there is none where it does not return. -/
def performScheduler (kernel : Kernel) : SchedulerCall → Option Kernel
  | .initializeScheduler policy cpuCount => some (kernel.initializeScheduler policy cpuCount)
  | .addProcess process => some (kernel.addProcess process)
  | .removeProcess process => some (kernel.removeProcess process)
  | .loadBalance => some kernel.loadBalance
  | .scheduleOnCpu cpuId ticks => (kernel.scheduleOnCpu cpuId ticks).toOption
  | .others processes records current =>
    some { kernel with processes := processes, records := records, currentProcess := current }

/-- Every call returns and keeps the queues sound. -/
theorem SoundQueues.perform {kernel : Kernel} (sound : kernel.SoundQueues) (call : SchedulerCall) :
    ∃ after, kernel.performScheduler call = some after ∧ after.SoundQueues := by
  cases call with
  | initializeScheduler policy cpuCount => exact ⟨_, rfl, .initializeScheduler _ _ _⟩
  | addProcess process => exact ⟨_, rfl, sound.addProcess process⟩
  | removeProcess process => exact ⟨_, rfl, sound.removeProcess process⟩
  | loadBalance => exact ⟨_, rfl, sound.loadBalance⟩
  | scheduleOnCpu cpuId ticks =>
    obtain ⟨after, scheduled, sound'⟩ := sound.scheduleOnCpu cpuId ticks
    exact ⟨after, by rw [performScheduler, scheduled]; rfl, sound'⟩
  | others processes records current => exact ⟨_, rfl, sound⟩

/-- So does every sequence of calls. -/
theorem SoundQueues.run (calls : List SchedulerCall) : ∀ kernel : Kernel, kernel.SoundQueues →
    ∃ after, Calls.run performScheduler kernel calls = some after ∧ after.SoundQueues := by
  -- By induction on the calls.
  induction calls with
  | nil => exact fun kernel sound => ⟨kernel, rfl, sound⟩
  | cons call calls ih =>
    intro kernel sound
    obtain ⟨next, performed, sound'⟩ := sound.perform call
    obtain ⟨after, ran, sound''⟩ := ih next sound'
    exact ⟨after, Calls.run_cons.mpr ⟨next, performed, ran⟩, sound''⟩

/--
In every state the scheduler reaches, selection in turn is fair.

Before the first call there are no queues.
Every run returns, and then the index of each queue is that of an entry, or zero in an empty one.
Selection in turn looks at no entry twice and answers the first ready one behind the index.
The entry at the index comes last, and the answer is null just if no entry is ready.
-/
theorem roundRobin_selects_first_ready (kernel : Kernel) (calls : List SchedulerCall) :
    ∃ after, Calls.run performScheduler { kernel with runqueues := [] } calls = some after ∧
      ∀ runqueue ∈ after.runqueues,
        (runqueue.currentIndex < runqueue.processQueue.length ∨
          runqueue.processQueue = [] ∧ runqueue.currentIndex = 0) ∧
        (after.policy = .roundRobin →
          (after.examined runqueue runqueue.currentIndex runqueue.processQueue.length
            runqueue.currentIndex).Nodup ∧
          after.selectNextProcess runqueue = .ok (after.firstReady runqueue) ∧
          ((after.firstReady runqueue).1 = 0 ↔
            ∀ process ∈ runqueue.processQueue, after.isReady process = false)) := by
  obtain ⟨after, ran, sound⟩ := SoundQueues.run calls { kernel with runqueues := [] }
    fun _ member => absurd member List.not_mem_nil
  refine ⟨after, ran, fun runqueue member => ⟨(sound runqueue member).index, fun inTurn => ?_⟩⟩
  obtain ⟨answer, once⟩ := selectNextProcess_inTurn (sound runqueue member) inTurn
  exact ⟨once, answer, firstReady_null (sound runqueue member)⟩

end Kernel
namespace Kernel

/-- The queue has a ready entry. -/
def HasReady (kernel : Kernel) (runqueue : CpuRunQueue) : Prop :=
  ∃ process ∈ runqueue.processQueue, kernel.isReady process = true

/-- Selection answers a ready entry of maximal priority and sets the index to its place. -/
def SelectsHighest (kernel : Kernel) (runqueue : CpuRunQueue) : Prop :=
  ∃ index < runqueue.processQueue.length,
    kernel.selectNextProcess runqueue =
      .ok (runqueue.processAt index, { runqueue with currentIndex := index }) ∧
    kernel.isReady (runqueue.processAt index) = true ∧
    ∀ process ∈ runqueue.processQueue, kernel.isReady process = true →
      (kernel.records process).priority ≤ (kernel.records (runqueue.processAt index)).priority

/--
The search by priority has the best of the entries it has passed.

As long as they are all unready or of priority zero, it has none.
-/
theorem searchPriority_best (kernel : Kernel) {runqueue : CpuRunQueue}
    (nonnull : 0 ∉ runqueue.processQueue) :
    ∀ count ≤ runqueue.processQueue.length,
      let found := kernel.searchPriority runqueue count
      (found = (0, 0, 0) ∨ found.2.2 < count ∧ found.2.1 = runqueue.processAt found.2.2 ∧
        found.2.1 ≠ 0 ∧ kernel.isReady found.2.1 = true ∧
        found.1 = (kernel.records found.2.1).priority ∧ 0 < found.1) ∧
      ∀ index < count, kernel.isReady (runqueue.processAt index) = true →
        (kernel.records (runqueue.processAt index)).priority ≤ found.1 := by
  intro count
  -- By induction on the entries passed.
  induction count with
  | zero => exact fun _ => ⟨Or.inl rfl, fun index below => absurd below (Nat.not_lt_zero _)⟩
  | succ count ih =>
    intro within
    obtain ⟨best, most⟩ := ih (by omega)
    simp only [searchPriority]
    split
    · rename_i better
      -- The new entry is better than those before it.
      refine ⟨Or.inr ⟨Nat.lt_succ_self _, rfl, ?_, better.1, rfl, Nat.zero_lt_of_lt better.2⟩, ?_⟩
      · exact fun null => nonnull (null ▸ processAt_mem within)
      · intro index below ready
        rcases Nat.lt_succ_iff_lt_or_eq.mp below with before | rfl
        · exact Nat.le_trans (most index before ready) (Nat.le_of_lt better.2)
        · exact Nat.le_refl _
    · rename_i worse
      refine ⟨best.imp_right (And.imp_left Nat.lt_succ_of_lt), ?_⟩
      intro index below ready
      rcases Nat.lt_succ_iff_lt_or_eq.mp below with before | rfl
      · exact most index before ready
      · by_contra more
        exact worse ⟨ready, Nat.not_le.mp more⟩

/--
When selection by priority never idles over ready work.

It does not just if some ready entry has a priority above zero, or if none is ready.
-/
theorem selectNextProcess_highest_iff (kernel : Kernel) {runqueue : CpuRunQueue}
    (byPriority : kernel.policy = .priority) (nonnull : 0 ∉ runqueue.processQueue) :
    (kernel.HasReady runqueue → kernel.SelectsHighest runqueue) ↔
      (kernel.HasReady runqueue → ∃ process ∈ runqueue.processQueue,
        kernel.isReady process = true ∧ 0 < (kernel.records process).priority) := by
  refine imp_congr_right fun ⟨_, held, _⟩ => ?_
  have filled : runqueue.processQueue.length ≠ 0 := (List.length_pos_of_mem held).ne'
  obtain ⟨best, most⟩ := kernel.searchPriority_best nonnull _ (Nat.le_refl _)
  have answer : kernel.selectNextProcess runqueue =
      let found := kernel.searchPriority runqueue runqueue.processQueue.length
      .ok (found.2.1, if found.2.1 ≠ 0 then { runqueue with currentIndex := found.2.2 } else runqueue) := by
    simp only [selectNextProcess, if_neg filled, byPriority]
  dsimp only at best most answer
  generalize kernel.searchPriority runqueue runqueue.processQueue.length = found at best most answer
  constructor
  · rintro ⟨index, within, selected, ready, -⟩
    rcases best with rfl | ⟨-, -, -, ready', priority, positive⟩
    · -- Null is not an entry.
      rw [selected] at answer
      have null : runqueue.processAt index = 0 := congrArg Prod.fst (Except.ok.inj answer)
      exact absurd (null ▸ processAt_mem within) nonnull
    · rw [selected] at answer
      have same : runqueue.processAt index = found.2.1 := congrArg Prod.fst (Except.ok.inj answer)
      rw [priority, ← same] at positive
      exact ⟨_, processAt_mem within, ready, positive⟩
  · rintro ⟨process, member, ready, positive⟩
    obtain ⟨place, there, rfl⟩ := List.getElem_of_mem member
    have at' : runqueue.processAt place = runqueue.processQueue[place] :=
      List.getD_eq_getElem _ _ there
    rcases best with rfl | ⟨within, same, nonzero, ready', priority, -⟩
    · have none := most place there (at' ▸ ready)
      rw [at'] at none
      exact absurd positive (Nat.not_lt.mpr none)
    · rw [if_pos nonzero] at answer
      refine ⟨found.2.2, within, by rw [answer, same], by rw [← same]; exact ready', ?_⟩
      intro other member' ready''
      obtain ⟨place', there', rfl⟩ := List.getElem_of_mem member'
      have at'' : runqueue.processAt place' = runqueue.processQueue[place'] :=
        List.getD_eq_getElem _ _ there'
      rw [← same, ← priority, ← at'']
      exact most place' there' (at'' ▸ ready'')

/-- A queue of two ready processes at sixteen and thirty-two, and a kernel that picks by priority. -/
def twoReady (priority : Nat → Nat) : Kernel :=
  { smallKernel 1 with
    policy := .priority
    processes := fun _ => ⟨.ready, 0⟩
    records := fun process => { newRecord 0 with priority := priority process } }

/-- With priorities three and seven the second process is selected. -/
theorem selectNextProcess_highest_seven :
    (twoReady fun process => if process = 16 then 3 else 7).SelectsHighest
      ⟨[16, 32], 0, 5, 0, 0, false⟩ := by
  refine ((twoReady fun process => if process = 16 then 3 else 7).selectNextProcess_highest_iff
    rfl (by decide)).mpr (fun _ => ⟨32, by decide, rfl, by decide⟩) ⟨16, by decide, rfl⟩

/-- With priority zero neither is selected, though both are ready. -/
theorem selectNextProcess_idles :
    ¬ ((twoReady fun _ => 0).HasReady ⟨[16, 32], 0, 5, 0, 0, false⟩ →
      (twoReady fun _ => 0).SelectsHighest ⟨[16, 32], 0, 5, 0, 0, false⟩) := by
  intro claimed
  obtain ⟨index, within, selected, -⟩ := claimed ⟨16, by decide, rfl⟩
  have null : (twoReady fun _ => 0).selectNextProcess ⟨[16, 32], 0, 5, 0, 0, false⟩ =
      .ok (0, ⟨[16, 32], 0, 5, 0, 0, false⟩) := rfl
  rw [null] at selected
  have none : 0 = CpuRunQueue.processAt ⟨[16, 32], 0, 5, 0, 0, false⟩ index :=
    congrArg Prod.fst (Except.ok.inj selected)
  have member := processAt_mem within
  rw [← none] at member
  exact absurd member (by decide)

end Kernel


end Pocky
