import Pocky.Core.SelectionLaws
import Pocky.Core.RunQueueLaws
import Pocky.Lib.Turns

/-! Selection in turn starves nobody: how long a ready process can be passed over. -/

namespace Pocky

open Turns

/-- How many processes of a queue are looked at before one. -/
def CpuRunQueue.turns (runqueue : CpuRunQueue) (process : Nat) : Nat :=
  Turns.turns runqueue.processQueue runqueue.currentIndex process

/-- Changing the first item that passes a test leaves an item that another test finds, or changes it. -/
theorem find?_modifyFirst_kept {α : Type} (test : α → Bool) (change : α → α) {other : α → Bool}
    (kept : ∀ item, other (change item) = other item) {items : List α} {found : α}
    (there : items.find? other = some found) :
    (modifyFirst test change items).find? other = some found ∨
      test found = true ∧ (modifyFirst test change items).find? other = some (change found) := by
  -- By induction on the items in front of the one that is found.
  induction items with
  | nil => cases there
  | cons item items ih =>
    rw [modifyFirst]
    by_cases mine : other item = true
    · rw [List.find?_cons_of_pos mine] at there
      obtain rfl := Option.some.inj there
      by_cases passes : test item = true
      · rw [if_pos passes, List.find?_cons_of_pos (by rw [kept, mine])]
        exact Or.inr ⟨passes, rfl⟩
      · rw [if_neg passes, List.find?_cons_of_pos mine]
        exact Or.inl rfl
    · rw [List.find?_cons_of_neg mine] at there
      by_cases passes : test item = true
      · rw [if_pos passes, List.find?_cons_of_neg (by rw [kept]; exact mine)]
        exact Or.inl there
      · rw [if_neg passes, List.find?_cons_of_neg mine]
        exact ih there

namespace CpuRunQueue

variable {runqueue : CpuRunQueue} {process : Nat}

/-- A queue to whose end processes have been added. -/
inductive Grown (runqueue : CpuRunQueue) : CpuRunQueue → Prop
  /-- It may be none. -/
  | refl : Grown runqueue runqueue
  /-- There may be another one. -/
  | enqueue {later : CpuRunQueue} (grown : Grown runqueue later) (process : Nat) :
    Grown runqueue (later.enqueue process)

/-- A queue that processes have left. -/
inductive Shrunk (runqueue : CpuRunQueue) : CpuRunQueue → Prop
  /-- It may be none. -/
  | refl : Shrunk runqueue runqueue
  /-- There may be another one. -/
  | dequeue {later : CpuRunQueue} (shrunk : Shrunk runqueue later) {process : Nat}
    (held : process ∈ later.processQueue) : Shrunk runqueue (later.dequeue process)

/-- Additions after additions. -/
theorem Grown.trans {middle later : CpuRunQueue} (first : runqueue.Grown middle)
    (second : middle.Grown later) : runqueue.Grown later := by
  induction second with
  | refl => exact first
  | enqueue _ process ih => exact ih.enqueue process

/-- Departures after departures. -/
theorem Shrunk.trans {middle later : CpuRunQueue} (first : runqueue.Shrunk middle)
    (second : middle.Shrunk later) : runqueue.Shrunk later := by
  induction second with
  | refl => exact first
  | dequeue _ held ih => exact ih.dequeue held

/-- Each process at the end is one more turn at most. -/
theorem Grown.turns_le {later : CpuRunQueue} (grown : runqueue.Grown later)
    (inside : runqueue.currentIndex < runqueue.processQueue.length) (process : Nat) :
    later.currentIndex = runqueue.currentIndex ∧
      runqueue.processQueue.length ≤ later.processQueue.length ∧
      later.turns process ≤ runqueue.turns process +
        (later.processQueue.length - runqueue.processQueue.length) := by
  -- By induction on the processes that were added.
  induction grown with
  | refl => exact ⟨rfl, Nat.le_refl _, by omega⟩
  | @enqueue later grown new ih =>
    obtain ⟨index, longer, fewer⟩ := ih
    have added := turns_append (show later.currentIndex < later.processQueue.length by omega) new process
    refine ⟨index, ?_, ?_⟩
    · rw [CpuRunQueue.enqueue, List.length_append, List.length_singleton]
      omega
    · show Turns.turns (later.processQueue ++ [new]) later.currentIndex process ≤ _
      rw [CpuRunQueue.enqueue, List.length_append, List.length_singleton]
      rw [CpuRunQueue.turns] at fewer
      omega

/-- A process that leaves is no turn more for another, unless it was the first and the last looked at. -/
theorem dequeue_turns_le {other : Nat} (held : other ∈ runqueue.processQueue) (differ : other ≠ process)
    (advanced : (runqueue.dequeue other).currentIndex ≠ 0) :
    (runqueue.dequeue other).turns process ≤ runqueue.turns process := by
  obtain ⟨front, back, parts, first⟩ := List.eq_append_cons_of_mem held
  have place : runqueue.processQueue.idxOf other = front.length := by
    rw [parts, List.idxOf_append_of_notMem first, List.idxOf_cons_self, Nat.add_zero]
  have queue : (runqueue.dequeue other).processQueue = front ++ back := by
    rw [Kernel.dequeue_processQueue held, parts, List.erase_append_right _ first,
      List.erase_cons_head]
  have index : (runqueue.dequeue other).currentIndex =
      if front.length ≤ runqueue.currentIndex ∧ 0 < runqueue.currentIndex then
        runqueue.currentIndex - 1 else runqueue.currentIndex := by
    rw [CpuRunQueue.dequeue, place]
  rw [CpuRunQueue.turns, CpuRunQueue.turns, Turns.turns, Turns.turns, queue, parts]
  rw [index] at advanced ⊢
  by_cases passed : front.length ≤ runqueue.currentIndex
  · have positive : 0 < runqueue.currentIndex := by
      by_contra zero
      rw [if_neg (by omega)] at advanced
      omega
    obtain ⟨before, after⟩ := @order_remove_passed Nat front back other _ positive passed
    rw [if_pos ⟨passed, positive⟩, before, after]
    exact idxOf_remove_le differ
  · obtain ⟨before, after⟩ := @order_remove_behind Nat front back other _ (Nat.not_le.mp passed)
    rw [if_neg (by omega), before, after]
    exact idxOf_remove_le differ

/-- An index of zero stays zero when a process leaves. -/
theorem dequeue_index_zero {other : Nat} (zero : runqueue.currentIndex = 0) :
    (runqueue.dequeue other).currentIndex = 0 := by
  simp only [CpuRunQueue.dequeue, zero]
  split <;> rfl

/-- Processes that leave are no turns more for one that stays, unless the index is zero in the end. -/
theorem Shrunk.turns_le {later : CpuRunQueue} (shrunk : runqueue.Shrunk later)
    (once : runqueue.processQueue.count process ≤ 1) (stays : process ∈ later.processQueue) :
    later.processQueue.Sublist runqueue.processQueue ∧
      (later.turns process ≤ runqueue.turns process ∨ later.currentIndex = 0 ∧
        (later.processQueue.length < runqueue.processQueue.length)) := by
  -- By induction on the processes that left.
  induction shrunk with
  | refl => exact ⟨List.Sublist.refl _, Or.inl (Nat.le_refl _)⟩
  | @dequeue later shrunk other held ih =>
    have queue := Kernel.dequeue_processQueue held
    rw [queue] at stays ⊢
    obtain ⟨sublist, fewer⟩ := ih (List.mem_of_mem_erase stays)
    have length := List.length_erase_of_mem held
    have longer := sublist.length_le
    have some := List.length_pos_of_mem held
    -- It is not the process that stays, which was there only once.
    have differ : other ≠ process := by
      rintro rfl
      have counted := List.count_pos_iff.mpr stays
      rw [List.count_erase_self] at counted
      have more := sublist.count_le other
      omega
    refine ⟨(List.erase_sublist).trans sublist, ?_⟩
    by_cases zero : (later.dequeue other).currentIndex = 0
    · exact Or.inr ⟨zero, by omega⟩
    · have here := dequeue_turns_le held differ zero
      rcases fewer with fewer | ⟨zero', -⟩
      · exact Or.inl (Nat.le_trans here fewer)
      · exact absurd (dequeue_index_zero zero') zero

/-- The turns that a change of a queue may cost: one for each process at the end, or a round. -/
def delay (before after : CpuRunQueue) : Nat :=
  (after.processQueue.length - before.processQueue.length) +
    if after.processQueue.length < before.processQueue.length ∧ after.currentIndex = 0 then
      after.processQueue.length
    else 0

/-- A queue to which processes have been added, or that processes have left. -/
def Changed (before after : CpuRunQueue) : Prop :=
  ∃ later, (before.Grown later ∨ before.Shrunk later) ∧ after.processQueue = later.processQueue ∧
    after.currentIndex = later.currentIndex

/-- A change costs no more than the turns counted for it. -/
theorem Changed.turns_le {after : CpuRunQueue} (changed : runqueue.Changed after)
    (inside : runqueue.currentIndex < runqueue.processQueue.length)
    (once : runqueue.processQueue.count process ≤ 1) (stays : process ∈ after.processQueue) :
    after.turns process ≤ runqueue.turns process + runqueue.delay after := by
  obtain ⟨later, how, queue, index⟩ := changed
  have same : after.turns process = later.turns process := by
    rw [CpuRunQueue.turns, CpuRunQueue.turns, queue, index]
  rw [same, delay, queue, index]
  rw [queue] at stays
  rcases how with grown | shrunk
  · have bound := (grown.turns_le inside process).2.2
    omega
  · rcases (shrunk.turns_le once stays).2 with fewer | ⟨zero, shorter⟩
    · omega
    · -- At worst all others come first.
      have bound : later.turns process < later.processQueue.length := turns_lt stays
      rw [if_pos ⟨shorter, zero⟩]
      omega

end CpuRunQueue

namespace Kernel

variable {kernel after : Kernel} {cpuId process : Nat}

/-- A process is ready and once in the queue of a processor. -/
def Waits (kernel : Kernel) (cpuId process : Nat) : Prop :=
  kernel.isReady process = true ∧ ∃ runqueue, kernel.getRunqueue cpuId = some runqueue ∧
    runqueue.processQueue.count process = 1

/-- How many processes are looked at before one when a processor picks the next. -/
def wait (kernel : Kernel) (cpuId process : Nat) : Nat :=
  (kernel.getRunqueue cpuId).elim 0 (·.turns process)

/-- A processor that picks in turn would pick this process. -/
def Picks (kernel : Kernel) (cpuId process : Nat) : Prop :=
  ∃ runqueue, kernel.getRunqueue cpuId = some runqueue ∧ (kernel.firstReady runqueue).1 = process

/-- The turns that a call may cost the processes of a queue. -/
def delay (before after : Kernel) (cpuId : Nat) : Nat :=
  match before.getRunqueue cpuId, after.getRunqueue cpuId with
  | some runqueue, some later => runqueue.delay later
  | _, _ => 0

/-- A waiting process is in a queue that is not empty. -/
theorem Waits.inside (sound : kernel.SoundQueues) {runqueue : CpuRunQueue}
    (found : kernel.getRunqueue cpuId = some runqueue)
    (once : runqueue.processQueue.count process = 1) :
    runqueue.Sound ∧ runqueue.currentIndex < runqueue.processQueue.length ∧
      process ∈ runqueue.processQueue := by
  have held := sound runqueue (List.mem_of_find?_eq_some found)
  have member : process ∈ runqueue.processQueue := List.count_pos_iff.mp (by omega)
  refine ⟨held, held.index.resolve_right ?_, member⟩
  rintro ⟨empty, -⟩
  rw [empty] at member
  cases member

/-- The search stops at the waiting process or before it. -/
theorem firstReady_turns {runqueue : CpuRunQueue}
    (inside : runqueue.currentIndex < runqueue.processQueue.length)
    (member : process ∈ runqueue.processQueue) (ready : kernel.isReady process = true)
    (other : (kernel.firstReady runqueue).1 ≠ process) :
    (kernel.firstReady runqueue).2.processQueue = runqueue.processQueue ∧
      (kernel.firstReady runqueue).2.turns process + 1 ≤ runqueue.turns process := by
  have within : runqueue.turns process < runqueue.processQueue.length := turns_lt member
  -- The waiting process at its place of the cyclic order.
  have place : runqueue.processAt ((runqueue.currentIndex + 1 + runqueue.turns process) %
      runqueue.processQueue.length) = process := by
    have reached : process ∈ order runqueue.processQueue runqueue.currentIndex := mem_order.mpr member
    have here := List.getElem_idxOf (List.idxOf_lt_length_of_mem reached)
    rw [getElem_order inside] at here
    rw [CpuRunQueue.processAt, List.getD_eq_getElem _ _ (Nat.mod_lt _ (by omega))]
    exact here
  have step : ∀ {index}
      (small : index < (cyclicFrom runqueue.processQueue.length runqueue.currentIndex).length),
      (cyclicFrom runqueue.processQueue.length runqueue.currentIndex)[index] =
        (runqueue.currentIndex + 1 + index) % runqueue.processQueue.length := by
    intro index small
    simp only [cyclicFrom, List.getElem_map, List.getElem_range]
  rw [firstReady] at other ⊢
  cases found : (cyclicFrom runqueue.processQueue.length runqueue.currentIndex).find?
      fun index => kernel.isReady (runqueue.processAt index) with
  | none =>
    -- But the waiting process is ready.
    have unready := List.find?_eq_none.mp found _ ((mem_cyclicFrom inside).mpr
      (Nat.mod_lt (runqueue.currentIndex + 1 + runqueue.turns process) (Nat.zero_lt_of_lt inside)))
    rw [place, ready] at unready
    exact absurd rfl unready
  | some index =>
    rw [found] at other
    dsimp only at other ⊢
    obtain ⟨-, first, small, rfl, earlier⟩ := List.find?_eq_some_iff_getElem.mp found
    rw [step small] at other ⊢
    rw [length_cyclicFrom] at small
    have before : first < runqueue.turns process := by
      rcases Nat.lt_trichotomy first (runqueue.turns process) with before | same | behind
      · exact before
      · rw [same, place] at other
        exact absurd rfl other
      · have unready := earlier _ behind
        rw [step (by rw [length_cyclicFrom]; exact within), place, ready] at unready
        cases unready
    refine ⟨rfl, Nat.le_trans ?_ (turns_moved inside member before)⟩
    exact Nat.succ_le_succ (Nat.le_add_right _ _)

/-- Rescheduling a processor moves its index behind the process it picks, and changes no other queue. -/
theorem scheduleOnCpu_queues (sound : kernel.SoundQueues) (inTurn : kernel.policy = .roundRobin)
    {ticks : Nat} (scheduled : kernel.scheduleOnCpu cpuId ticks = .ok after) :
    (∀ other, other ≠ cpuId → after.getRunqueue other = kernel.getRunqueue other) ∧
      ∀ runqueue, kernel.getRunqueue cpuId = some runqueue → ∃ later,
        after.getRunqueue cpuId = some later ∧
        later.processQueue = (kernel.firstReady runqueue).2.processQueue ∧
        later.currentIndex = (kernel.firstReady runqueue).2.currentIndex := by
  rw [scheduleOnCpu] at scheduled
  cases found : kernel.getRunqueue cpuId with
  | none =>
    rw [found] at scheduled
    cases scheduled
    exact ⟨fun _ _ => rfl, nofun⟩
  | some runqueue =>
    have held := sound runqueue (List.mem_of_find?_eq_some found)
    simp only [found, (selectNextProcess_inTurn held inTurn).1, Run.ok_bind, Run.pure_eq] at scheduled
    have numbered : (kernel.firstReady runqueue).2.cpuId = cpuId := by
      have own : runqueue.cpuId = cpuId := by simpa using List.find?_some found
      rw [firstReady]
      split
      · exact own
      · exact own
    -- What the search leaves, before the processor is given to another process.
    have searched : (kernel.modifyRunqueue cpuId fun _ => (kernel.firstReady runqueue).2).getRunqueue
        cpuId = some (kernel.firstReady runqueue).2 := by
      rw [getRunqueue_modifyRunqueue, found, Option.map_some]
      intro other again
      have own : other.cpuId = cpuId := by simpa using List.find?_some again
      rw [numbered, own]
    have others : ∀ other, other ≠ cpuId → (kernel.modifyRunqueue cpuId
        fun _ => (kernel.firstReady runqueue).2).getRunqueue other = kernel.getRunqueue other := by
      intro other differs
      refine find?_modifyFirst_other ?_ _
      intro item passes
      rw [beq_iff_eq] at passes
      rw [passes, numbered]
      exact ⟨beq_false_of_ne differs.symm, beq_false_of_ne differs.symm⟩
    have whole : ∀ ready : Kernel, ready.runqueues = (kernel.modifyRunqueue cpuId
        fun _ => (kernel.firstReady runqueue).2).runqueues →
        (∀ other, other ≠ cpuId → ready.getRunqueue other = kernel.getRunqueue other) ∧
        ∀ runqueue', some runqueue = some runqueue' → ∃ later, ready.getRunqueue cpuId = some later ∧
          later.processQueue = (kernel.firstReady runqueue').2.processQueue ∧
          later.currentIndex = (kernel.firstReady runqueue').2.currentIndex := by
      intro ready same
      refine ⟨fun other differs => ?_, ?_⟩
      · rw [getRunqueue, same]
        exact others other differs
      · rintro runqueue' ⟨⟩
        refine ⟨_, ?_, rfl, rfl⟩
        rw [getRunqueue, same]
        exact searched
    split at scheduled
    · cases scheduled
      exact whole _ rfl
    · split at scheduled
      · cases scheduled
        exact whole _ rfl
      · cases scheduled
        have queues := (dispatch_frame (kernel.modifyRunqueue cpuId
          fun _ => (kernel.firstReady runqueue).2) cpuId runqueue.current
          (kernel.firstReady runqueue).1 ticks).1
        refine ⟨fun other differs => ?_, ?_⟩
        · rw [getRunqueue, queues, ← others other differs]
          refine find?_modifyFirst_other ?_ _
          intro item passes
          rw [beq_iff_eq] at passes
          rw [passes]
          exact ⟨beq_false_of_ne differs.symm, beq_false_of_ne differs.symm⟩
        · rintro runqueue' ⟨⟩
          refine ⟨{ (kernel.firstReady runqueue).2 with
            currentTimeSlice := defaultTimeSlice, current := (kernel.firstReady runqueue).1 }, ?_,
            rfl, rfl⟩
          rw [getRunqueue, queues, find?_modifyFirst fun item again => by
            simpa using List.find?_some again]
          show Option.map _ ((kernel.modifyRunqueue cpuId
            fun _ => (kernel.firstReady runqueue).2).getRunqueue cpuId) = _
          rw [searched]
          rfl

/-- Adding a process changes a queue at its end at most. -/
theorem addProcess_changed {runqueue : CpuRunQueue} (found : kernel.getRunqueue cpuId = some runqueue)
    (new : Nat) : ∃ later, (kernel.addProcess new).getRunqueue cpuId = some later ∧
      runqueue.Changed later := by
  rcases kernel.addProcess_cases new with same | ⟨target, -, there, -, added⟩
  · rw [same]
    exact ⟨runqueue, found, runqueue, Or.inl .refl, rfl, rfl⟩
  · rw [added]
    by_cases here : cpuId = leastLoaded kernel.runqueues
    · subst here
      refine ⟨runqueue.enqueue new, ?_, runqueue.enqueue new, Or.inl (.enqueue .refl new), rfl, rfl⟩
      rw [getRunqueue_modifyRunqueue (by intros; rfl)]
      exact congrArg (Option.map _) found
    · refine ⟨runqueue, ?_, runqueue, Or.inl .refl, rfl, rfl⟩
      rw [getRunqueue_modifyRunqueue_other here (by intros; rfl)]
      exact found

/-- Removing a process takes it out of one queue at most. -/
theorem removeProcess_changed {runqueue : CpuRunQueue}
    (found : kernel.getRunqueue cpuId = some runqueue) (old : Nat) :
    ∃ later, (kernel.removeProcess old).getRunqueue cpuId = some later ∧ runqueue.Changed later := by
  rw [removeProcess]
  split
  · exact ⟨runqueue, found, runqueue, Or.inl .refl, rfl, rfl⟩
  · have kept : ∀ item : CpuRunQueue, ((item.dequeue old).clearCurrent old).cpuId = item.cpuId := by
      intro item
      rw [CpuRunQueue.clearCurrent]
      split <;> rfl
    rcases find?_modifyFirst_kept (fun runqueue : CpuRunQueue => decide (old ∈ runqueue.processQueue))
        (fun runqueue => (runqueue.dequeue old).clearCurrent old) (fun item => by rw [kept]) found with
        same | ⟨held, changed⟩
    · exact ⟨runqueue, same, runqueue, Or.inl .refl, rfl, rfl⟩
    · rw [decide_eq_true_eq] at held
      refine ⟨_, changed, runqueue.dequeue old, Or.inr (.dequeue .refl held),
        clearCurrent_processQueue _ _, ?_⟩
      rw [CpuRunQueue.clearCurrent]
      split <;> rfl

/-- Moving a process adds it to a queue other than the one it leaves, at most. -/
theorem migrateProcess_grown {fromCpu : Nat} {runqueue : CpuRunQueue} (away : cpuId ≠ fromCpu)
    (found : kernel.getRunqueue cpuId = some runqueue) (moved toCpu : Nat) :
    ∃ later, (kernel.migrateProcess moved fromCpu toCpu).getRunqueue cpuId = some later ∧
      runqueue.Grown later := by
  unfold migrateProcess
  split
  · exact ⟨runqueue, found, .refl⟩
  · split
    · have left : (kernel.modifyRunqueue fromCpu fun runqueue =>
          if moved ∈ runqueue.processQueue then runqueue.dequeue moved else runqueue).getRunqueue
            cpuId = some runqueue := by
        rw [getRunqueue_modifyRunqueue_other away (by intro other; split <;> rfl), found]
      by_cases here : cpuId = toCpu
      · subst here
        refine ⟨runqueue.enqueue moved, ?_, .enqueue .refl moved⟩
        rw [getRunqueue_modifyRunqueue (by intros; rfl), left]
        rfl
      · refine ⟨runqueue, ?_, .refl⟩
        rw [getRunqueue_modifyRunqueue_other here (by intros; rfl), left]
    · exact ⟨runqueue, found, .refl⟩

/-- Moving processes takes them out of one queue and adds them to another. -/
theorem moveProcesses_changed {fromCpu toCpu : Nat} (apart : fromCpu ≠ toCpu) (fuel : Nat) :
    ∀ (index toMove : Nat) (kernel : Kernel) (runqueue : CpuRunQueue),
      kernel.getRunqueue cpuId = some runqueue →
      ∃ later, (kernel.moveProcesses fromCpu toCpu fuel index toMove).getRunqueue cpuId = some later ∧
        (cpuId = fromCpu → runqueue.Shrunk later) ∧ (cpuId ≠ fromCpu → runqueue.Grown later) := by
  -- By induction on the rounds.
  induction fuel with
  | zero => exact fun _ _ _ runqueue found => ⟨runqueue, found, fun _ => .refl, fun _ => .refl⟩
  | succ fuel ih =>
    intro index toMove kernel runqueue found
    have stays : ∃ later, kernel.getRunqueue cpuId = some later ∧
        (cpuId = fromCpu → runqueue.Shrunk later) ∧ (cpuId ≠ fromCpu → runqueue.Grown later) :=
      ⟨runqueue, found, fun _ => .refl, fun _ => .refl⟩
    unfold moveProcesses
    split
    · exact stays
    · rename_i source there
      split
      · exact stays
      · rename_i more
        have held := processAt_mem (show index < source.processQueue.length by omega)
        dsimp only
        split
        · rename_i movable
          -- One process moves, and then perhaps others.
          obtain ⟨middle, found', shrunk, grown⟩ : ∃ middle,
              (kernel.migrateProcess (source.processAt index) fromCpu toCpu).getRunqueue cpuId =
                some middle ∧
              (cpuId = fromCpu → runqueue.Shrunk middle) ∧
              (cpuId ≠ fromCpu → runqueue.Grown middle) := by
            by_cases here : cpuId = fromCpu
            · subst here
              obtain rfl := Option.some.inj (there.symm.trans found)
              exact ⟨_, (Exclusive.migrateProcess_spec apart there held movable).1,
                fun _ => .dequeue .refl held, fun differs => absurd rfl differs⟩
            · obtain ⟨middle, there', grown⟩ :=
                migrateProcess_grown here found (source.processAt index) toCpu
              exact ⟨middle, there', fun same => absurd same here, fun _ => grown⟩
          obtain ⟨later, found'', shrunk', grown'⟩ := ih index (toMove - 1) _ middle found'
          exact ⟨later, found'', fun here => (shrunk here).trans (shrunk' here),
            fun away => (grown away).trans (grown' away)⟩
        · exact ih (index + 1) toMove kernel runqueue found

/-- Balancing takes processes out of a queue or adds them to it. -/
theorem loadBalance_changed {runqueue : CpuRunQueue} (found : kernel.getRunqueue cpuId = some runqueue) :
    ∃ later, kernel.loadBalance.getRunqueue cpuId = some later ∧ runqueue.Changed later := by
  have stays : ∃ later, kernel.getRunqueue cpuId = some later ∧ runqueue.Changed later :=
    ⟨runqueue, found, runqueue, Or.inl .refl, rfl, rfl⟩
  unfold loadBalance
  dsimp only
  split
  · exact stays
  · split
    · by_cases same : (extremes kernel.runqueues).1.2 = (extremes kernel.runqueues).2.2
      · rw [same, Exclusive.moveProcesses_self]
        exact stays
      · obtain ⟨later, found', shrunk, grown⟩ := moveProcesses_changed same _ 0 _ kernel runqueue found
        refine ⟨later, found', later, ?_, rfl, rfl⟩
        by_cases here : cpuId = (extremes kernel.runqueues).1.2
        · exact Or.inr (shrunk here)
        · exact Or.inl (grown here)
    · exact stays

end Kernel

/-- A call reschedules a processor. -/
def SchedulerCall.reschedules (cpuId : Nat) : SchedulerCall → Bool
  | .scheduleOnCpu other _ => other == cpuId
  | _ => false

namespace Kernel

variable {kernel after : Kernel} {cpuId process : Nat}

/-- The wait of a process in a queue that is known. -/
theorem wait_eq {runqueue : CpuRunQueue} (found : kernel.getRunqueue cpuId = some runqueue) :
    kernel.wait cpuId process = runqueue.turns process := by
  rw [wait, found]
  rfl

/-- One call: a processor that picks another process is nearer to a waiting one, and no other call costs more than it counts. -/
theorem wait_step (sound : kernel.SoundQueues) (inTurn : kernel.policy = .roundRobin)
    {call : SchedulerCall} (performed : kernel.performScheduler call = some after)
    (waits : kernel.Waits cpuId process) (waits' : after.Waits cpuId process)
    (passed : call.reschedules cpuId = true → ¬ kernel.Picks cpuId process) :
    after.wait cpuId process + (if call.reschedules cpuId then 1 else 0) ≤
      kernel.wait cpuId process + kernel.delay after cpuId := by
  obtain ⟨ready, runqueue, found, once⟩ := waits
  obtain ⟨-, later', found', once'⟩ := waits'
  obtain ⟨-, inside, member⟩ := Waits.inside sound found once
  have stays : process ∈ later'.processQueue := List.count_pos_iff.mp (by omega)
  rw [wait_eq found, wait_eq found', delay, found, found']
  -- Any call but rescheduling only adds or removes processes.
  have costs : runqueue.Changed later' → later'.turns process ≤
      runqueue.turns process + runqueue.delay later' :=
    fun changed => changed.turns_le inside (Nat.le_of_eq once) stays
  have itself : runqueue.Changed runqueue := ⟨runqueue, Or.inl .refl, rfl, rfl⟩
  cases call with
  | initializeScheduler policy cpuCount =>
    -- A new queue has no processes.
    cases performed
    obtain ⟨number, -, rfl⟩ := List.mem_map.mp (List.mem_of_find?_eq_some found')
    cases stays
  | addProcess new =>
    cases performed
    obtain ⟨later, there, changed⟩ := addProcess_changed found new
    obtain rfl := Option.some.inj (found'.symm.trans there)
    exact costs changed
  | removeProcess old =>
    cases performed
    obtain ⟨later, there, changed⟩ := removeProcess_changed found old
    obtain rfl := Option.some.inj (found'.symm.trans there)
    exact costs changed
  | loadBalance =>
    cases performed
    obtain ⟨later, there, changed⟩ := loadBalance_changed found
    obtain rfl := Option.some.inj (found'.symm.trans there)
    exact costs changed
  | others processes records current =>
    cases performed
    obtain rfl := Option.some.inj (found'.symm.trans found)
    exact costs itself
  | scheduleOnCpu other ticks =>
    have scheduled := Run.toOption_eq_some.mp performed
    obtain ⟨others, searched⟩ := scheduleOnCpu_queues sound inTurn scheduled
    by_cases here : other = cpuId
    · subst here
      obtain ⟨later, there, queue, index⟩ := searched runqueue found
      obtain rfl := Option.some.inj (found'.symm.trans there)
      rw [SchedulerCall.reschedules, beq_self_eq_true] at passed ⊢
      obtain ⟨-, nearer⟩ := firstReady_turns inside member ready
        (fun picked => passed rfl ⟨runqueue, found, picked⟩)
      have same : later'.turns process = (kernel.firstReady runqueue).2.turns process := by
        rw [CpuRunQueue.turns, CpuRunQueue.turns, queue, index]
      rw [if_pos rfl, same]
      exact Nat.le_trans nearer (Nat.le_add_right _ _)
    · rw [others cpuId (Ne.symm here)] at found'
      obtain rfl := Option.some.inj (found'.symm.trans found)
      rw [SchedulerCall.reschedules, beq_false_of_ne here]
      exact costs itself

/--
A process waits in the queue of a processor through a whole run, and is never picked.

In every state of the run it is ready and once in the queue, processes are picked in turn, and the
processor, whenever it is rescheduled, would pick another one.
-/
def PassedOver (cpuId process : Nat) (kernel : Kernel) : List SchedulerCall → Prop
  | [] => kernel.Waits cpuId process
  | call :: calls => kernel.Waits cpuId process ∧ kernel.policy = .roundRobin ∧
    (call.reschedules cpuId = true → ¬ kernel.Picks cpuId process) ∧
    ∀ next, kernel.performScheduler call = some next → PassedOver cpuId process next calls

/-- The turns that the calls of a run may cost the processes of a queue. -/
def delays (cpuId : Nat) (kernel : Kernel) : List SchedulerCall → Nat
  | [] => 0
  | call :: calls => (kernel.performScheduler call).elim 0 fun next =>
    kernel.delay next cpuId + next.delays cpuId calls

/-- At the start of such a run the process waits. -/
theorem PassedOver.waits {calls : List SchedulerCall} (passed : PassedOver cpuId process kernel calls) :
    kernel.Waits cpuId process := by
  cases calls with
  | nil => exact passed
  | cons call calls => exact passed.1

/--
Selection in turn starves no process.

A process that stays ready in the queue of a processor is passed over by fewer reschedulings of that
processor than its queue has processes, plus one for each process that is added to the queue, plus a
round whenever a process leaves the queue and its index is zero then.
-/
theorem roundRobin_starves_nobody (calls : List SchedulerCall) :
    ∀ kernel : Kernel, kernel.SoundQueues → PassedOver cpuId process kernel calls →
      calls.countP (·.reschedules cpuId) ≤ kernel.wait cpuId process + kernel.delays cpuId calls ∧
        ∃ runqueue, kernel.getRunqueue cpuId = some runqueue ∧
          kernel.wait cpuId process < runqueue.processQueue.length := by
  have bounded : ∀ kernel : Kernel, kernel.SoundQueues → kernel.Waits cpuId process →
      ∃ runqueue, kernel.getRunqueue cpuId = some runqueue ∧
        kernel.wait cpuId process < runqueue.processQueue.length := by
    rintro kernel sound ⟨-, runqueue, found, once⟩
    refine ⟨runqueue, found, ?_⟩
    rw [wait_eq found]
    exact turns_lt (Waits.inside sound found once).2.2
  -- By induction on the calls, with the state they start from.
  induction calls with
  | nil => exact fun kernel sound passed => ⟨Nat.zero_le _, bounded kernel sound passed⟩
  | cons call calls ih =>
    intro kernel sound passed
    refine ⟨?_, bounded kernel sound passed.1⟩
    obtain ⟨waits, inTurn, other, rest⟩ := passed
    obtain ⟨next, performed, sound'⟩ := sound.perform call
    have further := (ih next sound' (rest next performed)).1
    have step := wait_step sound inTurn performed waits (rest next performed).waits other
    rw [List.countP_cons, delays, performed]
    simp only [Option.elim_some]
    omega

/-- One processor with three ready processes, the first of which it runs. -/
def threeReady : Kernel :=
  { smallKernel 1 with
    processes := fun _ => ⟨.ready, 0⟩
    runqueues := [⟨[10, 20, 30], 0, defaultTimeSlice, 10, 0, false⟩] }

/-- The third process is passed over once, with a fourth one that comes in between. -/
theorem roundRobin_starves_nobody_third :
    [SchedulerCall.scheduleOnCpu 0 7, .addProcess 40].countP (·.reschedules 0) ≤
      threeReady.wait 0 30 + threeReady.delays 0 [.scheduleOnCpu 0 7, .addProcess 40] := by
  have sound : threeReady.SoundQueues := by
    intro runqueue member
    obtain rfl := List.mem_singleton.mp member
    exact ⟨Or.inl (by decide), by decide⟩
  have passed : PassedOver 0 30 threeReady [.scheduleOnCpu 0 7, .addProcess 40] := by
    refine ⟨⟨rfl, _, rfl, rfl⟩, rfl, ?_, ?_⟩
    · rintro - ⟨runqueue, found, picked⟩
      cases found
      exact absurd picked (by decide)
    · intro next performed
      cases performed
      refine ⟨⟨rfl, _, rfl, rfl⟩, rfl, nofun, ?_⟩
      intro last performed
      cases performed
      exact ⟨rfl, _, rfl, rfl⟩
  exact (roundRobin_starves_nobody _ threeReady sound passed).1

end Kernel

end Pocky
