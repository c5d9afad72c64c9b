import Pocky.Core.ProcessLaws

/-! Which runs of the kernel keep every process in at most one run queue. -/

namespace Pocky

open Kernel

/-- A process is in no run queue, or in the one it would be added to. -/
def Kernel.Lands (kernel : Kernel) (process : Nat) : Prop :=
  process ∈ kernel.queued → ∃ picked,
    kernel.getRunqueue (leastLoaded kernel.runqueues) = some picked ∧ process ∈ picked.processQueue

/-- The processes that balancing moves out of the longest queue. -/
def Kernel.migrating (kernel : Kernel) : List Nat :=
  let (longest, shortest) := extremes kernel.runqueues
  match kernel.getRunqueue longest.2 with
  | none => []
  | some runqueue =>
    (runqueue.processQueue.filter (kernel.canMigrateProcess · shortest.2)).take
      (wordSub longest.1 shortest.1 / 2)

/-- No process is queued twice, and a processor runs only processes of its own queue. -/
structure Exclusive (runqueues : List CpuRunQueue) : Prop where
  /-- Every process occurs at most once over all queues. -/
  once : (runqueues.flatMap (·.processQueue)).Nodup
  /-- The current process of a processor is in its queue. -/
  own : ∀ runqueue ∈ runqueues, runqueue.current ≠ 0 → runqueue.current ∈ runqueue.processQueue

namespace Exclusive

variable {front rest : List CpuRunQueue} {runqueue changed : CpuRunQueue}

/-- One queue may change, as long as what it gains was in no queue. -/
theorem replace (exclusive : Exclusive (front ++ runqueue :: rest))
    (once : changed.processQueue.Nodup)
    (gained : ∀ process ∈ changed.processQueue, process ∈ runqueue.processQueue ∨
      process ∉ (front ++ runqueue :: rest).flatMap (·.processQueue))
    (own : changed.current ≠ 0 → changed.current ∈ changed.processQueue) :
    Exclusive (front ++ changed :: rest) := by
  have before := exclusive.once
  simp only [List.flatMap_append, List.flatMap_cons, List.nodup_append, List.mem_append] at before
  obtain ⟨onceFront, ⟨-, onceRest, apartRest⟩, apartFront⟩ := before
  -- A process of the changed queue is in neither of the other parts.
  have outside : ∀ process ∈ changed.processQueue,
      process ∉ front.flatMap (·.processQueue) ∧ process ∉ rest.flatMap (·.processQueue) := by
    intro process held
    rcases gained process held with old | new
    · exact ⟨fun inFront => apartFront process inFront process (Or.inl old) rfl,
        fun inRest => apartRest process old process inRest rfl⟩
    · simp only [List.flatMap_append, List.flatMap_cons, List.mem_append, not_or] at new
      exact ⟨new.1, new.2.2⟩
  constructor
  · simp only [List.flatMap_append, List.flatMap_cons, List.nodup_append, List.mem_append]
    refine ⟨onceFront, ⟨once, onceRest, ?_⟩, ?_⟩
    · rintro process held other inRest rfl
      exact (outside process held).2 inRest
    · rintro process inFront other (held | inRest) rfl
      · exact (outside process held).1 inFront
      · exact apartFront process inFront process (Or.inr inRest) rfl
  · intro other member
    rcases List.mem_append.mp member with inFront | atOrBehind
    · exact exclusive.own other (List.mem_append_left _ inFront)
    · rcases List.mem_cons.mp atOrBehind with rfl | inRest
      · exact own
      · exact exclusive.own other (List.mem_append_right _ (List.mem_cons_of_mem _ inRest))

/-- A queue of its own has no process twice. -/
theorem nodup (exclusive : Exclusive (front ++ runqueue :: rest)) :
    runqueue.processQueue.Nodup := by
  have before := exclusive.once
  simp only [List.flatMap_append, List.flatMap_cons, List.nodup_append] at before
  exact before.2.1.1

/-- Changing the first queue that passes a test. -/
theorem modify {runqueues : List CpuRunQueue} (exclusive : Exclusive runqueues)
    (test : CpuRunQueue → Bool) (change : CpuRunQueue → CpuRunQueue)
    (once : ∀ runqueue, runqueues.find? test = some runqueue →
      runqueue.processQueue.Nodup → (change runqueue).processQueue.Nodup)
    (gained : ∀ runqueue, runqueues.find? test = some runqueue →
      ∀ process ∈ (change runqueue).processQueue, process ∈ runqueue.processQueue ∨
        process ∉ runqueues.flatMap (·.processQueue))
    (own : ∀ runqueue, runqueues.find? test = some runqueue →
      (runqueue.current ≠ 0 → runqueue.current ∈ runqueue.processQueue) →
      (change runqueue).current ≠ 0 → (change runqueue).current ∈ (change runqueue).processQueue) :
    Exclusive (modifyFirst test change runqueues) := by
  rcases modifyFirst_cases test change runqueues with
    ⟨-, same⟩ | ⟨front, runqueue, rest, parts, found, changed⟩
  · rw [same]
    exact exclusive
  · rw [changed]
    subst parts
    refine exclusive.replace (once runqueue found exclusive.nodup) (gained runqueue found)
      (own runqueue found ?_)
    exact exclusive.own runqueue (List.mem_append_right _ List.mem_cons_self)

/-- Changes that keep the queue and take the current process from it are harmless. -/
theorem modify_current {runqueues : List CpuRunQueue} (exclusive : Exclusive runqueues)
    (test : CpuRunQueue → Bool) (change : CpuRunQueue → CpuRunQueue)
    (same : ∀ runqueue, runqueues.find? test = some runqueue →
      (change runqueue).processQueue = runqueue.processQueue)
    (own : ∀ runqueue, runqueues.find? test = some runqueue →
      (change runqueue).current = runqueue.current ∨
        (change runqueue).current ∈ runqueue.processQueue) :
    Exclusive (modifyFirst test change runqueues) := by
  refine exclusive.modify test change ?_ ?_ ?_
  · intro runqueue found nodup
    rwa [same runqueue found]
  · intro runqueue found process held
    rw [same runqueue found] at held
    exact Or.inl held
  · intro runqueue found owned nonzero
    rw [same runqueue found]
    rcases own runqueue found with kept | inside
    · rw [kept] at nonzero ⊢
      exact owned nonzero
    · exact inside

/-- A process that is in no queue may go to the end of one. -/
theorem enqueue {runqueues : List CpuRunQueue} (exclusive : Exclusive runqueues) {process : Nat}
    (unqueued : process ∉ runqueues.flatMap (·.processQueue)) (test : CpuRunQueue → Bool) :
    Exclusive (modifyFirst test (·.enqueue process) runqueues) := by
  refine exclusive.modify test _ ?_ ?_ ?_
  · intro runqueue found nodup
    have absent : process ∉ runqueue.processQueue := fun inside =>
      unqueued (List.mem_flatMap.mpr ⟨runqueue, List.mem_of_find?_eq_some found, inside⟩)
    simp only [CpuRunQueue.enqueue, ← List.concat_eq_append]
    exact nodup.concat absent
  · intro runqueue found other inside
    rcases List.mem_append.mp inside with old | new
    · exact Or.inl old
    · rw [List.mem_singleton.mp new]
      exact Or.inr unqueued
  · intro runqueue _ owned nonzero
    exact List.mem_append_left _ (owned nonzero)

/-- A process that has left its queue is in no queue. -/
theorem unqueued_of_erased (exclusive : Exclusive (front ++ runqueue :: rest)) {process : Nat}
    (held : process ∈ runqueue.processQueue)
    (erased : changed.processQueue = runqueue.processQueue.erase process) :
    process ∉ (front ++ changed :: rest).flatMap (·.processQueue) := by
  -- Its only occurrence was in the queue it has left.
  have once := exclusive.once
  simp only [List.flatMap_append, List.flatMap_cons, List.nodup_append] at once
  simp only [List.flatMap_append, List.flatMap_cons, erased, List.mem_append, not_or]
  refine ⟨fun inFront => ?_, exclusive.nodup.not_mem_erase, fun inRest => ?_⟩
  · exact once.2.2 process inFront process (List.mem_append_left _ held) rfl
  · exact once.2.1.2.2 process held process inRest rfl

/-- Rescheduling moves processes between no queues. -/
theorem scheduleOnCpu (kernel : Kernel) {after : Kernel} {cpuId ticks : Nat}
    (exclusive : Exclusive kernel.runqueues)
    (scheduled : kernel.scheduleOnCpu cpuId ticks = .ok after) : Exclusive after.runqueues := by
  rcases scheduleOnCpu_cases scheduled with
    rfl | ⟨runqueue, index, found, -, moved⟩
  · exact exclusive
  · -- The search only moves the index of the queue.
    have searched : Exclusive (kernel.modifyRunqueue cpuId
        fun _ => { runqueue with currentIndex := index }).runqueues := by
      refine exclusive.modify_current _ _ ?_ ?_
      · intro other again
        cases found.symm.trans again
        rfl
      · intro other again
        cases found.symm.trans again
        exact Or.inl rfl
    rcases moved with rfl | ⟨next, -, held, -, -, rfl⟩
    · exact searched
    · -- The selected process comes from the queue itself.
      rw [(dispatch_frame _ _ _ _ _).1]
      refine searched.modify_current _ _ (fun _ _ => rfl) ?_
      intro other again
      have same : other = { runqueue with currentIndex := index } := by
        have looked : (kernel.modifyRunqueue cpuId
            fun _ => { runqueue with currentIndex := index }).getRunqueue cpuId = some other := again
        rw [getRunqueue_modifyRunqueue (by intro _ once; cases found.symm.trans once; rfl), found] at looked
        exact (Option.some_inj.mp looked).symm
      subst same
      exact Or.inr held

/-- A process may be added that is in no queue, or in the one it would be added to. -/
theorem addProcess (kernel : Kernel) (exclusive : Exclusive kernel.runqueues) {process : Nat}
    (lands : kernel.Lands process) : Exclusive (kernel.addProcess process).runqueues := by
  rcases kernel.addProcess_cases process with same | ⟨runqueue, -, found, absent, added⟩
  · rw [same]
    exact exclusive
  · -- The picked queue does not have the process, so no queue has it.
    have unqueued : process ∉ kernel.queued := by
      intro queued
      obtain ⟨picked, again, held⟩ := lands queued
      cases found.symm.trans again
      exact absent held
    rw [added]
    exact exclusive.enqueue unqueued _

/-- A process that is removed is in no queue afterwards. -/
theorem removeProcess {kernel : Kernel} (exclusive : Exclusive kernel.runqueues) (process : Nat) :
    Exclusive (kernel.removeProcess process).runqueues ∧
      (process ≠ 0 → process ∉ (kernel.removeProcess process).queued ∧
        ∀ runqueue ∈ (kernel.removeProcess process).runqueues, runqueue.current ≠ process) := by
  have current : ∀ kernel : Kernel, Exclusive kernel.runqueues → process ≠ 0 →
      process ∉ kernel.queued →
      process ∉ kernel.queued ∧ ∀ runqueue ∈ kernel.runqueues, runqueue.current ≠ process := by
    -- The current process of a processor is queued, so an unqueued process is current nowhere.
    rintro kernel exclusive nonzero unqueued
    refine ⟨unqueued, ?_⟩
    rintro runqueue member rfl
    exact unqueued (mem_queued.mpr ⟨runqueue, member, exclusive.own runqueue member nonzero⟩)
  rcases kernel.removeProcess_cases process with
    ⟨same, absent⟩ | ⟨front, runqueue, rest, parts, nonzero, held, removed⟩
  · rw [same]
    exact ⟨exclusive, fun nonzero => current kernel exclusive nonzero (absent.resolve_left nonzero)⟩
  · rw [parts] at exclusive
    have left : ((runqueue.dequeue process).clearCurrent process).processQueue =
        runqueue.processQueue.erase process := by
      rw [clearCurrent_processQueue, dequeue_processQueue held]
    have changed : Exclusive
        (front ++ (runqueue.dequeue process).clearCurrent process :: rest) := by
      refine exclusive.replace ?_ ?_ ?_
      · rw [left]
        exact exclusive.nodup.erase process
      · intro other inside
        rw [left] at inside
        exact Or.inl (List.mem_of_mem_erase inside)
      · intro running
        rw [left]
        unfold CpuRunQueue.clearCurrent at running ⊢
        split_ifs at running ⊢ with same
        · exact absurd rfl running
        · have owned := exclusive.own runqueue (List.mem_append_right _ List.mem_cons_self) running
          exact (List.mem_erase_of_ne same).mpr owned
    rw [removed]
    refine ⟨changed, fun _ => current _ changed nonzero ?_⟩
    exact exclusive.unqueued_of_erased held left

/-- The queue of a processor has no process twice. -/
theorem nodup_of_found {kernel : Kernel} (exclusive : Exclusive kernel.runqueues) {cpuId : Nat}
    {runqueue : CpuRunQueue} (found : kernel.getRunqueue cpuId = some runqueue) :
    runqueue.processQueue.Nodup := by
  obtain ⟨front, rest, parts⟩ := List.append_of_mem (List.mem_of_find?_eq_some found)
  rw [parts] at exclusive
  exact exclusive.nodup

/-- A process of one queue that is not current there may be moved to another queue. -/
theorem migrateProcess {kernel : Kernel} (exclusive : Exclusive kernel.runqueues)
    {process fromCpu toCpu : Nat} {runqueue : CpuRunQueue}
    (found : kernel.getRunqueue fromCpu = some runqueue) (held : process ∈ runqueue.processQueue)
    (idle : runqueue.current ≠ process) :
    Exclusive (kernel.migrateProcess process fromCpu toCpu).runqueues := by
  unfold Kernel.migrateProcess
  split_ifs with pointless
  · exact exclusive
  · split
    · -- The process leaves its queue, and then it is in none.
      have left : Exclusive (kernel.modifyRunqueue fromCpu fun runqueue =>
          if process ∈ runqueue.processQueue then runqueue.dequeue process
          else runqueue).runqueues := by
        refine exclusive.modify _ _ ?_ ?_ ?_
        · intro other again nodup
          cases found.symm.trans again
          rw [if_pos held, dequeue_processQueue held]
          exact nodup.erase process
        · intro other again moved inside
          cases found.symm.trans again
          rw [if_pos held, dequeue_processQueue held] at inside
          exact Or.inl (List.mem_of_mem_erase inside)
        · intro other again owned nonzero
          cases found.symm.trans again
          rw [if_pos held] at nonzero ⊢
          rw [dequeue_processQueue held]
          exact (List.mem_erase_of_ne idle).mpr (owned nonzero)
      have unqueued : process ∉ (kernel.modifyRunqueue fromCpu fun runqueue =>
          if process ∈ runqueue.processQueue then runqueue.dequeue process
          else runqueue).queued := by
        rcases modifyFirst_cases (fun runqueue : CpuRunQueue => runqueue.cpuId == fromCpu)
          (fun runqueue => if process ∈ runqueue.processQueue then runqueue.dequeue process
            else runqueue) kernel.runqueues with
          ⟨none, -⟩ | ⟨front, first, rest, parts, again, changed⟩
        · cases (show kernel.runqueues.find? _ = some runqueue from found).symm.trans none
        · cases (show kernel.runqueues.find? _ = some runqueue from found).symm.trans again
          rw [parts] at exclusive
          simp only [queued, modifyRunqueue, changed, if_pos held]
          exact exclusive.unqueued_of_erased held (dequeue_processQueue held)
      -- So it can go to the end of any queue.
      exact left.enqueue unqueued _
    · exact exclusive

/-- What moving a process does to the queue it leaves, and what it leaves alone. -/
theorem migrateProcess_spec {kernel : Kernel} {process fromCpu toCpu : Nat}
    {runqueue : CpuRunQueue} (apart : fromCpu ≠ toCpu)
    (found : kernel.getRunqueue fromCpu = some runqueue) (held : process ∈ runqueue.processQueue)
    (movable : kernel.canMigrateProcess process toCpu = true) :
    (kernel.migrateProcess process fromCpu toCpu).getRunqueue fromCpu =
        some (runqueue.dequeue process) ∧
      ∀ other, (kernel.migrateProcess process fromCpu toCpu).canMigrateProcess other toCpu =
        kernel.canMigrateProcess other toCpu := by
  simp only [canMigrateProcess, ne_eq, decide_eq_true_eq] at movable
  obtain ⟨nonzero, -, -, present⟩ := movable
  obtain ⟨target, there⟩ := Option.isSome_iff_exists.mp present
  unfold Kernel.migrateProcess
  rw [if_neg (by simp [nonzero, apart]), found, there]
  constructor
  · -- The queue the process goes to is another one.
    dsimp only
    rw [getRunqueue_modifyRunqueue_other apart (by intro; rfl),
      getRunqueue_modifyRunqueue (by intro other _; split <;> rfl), found, Option.map_some,
      if_pos held]
  · intro other
    simp only [canMigrateProcess]
    rw [getRunqueue_modifyRunqueue (by intros; rfl),
      getRunqueue_modifyRunqueue_other apart.symm (by intro other; split <;> rfl), Option.isSome_map]
    rfl

/-- Dropping up to the place of a process that has left gives what was behind it. -/
theorem drop_erase {queue : List Nat} (nodup : queue.Nodup) {index : Nat}
    (inside : index < queue.length) :
    (queue.erase (queue.getD index 0)).drop index = queue.drop (index + 1) := by
  rw [List.getD_eq_getElem _ _ inside, nodup.erase_getElem index inside,
    List.eraseIdx_eq_take_drop_succ, List.drop_append_of_le_length (by simp; omega)]
  simp

/-- The loop that moves processes keeps the queues apart if it moves no current process. -/
theorem moveProcesses {fromCpu toCpu : Nat} (apart : fromCpu ≠ toCpu) (fuel : Nat) :
    ∀ (index toMove : Nat) (kernel : Kernel), Exclusive kernel.runqueues →
      (∀ runqueue, kernel.getRunqueue fromCpu = some runqueue → runqueue.current ∉
        ((runqueue.processQueue.drop index).filter
          (kernel.canMigrateProcess · toCpu)).take toMove) →
      Exclusive (kernel.moveProcesses fromCpu toCpu fuel index toMove).runqueues := by
  induction fuel with
  | zero => exact fun index toMove kernel exclusive _ => exclusive
  | succ fuel ih =>
    intro index toMove kernel exclusive idle
    unfold Kernel.moveProcesses
    split
    · exact exclusive
    · rename_i runqueue found
      have still := idle runqueue found
      split_ifs with done
      · exact exclusive
      · have inside : index < runqueue.processQueue.length := by omega
        have split : runqueue.processQueue.drop index =
            runqueue.processQueue.getD index 0 :: runqueue.processQueue.drop (index + 1) := by
          rw [List.getD_eq_getElem _ _ inside]
          exact List.drop_eq_getElem_cons inside
        rw [split, List.filter_cons] at still
        dsimp only
        split_ifs with movable
        · -- The process at the index is the next one to move.
          have movable' : kernel.canMigrateProcess (runqueue.processQueue.getD index 0) toCpu = true :=
            movable
          rw [if_pos movable', show toMove = toMove - 1 + 1 by omega, List.take_succ_cons,
            List.mem_cons, not_or] at still
          obtain ⟨left, same⟩ := migrateProcess_spec apart found (processAt_mem inside) movable
          refine ih index (toMove - 1) _
            (exclusive.migrateProcess found (processAt_mem inside) still.1) ?_
          intro other again
          cases left.symm.trans again
          simp only [same, dequeue_processQueue (processAt_mem inside)]
          rw [CpuRunQueue.processAt, drop_erase (nodup_of_found exclusive found) inside]
          exact still.2
        · refine ih (index + 1) toMove kernel exclusive ?_
          intro other again
          cases found.symm.trans again
          rw [if_neg (by exact movable)] at still
          exact still

/-- Moving processes from a queue to itself does nothing. -/
theorem moveProcesses_self (kernel : Kernel) (cpuId fuel : Nat) :
    ∀ index toMove, kernel.moveProcesses cpuId cpuId fuel index toMove = kernel := by
  induction fuel with
  | zero => exact fun _ _ => rfl
  | succ fuel ih =>
    intro index toMove
    have stays : ∀ process, kernel.migrateProcess process cpuId cpuId = kernel :=
      fun process => if_pos (Or.inr rfl)
    unfold Kernel.moveProcesses
    split
    · rfl
    · split_ifs
      · rfl
      · dsimp only
        split_ifs
        · rw [stays]
          exact ih _ _
        · exact ih _ _

/-- Balancing keeps the queues apart if it moves no current process. -/
theorem loadBalance {kernel : Kernel} (exclusive : Exclusive kernel.runqueues)
    (idle : ∀ runqueue ∈ kernel.runqueues, runqueue.current ∉ kernel.migrating) :
    Exclusive kernel.loadBalance.runqueues := by
  unfold Kernel.loadBalance
  dsimp only
  split_ifs with level
  · exact exclusive
  · split
    · rename_i runqueue _ found _
      by_cases apart : (extremes kernel.runqueues).1.2 = (extremes kernel.runqueues).2.2
      · rw [apart, moveProcesses_self]
        exact exclusive
      · refine exclusive.moveProcesses apart _ _ _ _ ?_
        intro other again
        cases found.symm.trans again
        have still := idle runqueue (List.mem_of_find?_eq_some found)
        simp only [Kernel.migrating, found] at still
        exact still
    · exact exclusive

end Exclusive

/--
A call meets the condition under which no process gets into two run queues.

A process that is added, created or woken is in no run queue but the one it is added to.
Balancing moves no process that a processor runs.
Ticks and waking by resource are not among the calls.
-/
def Kernel.Orderly (kernel : Kernel) : KernelCall → Prop
  | .createProcess address => kernel.Lands address
  | .addProcess process => kernel.Lands process
  | .sendMessage address _ _ size _ _ => ∀ queue process, kernel.queues address = some queue →
    Accepts queue size → kernel.Wakes queue process → kernel.Lands process
  | .loadBalance => ∀ runqueue ∈ kernel.runqueues, runqueue.current ∉ kernel.migrating
  | .tick .. => False
  | .wakeWaitingProcesses _ => False
  | _ => True

namespace Exclusive

/-- Terminating a process keeps the queues apart. -/
theorem terminateProcess {kernel after : Kernel} {pid : Int} {cpuId ticks : Nat}
    (exclusive : Exclusive kernel.runqueues)
    (terminated : kernel.terminateProcess pid cpuId ticks = .ok after) :
    Exclusive after.runqueues := by
  rcases terminateProcess_cases terminated with
    ⟨-, rfl⟩ | ⟨process, cleaned, -, -, frame, outcome⟩
  · exact exclusive
  · have removed : Exclusive cleaned.runqueues := by
      rw [frame]
      exact (exclusive.removeProcess process).1
    rcases outcome with ⟨-, rfl⟩ | ⟨-, ⟨-, rfl⟩ | ⟨-, scheduled⟩⟩
    · exact removed
    · exact removed
    · exact removed.scheduleOnCpu
        { cleaned with currentProcess := cleaned.processList.headD 0 } scheduled

/-- Every orderly call keeps the queues apart. -/
theorem perform {kernel after : Kernel} {call : KernelCall}
    (exclusive : Exclusive kernel.runqueues) (orderly : kernel.Orderly call)
    (performed : kernel.perform call = some after) : Exclusive after.runqueues := by
  cases call with
  | createProcess address =>
    simp only [Kernel.perform] at performed
    split_ifs at performed
    obtain ⟨⟨pid, created⟩, returned, rfl⟩ := Option.map_eq_some_iff.mp performed
    rcases createProcess_cases (Run.toOption_eq_some.mp returned) with
      ⟨-, frame⟩ | ⟨listed, -, added, frame⟩
    · rw [frame]
      exact exclusive
    · -- The process is added to the queues as they were.
      rw [frame] at added
      rw [added]
      refine addProcess _ ?_ ?_
      · exact exclusive
      · exact orderly
  | terminateProcess pid cpuId ticks =>
    exact exclusive.terminateProcess (Run.toOption_eq_some.mp performed)
  | createQueue address =>
    simp only [Kernel.perform] at performed
    split_ifs at performed
    cases performed
    exact exclusive
  | destroyQueue address =>
    obtain ⟨queue, -, rfl⟩ := Option.map_eq_some_iff.mp performed
    exact exclusive
  | sendMessage address sender data size ticks stack =>
    obtain ⟨queue, found, rfl⟩ := Option.map_eq_some_iff.mp performed
    rcases kernel.sendMessage_cases address queue sender data size ticks stack with
      ⟨-, sent⟩ | ⟨message, accepted, ⟨-, sent⟩ | ⟨process, rest, wakes, -, sent⟩⟩
    · rw [sent]
      exact exclusive
    · rw [sent]
      exact exclusive
    · rw [sent]
      refine addProcess _ ?_ ?_
      · exact exclusive
      · exact orderly queue process found accepted wakes
  | receiveMessage address wait cpuId ticks =>
    obtain ⟨queue, -, received⟩ := Option.bind_eq_some_iff.mp performed
    obtain ⟨⟨outcome, returned⟩, answer, rfl⟩ := Option.map_eq_some_iff.mp received
    rcases Kernel.receiveMessage_cases (Run.toOption_eq_some.mp answer) with
      ⟨-, messages, rfl⟩ | ⟨-, scheduled⟩
    · exact exclusive
    · exact exclusive.scheduleOnCpu (kernel.block address queue) scheduled
  | resumeReceive address =>
    obtain ⟨queue, -, rfl⟩ := Option.map_eq_some_iff.mp performed
    exact exclusive
  | addProcess process =>
    simp only [Kernel.perform] at performed
    split_ifs at performed
    cases performed
    exact exclusive.addProcess kernel orderly
  | removeProcess process =>
    cases performed
    exact (exclusive.removeProcess process).1
  | scheduleOnCpu cpuId ticks =>
    exact exclusive.scheduleOnCpu kernel (Run.toOption_eq_some.mp performed)
  | tick interrupts cpuId ticks => exact orderly.elim
  | loadBalance =>
    cases performed
    exact exclusive.loadBalance orderly
  | wakeWaitingProcesses resource => exact orderly.elim
  | setProcessPriority pid priority =>
    cases performed
    unfold Kernel.setProcessPriority
    split <;> exact exclusive

end Exclusive

/-- The queues are apart when the kernel boots. -/
theorem bootKernel_exclusive (policy : SchedulerPolicy) (cpuCount : Nat) (memory : PagedMemory)
    (processes : Nat → Process) (records : Nat → ProcessRecord) :
    Exclusive (bootKernel policy cpuCount memory processes records).runqueues := by
  -- Every queue is empty and no processor runs anything.
  have fresh : ∀ runqueue ∈ (bootKernel policy cpuCount memory processes records).runqueues,
      runqueue.processQueue = [] ∧ runqueue.current = 0 := by
    intro runqueue member
    obtain ⟨cpuId, -, rfl⟩ := List.mem_map.mp member
    exact ⟨rfl, rfl⟩
  constructor
  · rw [List.flatMap_eq_nil_iff.mpr fun runqueue member => (fresh runqueue member).1]
    exact List.nodup_nil
  · intro runqueue member running
    exact absurd (fresh runqueue member).2 running

/--
No process is queued twice in a run of orderly calls.

No process is then current on two processors, and a process that is removed is in no queue.
-/
theorem orderly_runs_queue_once (policy : SchedulerPolicy) (cpuCount : Nat) (memory : PagedMemory)
    (processes : Nat → Process) (records : Nat → ProcessRecord) (calls : List KernelCall)
    (after : Kernel)
    (orderly : Calls.AllMeet Kernel.perform Kernel.Orderly
      (bootKernel policy cpuCount memory processes records) calls)
    (ran : (bootKernel policy cpuCount memory processes records).run calls = some after) :
    after.queued.Nodup ∧
      (∀ (i j : Nat) (first second : CpuRunQueue), after.runqueues[i]? = some first →
        after.runqueues[j]? = some second → first.current ≠ 0 →
        first.current = second.current → i = j) ∧
      ∀ process, process ≠ 0 → process ∉ (after.removeProcess process).queued := by
  have exclusive : Exclusive after.runqueues :=
    Calls.run_invariant (fun kernel : Kernel => Exclusive kernel.runqueues)
      (fun _ _ _ exclusive meets performed => exclusive.perform meets performed) calls _ after
      (bootKernel_exclusive policy cpuCount memory processes records) orderly ran
  refine ⟨exclusive.once, ?_, fun process nonzero =>
    ((exclusive.removeProcess process).2 nonzero).1⟩
  intro i j first second atFirst atSecond running same
  -- A process that two processors run would be in both of their queues.
  by_contra apart
  obtain ⟨inFirst, first'⟩ := List.getElem?_eq_some_iff.mp atFirst
  obtain ⟨inSecond, second'⟩ := List.getElem?_eq_some_iff.mp atSecond
  have disjoint := (List.nodup_flatMap.mp exclusive.once).2
  have ownFirst := exclusive.own first (List.mem_of_getElem? atFirst) running
  have ownSecond := exclusive.own second (List.mem_of_getElem? atSecond) (same ▸ running)
  rw [List.pairwise_iff_getElem] at disjoint
  rcases Nat.lt_or_gt_of_ne apart with below | above
  · have meets := disjoint i j inFirst inSecond below
    change List.Disjoint _ _ at meets
    rw [first', second'] at meets
    exact meets ownFirst (same ▸ ownSecond)
  · have meets := disjoint j i inSecond inFirst above
    change List.Disjoint _ _ at meets
    rw [first', second'] at meets
    exact meets ownSecond (same ▸ ownFirst)

/-- A process that is created, scheduled and removed again. -/
theorem orderly_runs_queue_once_removed :
    ∃ after, (smallKernel 1).run
        [.createProcess 0x1000, .scheduleOnCpu 0 0, .removeProcess 0x1000] = some after ∧
      after.queued.Nodup := by
  have lands : (smallKernel 1).Lands 0x1000 := by
    intro queued
    exact absurd queued (by decide)
  have returns : ((smallKernel 1).run
      [.createProcess 0x1000, .scheduleOnCpu 0 0, .removeProcess 0x1000]).isSome = true := by
    decide +kernel
  obtain ⟨after, ran⟩ := Option.isSome_iff_exists.mp returns
  have orderly : Calls.AllMeet Kernel.perform Kernel.Orderly (smallKernel 1)
      [.createProcess 0x1000, .scheduleOnCpu 0 0, .removeProcess 0x1000] :=
    ⟨lands, fun _ _ => ⟨trivial, fun _ _ => ⟨trivial, fun _ _ => trivial⟩⟩⟩
  exact ⟨after, ran, (orderly_runs_queue_once _ _ _ _ _ _ after orderly ran).1⟩

/--
A process that is woken is queued twice.

On two processors, the process blocks on a queue while it is in the first run queue.
A send then adds it to the second, shorter one.
-/
theorem woken_process_queued_twice :
    ∃ after, (smallKernel 2).run
        [.createProcess 0x1000, .createQueue 0x8000, .scheduleOnCpu 0 0,
          .receiveMessage 0x8000 true 0 0,
          .sendMessage 0x8000 0 (fun _ => 0) 0 0 (fun _ => 0)] = some after ∧
      0x1000 ∈ after.processList ∧ ¬ after.queued.Nodup := by
  have twice : ((smallKernel 2).run
      [.createProcess 0x1000, .createQueue 0x8000, .scheduleOnCpu 0 0,
        .receiveMessage 0x8000 true 0 0,
        .sendMessage 0x8000 0 (fun _ => 0) 0 0 (fun _ => 0)]).map
      (fun after => (after.processList, after.queued)) = some ([0x1000], [0x1000, 0x1000]) := by
    decide +kernel
  obtain ⟨after, ran, shown⟩ := Option.map_eq_some_iff.mp twice
  obtain ⟨listed, queued⟩ := Prod.mk.inj shown
  exact ⟨after, ran, by rw [listed]; decide, by rw [queued]; decide⟩

end Pocky
