import Pocky.Core.KernelInvariants
import Pocky.Core.RunQueueLaws

/-! Which runs leave no reference to a process that has been terminated. -/

namespace Pocky

open Kernel

namespace Kernel

/-- Nothing in the kernel refers to a process. -/
structure Unreferenced (kernel : Kernel) (process : Nat) : Prop where
  /-- It is in no run queue. -/
  unqueued : process ∉ kernel.queued
  /-- No processor runs it. -/
  idle : ∀ runqueue ∈ kernel.runqueues, runqueue.current ≠ process
  /-- It is not the running process. -/
  notCurrent : kernel.currentProcess ≠ process
  /-- It is not on the list of processes. -/
  unlisted : process ∉ kernel.processList
  /-- It waits on no list of a message queue. -/
  waitsNowhere : ∀ address queue, kernel.queues address = some queue →
    process ∉ queue.waitingProcesses

/--
A call meets the condition under which terminated processes leave no references.

A process that is terminated is on no list of waiters.
A process that is woken is in no run queue but the one it is added to.
-/
def Forgets (kernel : Kernel) : KernelCall → Prop
  | .createProcess _ => True
  | .terminateProcess pid .. => ∀ process, kernel.getProcess pid = some process →
    ∀ address queue, kernel.queues address = some queue → process ∉ queue.waitingProcesses
  | call => kernel.Orderly call

/-- Every reference the kernel holds is to a process on the list. -/
structure References (kernel : Kernel) : Prop where
  /-- The run queues are apart. -/
  exclusive : Exclusive kernel.runqueues
  /-- The list has every process once, and null not at all. -/
  listed : kernel.processList.Nodup ∧ 0 ∉ kernel.processList
  /-- Queued processes are listed. -/
  queued : ∀ process ∈ kernel.queued, process ∈ kernel.processList
  /-- The running process is listed, if there is one. -/
  current : kernel.currentProcess ≠ 0 → kernel.currentProcess ∈ kernel.processList
  /-- Waiting processes are listed. -/
  waiting : ∀ address queue, kernel.queues address = some queue →
    ∀ process ∈ queue.waitingProcesses, process ∈ kernel.processList

/-- Rescheduling moves no process to another queue. -/
theorem scheduleOnCpu_queued {kernel after : Kernel} {cpuId ticks : Nat}
    (scheduled : kernel.scheduleOnCpu cpuId ticks = .ok after) : after.queued = kernel.queued := by
  have same : after.runqueues.map (·.processQueue) = kernel.runqueues.map (·.processQueue) := by
    rcases scheduleOnCpu_cases scheduled with rfl | ⟨runqueue, index, found, -, moved⟩
    · rfl
    · have searched : (kernel.modifyRunqueue cpuId
          fun _ => { runqueue with currentIndex := index }).runqueues.map (·.processQueue) =
          kernel.runqueues.map (·.processQueue) := by
        refine map_modifyFirst ?_
        intro other again
        cases (show kernel.runqueues.find? _ = some runqueue from found).symm.trans again
        rfl
      rcases moved with rfl | ⟨next, -, -, -, -, rfl⟩
      · exact searched
      · rw [(dispatch_frame _ _ _ _ _).1, map_modifyFirst (by intros; rfl), searched]
  rw [Kernel.queued, Kernel.queued, List.flatMap_def, List.flatMap_def, same]

/-- After rescheduling the running process is the one before, or a queued one. -/
theorem scheduleOnCpu_current {kernel after : Kernel} {cpuId ticks : Nat}
    (scheduled : kernel.scheduleOnCpu cpuId ticks = .ok after) :
    after.currentProcess = kernel.currentProcess ∨ after.currentProcess ∈ kernel.queued := by
  rcases scheduleOnCpu_cases scheduled with
    rfl | ⟨runqueue, index, found, -, rfl | ⟨next, nonzero, held, -, -, rfl⟩⟩
  · exact Or.inl rfl
  · exact Or.inl rfl
  · rw [dispatch_current _ _ _ _ nonzero]
    exact Or.inr (mem_queued.mpr ⟨runqueue, List.mem_of_find?_eq_some found, held⟩)

/-- Adding a process queues nothing else. -/
theorem addProcess_queued_of_mem {kernel : Kernel} {process other : Nat}
    (queued : other ∈ (kernel.addProcess process).queued) :
    other ∈ kernel.queued ∨ other = process ∧ process ≠ 0 := by
  rcases kernel.addProcess_cases process with same | ⟨runqueue, nonzero, found, -, added⟩
  · rw [same] at queued
    exact Or.inl queued
  · rw [added] at queued
    obtain ⟨changed, member, held⟩ := mem_queued.mp queued
    rcases mem_modifyFirst member with old | ⟨picked, old, rfl⟩
    · exact Or.inl (mem_queued.mpr ⟨changed, old, held⟩)
    · rcases List.mem_append.mp held with before | new
      · exact Or.inl (mem_queued.mpr ⟨picked, old, before⟩)
      · exact Or.inr ⟨List.mem_singleton.mp new, nonzero⟩

/-- Removing a process queues nothing. -/
theorem removeProcess_queued_of_mem {kernel : Kernel} {process other : Nat}
    (queued : other ∈ (kernel.removeProcess process).queued) : other ∈ kernel.queued := by
  rcases kernel.removeProcess_cases process with
    ⟨same, -⟩ | ⟨front, runqueue, rest, parts, -, held, removed⟩
  · rwa [same] at queued
  · rw [removed] at queued
    simp only [Kernel.queued, List.flatMap_append, List.flatMap_cons, clearCurrent_processQueue,
      dequeue_processQueue held, List.mem_append] at queued
    simp only [Kernel.queued, parts, List.flatMap_append, List.flatMap_cons, List.mem_append]
    exact queued.imp_right (Or.imp_left List.mem_of_mem_erase)

/-- Moving a process queues nothing else. -/
theorem migrateProcess_queued_of_mem {kernel : Kernel} {process fromCpu toCpu other : Nat}
    (queued : other ∈ (kernel.migrateProcess process fromCpu toCpu).queued) :
    other ∈ kernel.queued ∨ other = process := by
  unfold migrateProcess at queued
  split_ifs at queued
  · exact Or.inl queued
  · split at queued
    · -- The queue it goes to may be the one it has left.
      obtain ⟨changed, member, held⟩ := mem_queued.mp queued
      have old : ∀ runqueue ∈ (kernel.modifyRunqueue fromCpu fun runqueue =>
          if process ∈ runqueue.processQueue then runqueue.dequeue process
          else runqueue).runqueues, ∀ queued ∈ runqueue.processQueue, queued ∈ kernel.queued := by
        intro runqueue member queued held
        rcases mem_modifyFirst member with same | ⟨before, was, rfl⟩
        · exact mem_queued.mpr ⟨runqueue, same, held⟩
        · refine mem_queued.mpr ⟨before, was, ?_⟩
          split_ifs at held with inside
          · rw [dequeue_processQueue inside] at held
            exact List.mem_of_mem_erase held
          · exact held
      rcases mem_modifyFirst member with same | ⟨before, was, rfl⟩
      · exact Or.inl (old changed same other held)
      · rcases List.mem_append.mp held with kept | new
        · exact Or.inl (old before was other kept)
        · exact Or.inr (List.mem_singleton.mp new)
    · exact Or.inl queued

/-- The loop that moves processes queues nothing new. -/
theorem moveProcesses_queued_of_mem {fromCpu toCpu other : Nat} (fuel : Nat) :
    ∀ (index toMove : Nat) (kernel : Kernel),
      other ∈ (kernel.moveProcesses fromCpu toCpu fuel index toMove).queued →
      other ∈ kernel.queued := by
  induction fuel with
  | zero => exact fun _ _ _ queued => queued
  | succ fuel ih =>
    intro index toMove kernel queued
    unfold moveProcesses at queued
    split at queued
    · exact queued
    · rename_i runqueue found
      split at queued
      · exact queued
      · rename_i going
        dsimp only at queued
        split at queued
        · -- The process that moves comes from the queue itself.
          rcases migrateProcess_queued_of_mem (ih _ _ _ queued) with old | rfl
          · exact old
          · exact mem_queued.mpr
              ⟨runqueue, List.mem_of_find?_eq_some found, processAt_mem (by omega)⟩
        · exact ih _ _ _ queued

/-- Balancing queues nothing new. -/
theorem loadBalance_queued_of_mem {kernel : Kernel} {process : Nat}
    (queued : process ∈ kernel.loadBalance.queued) : process ∈ kernel.queued := by
  unfold loadBalance at queued
  dsimp only at queued
  split at queued
  · exact queued
  · split at queued
    · exact moveProcesses_queued_of_mem _ _ _ _ queued
    · exact queued

namespace References

variable {kernel after : Kernel}

/-- A call that meets the condition is orderly. -/
theorem orderly (references : kernel.References) {call : KernelCall}
    (forgets : kernel.Forgets call) {next : Kernel}
    (performed : kernel.perform call = some next) : kernel.Orderly call := by
  cases call with
  | createProcess address =>
    -- The address is not on the list, so the process is not queued.
    simp only [Kernel.perform] at performed
    split_ifs at performed with used
    intro queued
    exact absurd (Or.inr (references.queued address queued)) used
  | terminateProcess pid cpuId ticks => trivial
  | _ => exact forgets

/-- Only four parts of the kernel matter, and the run queues may lose processes. -/
theorem congr (references : kernel.References) (exclusive : Exclusive after.runqueues)
    (queued : ∀ process ∈ after.queued, process ∈ kernel.queued)
    (list : after.processList = kernel.processList)
    (current : after.currentProcess = kernel.currentProcess ∨
      after.currentProcess ∈ kernel.queued)
    (queues : ∀ address queue, after.queues address = some queue →
      ∃ old, kernel.queues address = some old ∧
        ∀ process ∈ queue.waitingProcesses, process ∈ old.waitingProcesses) :
    after.References := by
  refine ⟨exclusive, ?_, ?_, ?_, ?_⟩
  · rw [list]
    exact references.listed
  · intro process held
    rw [list]
    exact references.queued process (queued process held)
  · intro nonzero
    rw [list]
    rcases current with same | picked
    · rw [same] at nonzero ⊢
      exact references.current nonzero
    · exact references.queued _ picked
  · intro address queue found process member
    rw [list]
    obtain ⟨old, foundOld, kept⟩ := queues address queue found
    exact references.waiting address old foundOld process (kept process member)

/-- Rescheduling. -/
theorem scheduleOnCpu (kernel : Kernel) (references : kernel.References) {cpuId ticks : Nat}
    (scheduled : kernel.scheduleOnCpu cpuId ticks = .ok after) : after.References := by
  obtain ⟨list, queues, -⟩ := scheduleOnCpu_frame scheduled
  refine references.congr (references.exclusive.scheduleOnCpu kernel scheduled) ?_ list
    (scheduleOnCpu_current scheduled) ?_
  · rw [scheduleOnCpu_queued scheduled]
    exact fun _ held => held
  · rw [queues]
    exact fun address queue found => ⟨queue, found, fun _ member => member⟩

/-- Adding a process of the list. -/
theorem addProcess (kernel : Kernel) (references : kernel.References) {process : Nat}
    (lands : kernel.Lands process) (listed : process ≠ 0 → process ∈ kernel.processList) :
    (kernel.addProcess process).References := by
  obtain ⟨list, queues, -, -, -, current⟩ := kernel.addProcess_frame process
  refine ⟨references.exclusive.addProcess kernel lands, ?_, ?_, ?_, ?_⟩
  · rw [list]
    exact references.listed
  · intro other queued
    rw [list]
    rcases addProcess_queued_of_mem queued with old | ⟨rfl, nonzero⟩
    · exact references.queued other old
    · exact listed nonzero
  · rw [list, current]
    exact references.current
  · rw [list, queues]
    exact references.waiting

/-- States of processes, records, memory and counters are no references. -/
theorem unaffected (references : kernel.References) (processes : Nat → Process)
    (records : Nat → ProcessRecord) (memory : PagedMemory) (nextPid : Int) :
    { kernel with
      processes := processes, records := records, memory := memory, nextPid := nextPid }.References :=
  ⟨references.exclusive, references.listed, references.queued, references.current,
    references.waiting⟩

/-- A message queue may be replaced by one whose waiters are listed. -/
theorem setQueue (references : kernel.References) (address : Nat) {queue : Option MessageQueue}
    (listed : ∀ held, queue = some held →
      ∀ process ∈ held.waitingProcesses, process ∈ kernel.processList) :
    (kernel.setQueue address queue).References := by
  refine ⟨references.exclusive, references.listed, references.queued, references.current, ?_⟩
  intro other held found process member
  rw [setQueue_queues] at found
  split_ifs at found
  · exact listed held found process member
  · exact references.waiting other held found process member

/-- What is not on the list is referred to from nowhere. -/
theorem unreferenced (references : kernel.References) {process : Nat} (nonzero : process ≠ 0)
    (unlisted : process ∉ kernel.processList) : kernel.Unreferenced process := by
  have unqueued : process ∉ kernel.queued := fun queued =>
    unlisted (references.queued process queued)
  refine ⟨unqueued, ?_, ?_, unlisted, ?_⟩
  · rintro runqueue member rfl
    exact unqueued (mem_queued.mpr
      ⟨runqueue, member, references.exclusive.own runqueue member nonzero⟩)
  · rintro rfl
    exact unlisted (references.current nonzero)
  · intro address queue found member
    exact unlisted (references.waiting address queue found process member)

/-- Terminating a process that is on no list of waiters. -/
theorem terminateProcess (references : kernel.References) {pid : Int} {cpuId ticks : Nat}
    (forgets : kernel.Forgets (.terminateProcess pid cpuId ticks))
    (terminated : kernel.terminateProcess pid cpuId ticks = .ok after) :
    after.References ∧ ∀ process, kernel.getProcess pid = some process →
      after.Unreferenced process := by
  rcases terminateProcess_cases terminated with
    ⟨missing, rfl⟩ | ⟨process, cleaned, found, -, frame, outcome⟩
  · refine ⟨references, fun process found => ?_⟩
    rw [missing] at found
    cases found
  · have listed : process ∈ kernel.processList := List.mem_of_find?_eq_some found
    have nonzero : process ≠ 0 := fun null => references.listed.2 (null ▸ listed)
    obtain ⟨exclusive, gone⟩ := references.exclusive.removeProcess process
    have others : ∀ other ∈ kernel.processList, other ≠ process →
        other ∈ kernel.processList.erase process := fun other member differs =>
      (List.mem_erase_of_ne differs).mpr member
    -- With any running process that is still listed, the references are in order.
    have removed : ∀ current, (current ≠ 0 → current ∈ kernel.processList.erase process) →
        { cleaned with currentProcess := current }.References := by
      intro current still
      rw [frame]
      refine ⟨exclusive, ⟨references.listed.1.erase process,
        fun null => references.listed.2 (List.mem_of_mem_erase null)⟩, ?_, still, ?_⟩
      · intro other queued
        refine others other (references.queued other (removeProcess_queued_of_mem queued)) ?_
        rintro rfl
        exact (gone nonzero).1 queued
      · intro address queue held other member
        refine others other (references.waiting address queue held other member) ?_
        rintro rfl
        exact forgets other found address queue held member
    have list : cleaned.processList = kernel.processList.erase process := by rw [frame]
    have head : cleaned.processList.headD 0 ≠ 0 →
        cleaned.processList.headD 0 ∈ kernel.processList.erase process := by
      intro nonempty
      rw [← list]
      cases parts : cleaned.processList with
      | nil => simp [parts] at nonempty
      | cons first rest => exact List.mem_cons_self
    have finally_ : after.References ∧ after.processList = kernel.processList.erase process := by
      rcases outcome with ⟨current, rfl⟩ | ⟨-, ⟨-, rfl⟩ | ⟨-, scheduled⟩⟩
      · refine ⟨?_, list⟩
        have same : after.currentProcess = kernel.currentProcess := by rw [frame]
        refine removed after.currentProcess fun running => ?_
        rw [same] at running ⊢
        exact others _ (references.current running) current
      · exact ⟨removed 0 fun null => absurd rfl null, list⟩
      · refine ⟨scheduleOnCpu _ (removed _ head) scheduled, ?_⟩
        exact (scheduleOnCpu_frame scheduled).1.trans list
    refine ⟨finally_.1, fun other again => ?_⟩
    cases found.symm.trans again
    refine finally_.1.unreferenced nonzero ?_
    rw [finally_.2]
    exact references.listed.1.not_mem_erase

/-- A process that has been put on the list, which runs if nothing did. -/
theorem list (references : kernel.References) {process : Nat} (nonzero : process ≠ 0)
    (unlisted : process ∉ kernel.processList) (processes : Nat → Process)
    (records : Nat → ProcessRecord) (memory : PagedMemory) (nextPid : Int) :
    { kernel with
      nextPid := nextPid
      memory := memory
      records := records
      processes := processes
      processList := process :: kernel.processList
      currentProcess :=
        if kernel.currentProcess = 0 then process else kernel.currentProcess }.References := by
  refine ⟨references.exclusive, ?_, ?_, ?_, ?_⟩
  · exact ⟨List.nodup_cons.mpr ⟨unlisted, references.listed.1⟩,
      fun null => (List.mem_cons.mp null).elim (fun zero => nonzero zero.symm)
        references.listed.2⟩
  · exact fun other queued => List.mem_cons_of_mem _ (references.queued other queued)
  · intro running
    dsimp only at running ⊢
    split_ifs at running ⊢ with nobody
    · exact List.mem_cons_self
    · exact List.mem_cons_of_mem _ (references.current nobody)
  · exact fun address queue found other member =>
      List.mem_cons_of_mem _ (references.waiting address queue found other member)

/-- Creating a process that is not on the list. -/
theorem createProcess (references : kernel.References) {address : Nat} {pid : Int}
    (lands : kernel.Lands address) (nonzero : address ≠ 0)
    (unlisted : address ∉ kernel.processList)
    (created : kernel.createProcess address = .ok (pid, after)) : after.References := by
  rcases createProcess_cases created with ⟨-, frame⟩ | ⟨listed, -, added, frame⟩
  · rw [frame]
    exact references.unaffected _ _ _ _
  · -- The new process goes on the list, and then to a run queue.
    have before : listed.References := by
      rw [frame]
      exact references.list nonzero unlisted _ _ _ _
    rw [added]
    refine before.addProcess listed ?_ fun _ => ?_
    · rw [frame]
      exact lands
    · rw [frame]
      exact List.mem_cons_self

/-- Sending a message, which wakes at most the first of those that wait. -/
theorem sendMessage (references : kernel.References) {address : Nat} {queue : MessageQueue}
    (found : kernel.queues address = some queue) (sender : Int) (data : Nat → UInt8)
    (size ticks : Nat) (stack : Nat → UInt8)
    (orderly : kernel.Orderly (.sendMessage address sender data size ticks stack)) :
    (kernel.sendMessage address queue sender data size ticks stack).2.References := by
  have waiting := references.waiting address queue found
  rcases kernel.sendMessage_cases address queue sender data size ticks stack with
    ⟨-, sent⟩ | ⟨message, accepted, ⟨-, sent⟩ | ⟨process, rest, wakes, split, sent⟩⟩
  · rw [sent]
    refine references.setQueue address ?_
    rintro held ⟨⟩
    exact waiting
  · rw [sent]
    refine references.setQueue address ?_
    rintro held ⟨⟩
    exact waiting
  · rw [sent]
    rw [split] at waiting
    have stored : (kernel.setQueue address (some { queue with
        messages := queue.messages ++ [message], waitingProcesses := rest })).References := by
      refine references.setQueue address ?_
      rintro held ⟨⟩ other member
      exact waiting other (List.mem_cons_of_mem _ member)
    have unblocked : (kernel.unblock address queue message process rest).References :=
      stored.unaffected _ _ _ _
    exact unblocked.addProcess _ (orderly queue process found accepted wakes)
      fun _ => waiting process List.mem_cons_self

/-- Receiving a message, or waiting for one. -/
theorem receiveMessage (references : kernel.References) {address : Nat} {queue : MessageQueue}
    (found : kernel.queues address = some queue) {wait : Bool} {cpuId ticks : Nat}
    {outcome : MessageQueue.ReceiveOutcome}
    (received : kernel.receiveMessage address queue wait cpuId ticks = .ok (outcome, after)) :
    after.References := by
  have waiting := references.waiting address queue found
  rcases receiveMessage_cases received with
    ⟨-, messages, rfl⟩ | ⟨⟨-, -, nonzero⟩, scheduled⟩
  · refine references.setQueue address ?_
    rintro held ⟨⟩
    exact waiting
  · -- The running process joins those that wait, and it is on the list.
    have stored : (kernel.setQueue address (some { queue with
        waitingProcesses := queue.waitingProcesses ++ [kernel.currentProcess] })).References := by
      refine references.setQueue address ?_
      rintro held ⟨⟩ process member
      rcases List.mem_append.mp member with old | new
      · exact waiting process old
      · rw [List.mem_singleton.mp new]
        exact references.current nonzero
    have blocked : (kernel.block address queue).References := stored.unaffected _ _ _ _
    exact blocked.scheduleOnCpu _ scheduled

/-- Removing a process from its run queue. -/
theorem removeProcess (references : kernel.References) (process : Nat) :
    (kernel.removeProcess process).References := by
  refine references.congr (references.exclusive.removeProcess process).1
    (fun _ => removeProcess_queued_of_mem) ?_ (Or.inl ?_) ?_
  · rw [removeProcess_frame]
  · rw [removeProcess_frame]
  · rw [removeProcess_frame]
    exact fun address queue found => ⟨queue, found, fun _ member => member⟩

/-- Balancing the run queues. -/
theorem loadBalance (references : kernel.References) (orderly : kernel.Orderly .loadBalance) :
    kernel.loadBalance.References := by
  obtain ⟨frame, -⟩ := kernel.loadBalance_frame
  refine references.congr (references.exclusive.loadBalance orderly)
    (fun _ => loadBalance_queued_of_mem) ?_ (Or.inl ?_) ?_
  · rw [frame]
  · rw [frame]
  · rw [frame]
    exact fun address queue found => ⟨queue, found, fun _ member => member⟩

/-- Every call that meets the condition keeps the references in order. -/
theorem perform (references : kernel.References) {call : KernelCall}
    (forgets : kernel.Forgets call) (performed : kernel.perform call = some after) :
    after.References := by
  have orderly := references.orderly forgets performed
  cases call with
  | createProcess address =>
    simp only [Kernel.perform] at performed
    split_ifs at performed with used
    rw [not_or] at used
    obtain ⟨⟨pid, created⟩, returned, rfl⟩ := Option.map_eq_some_iff.mp performed
    exact references.createProcess orderly used.1 used.2 (Run.toOption_eq_some.mp returned)
  | terminateProcess pid cpuId ticks =>
    exact (references.terminateProcess forgets (Run.toOption_eq_some.mp performed)).1
  | createQueue address =>
    simp only [Kernel.perform] at performed
    split_ifs at performed
    cases performed
    refine references.setQueue address ?_
    rintro held ⟨⟩ process member
    cases member
  | destroyQueue address =>
    obtain ⟨queue, -, rfl⟩ := Option.map_eq_some_iff.mp performed
    have removed : (kernel.setQueue address none).References := by
      refine references.setQueue address ?_
      rintro held ⟨⟩
    exact removed.unaffected _ _ _ _
  | sendMessage address sender data size ticks stack =>
    obtain ⟨queue, found, rfl⟩ := Option.map_eq_some_iff.mp performed
    exact references.sendMessage found sender data size ticks stack orderly
  | receiveMessage address wait cpuId ticks =>
    obtain ⟨queue, found, received⟩ := Option.bind_eq_some_iff.mp performed
    obtain ⟨⟨outcome, returned⟩, answer, rfl⟩ := Option.map_eq_some_iff.mp received
    exact references.receiveMessage found (Run.toOption_eq_some.mp answer)
  | resumeReceive address =>
    obtain ⟨queue, found, rfl⟩ := Option.map_eq_some_iff.mp performed
    rw [resumeReceive_eq]
    refine references.setQueue address ?_
    rintro held ⟨⟩
    exact references.waiting address queue found
  | addProcess process =>
    simp only [Kernel.perform] at performed
    split_ifs at performed with known
    cases performed
    exact references.addProcess kernel orderly known.resolve_left
  | removeProcess process =>
    cases performed
    exact references.removeProcess process
  | scheduleOnCpu cpuId ticks =>
    exact references.scheduleOnCpu kernel (Run.toOption_eq_some.mp performed)
  | tick interrupts cpuId ticks => exact orderly.elim
  | loadBalance =>
    cases performed
    exact references.loadBalance orderly
  | wakeWaitingProcesses resource => exact orderly.elim
  | setProcessPriority pid priority =>
    cases performed
    unfold Kernel.setProcessPriority
    split
    · exact references
    · exact references.unaffected _ _ _ _

end References

/-- The references when the kernel boots. -/
theorem bootKernel_references (policy : SchedulerPolicy) (cpuCount : Nat) (memory : PagedMemory)
    (processes : Nat → Process) (records : Nat → ProcessRecord) :
    (bootKernel policy cpuCount memory processes records).References := by
  have exclusive := bootKernel_exclusive policy cpuCount memory processes records
  refine ⟨exclusive, ⟨List.nodup_nil, List.not_mem_nil⟩, ?_, fun some => absurd rfl some,
    fun _ _ none => (Option.some_ne_none _ none.symm).elim⟩
  intro process queued
  obtain ⟨runqueue, member, held⟩ := mem_queued.mp queued
  obtain ⟨cpuId, -, rfl⟩ := List.mem_map.mp member
  cases held

end Kernel

/--
A terminated process leaves no reference after a run of calls that meet the condition.

It is in no run queue, no processor runs it, it is not the running process, it is not on the list of
processes, and it waits on no list of a message queue.
-/
theorem terminated_process_unreferenced (policy : SchedulerPolicy) (cpuCount : Nat)
    (memory : PagedMemory) (processes : Nat → Process) (records : Nat → ProcessRecord)
    (calls : List KernelCall) (kernel after : Kernel) (pid : Int) (cpuId ticks process : Nat)
    (forgets : Calls.AllMeet Kernel.perform Kernel.Forgets
      (bootKernel policy cpuCount memory processes records) calls)
    (reached : (bootKernel policy cpuCount memory processes records).run calls = some kernel)
    (found : kernel.getProcess pid = some process)
    (last : kernel.Forgets (.terminateProcess pid cpuId ticks))
    (terminated : kernel.perform (.terminateProcess pid cpuId ticks) = some after) :
    after.Unreferenced process := by
  have references : kernel.References :=
    Calls.run_invariant Kernel.References
      (fun _ _ _ references meets performed => references.perform meets performed) calls _ kernel
      (bootKernel_references policy cpuCount memory processes records) forgets reached
  exact (references.terminateProcess last (Run.toOption_eq_some.mp terminated)).2 process found

/-- A process that is created, scheduled and terminated. -/
theorem terminated_process_unreferenced_alone :
    ∃ kernel after, (smallKernel 1).run [.createProcess 0x1000, .scheduleOnCpu 0 0] = some kernel ∧
      kernel.perform (.terminateProcess 1 0 0) = some after ∧ after.Unreferenced 0x1000 := by
  have computed : ((smallKernel 1).run [.createProcess 0x1000, .scheduleOnCpu 0 0]).any
      (fun kernel => kernel.getProcess 1 == some 0x1000 &&
        (kernel.perform (.terminateProcess 1 0 0)).isSome) = true := by
    decide +kernel
  obtain ⟨kernel, reached, facts⟩ := (Option.any_eq_true _ _).mp computed
  simp only [Bool.and_eq_true, beq_iff_eq] at facts
  obtain ⟨found, returns⟩ := facts
  obtain ⟨after, terminated⟩ := Option.isSome_iff_exists.mp returns
  -- No message queue was ever created.
  have none : kernel.queues = fun _ => none := by
    have same : ((smallKernel 1).run [.createProcess 0x1000, .scheduleOnCpu 0 0]).map (·.queues) =
        some fun _ => none := rfl
    rw [reached] at same
    exact Option.some_inj.mp same
  have forgets : Calls.AllMeet Kernel.perform Kernel.Forgets (smallKernel 1)
      [.createProcess 0x1000, .scheduleOnCpu 0 0] :=
    ⟨trivial, fun _ _ => ⟨trivial, fun _ _ => trivial⟩⟩
  refine ⟨kernel, after, reached, terminated, ?_⟩
  refine terminated_process_unreferenced _ _ _ _ _ _ kernel after 1 0 0 0x1000 forgets reached found
    ?_ terminated
  intro process _ address queue held
  rw [none] at held
  cases held

/-- A process that is terminated while it waits stays on the list of the message queue. -/
theorem terminated_process_still_waits :
    ∃ after queue, (smallKernel 1).run
        [.createProcess 0x1000, .createQueue 0x8000, .scheduleOnCpu 0 0,
          .receiveMessage 0x8000 true 0 0, .terminateProcess 1 0 0] = some after ∧
      0x1000 ∉ after.processList ∧ after.queues 0x8000 = some queue ∧
      0x1000 ∈ queue.waitingProcesses := by
  have computed : ((smallKernel 1).run
      [.createProcess 0x1000, .createQueue 0x8000, .scheduleOnCpu 0 0,
        .receiveMessage 0x8000 true 0 0, .terminateProcess 1 0 0]).any (fun after =>
        after.processList.isEmpty &&
        (after.queues 0x8000).any (·.waitingProcesses == [0x1000])) = true := by
    decide +kernel
  obtain ⟨after, ran, facts⟩ := (Option.any_eq_true _ _).mp computed
  simp only [Bool.and_eq_true, beq_iff_eq, Option.any_eq_true, List.isEmpty_iff] at facts
  obtain ⟨nobody, queue, found, waiters⟩ := facts
  exact ⟨after, queue, ran, by simp [nobody], found, by simp [waiters]⟩

end Pocky
