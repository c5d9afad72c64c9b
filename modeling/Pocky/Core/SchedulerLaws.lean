import Mathlib.Data.List.GetD
import Mathlib.Data.List.Nodup
import Pocky.Core.Scheduler

/-! What each step of the scheduler does to the run queues and to the processes. -/

namespace Pocky

/-- A process whose state has been set. -/
@[simp] theorem setState_self (processes : Nat → Process) (process : Nat) (state : ProcessState) :
    setState processes process state process = { processes process with state := state } :=
  Function.update_self ..

/-- Setting the state of a process leaves the others alone. -/
theorem setState_of_ne (processes : Nat → Process) {process other : Nat} (state : ProcessState)
    (differs : other ≠ process) : setState processes process state other = processes other :=
  Function.update_of_ne differs ..

namespace Kernel

/-- Every process of every run queue, in order. -/
def queued (kernel : Kernel) : List Nat := kernel.runqueues.flatMap (·.processQueue)

/-- A queued process lies in some run queue. -/
theorem mem_queued {kernel : Kernel} {process : Nat} :
    process ∈ kernel.queued ↔ ∃ runqueue ∈ kernel.runqueues, process ∈ runqueue.processQueue :=
  List.mem_flatMap

/-- The run queue of a processor after a change that leaves its number alone. -/
theorem getRunqueue_modifyRunqueue {kernel : Kernel} {cpuId : Nat}
    {change : CpuRunQueue → CpuRunQueue}
    (kept : ∀ runqueue, kernel.getRunqueue cpuId = some runqueue →
      (change runqueue).cpuId = runqueue.cpuId) :
    (kernel.modifyRunqueue cpuId change).getRunqueue cpuId =
      (kernel.getRunqueue cpuId).map change := by
  refine find?_modifyFirst ?_
  intro runqueue found
  have matching := List.find?_some found
  rwa [kept runqueue found]

/-- The run queue of another processor after such a change. -/
theorem getRunqueue_modifyRunqueue_other {kernel : Kernel} {cpuId other : Nat}
    {change : CpuRunQueue → CpuRunQueue} (differs : other ≠ cpuId)
    (kept : ∀ runqueue, (change runqueue).cpuId = runqueue.cpuId) :
    (kernel.modifyRunqueue cpuId change).getRunqueue other = kernel.getRunqueue other := by
  refine find?_modifyFirst_other ?_ _
  intro runqueue matching
  simp only [beq_iff_eq] at matching
  simp [kept, matching, differs.symm]

/-- The process at an index of a queue is one of its processes. -/
theorem processAt_mem {runqueue : CpuRunQueue} {index : Nat}
    (inside : index < runqueue.processQueue.length) :
    runqueue.processAt index ∈ runqueue.processQueue := by
  rw [CpuRunQueue.processAt, List.getD_eq_getElem _ _ inside]
  exact List.getElem_mem inside

/-- A process that a selection may pick: ready, and above priority zero where priorities count. -/
def Eligible (kernel : Kernel) (process : Nat) : Prop :=
  kernel.isReady process = true ∧
    (kernel.policy = .priority → 0 < (kernel.records process).priority)

instance (kernel : Kernel) (process : Nat) : Decidable (kernel.Eligible process) :=
  inferInstanceAs (Decidable (_ ∧ _))

/-- The search in turn ends at null or at a ready process of the queue. -/
theorem searchRound_spec {kernel : Kernel} {runqueue : CpuRunQueue} {startIndex : Nat}
    (filled : runqueue.processQueue.length ≠ 0) :
    ∀ (fuel index selected found : Nat),
      kernel.searchRound runqueue startIndex fuel index = .ok (selected, found) →
      found < runqueue.processQueue.length ∧
        (selected = 0 ∨ selected ∈ runqueue.processQueue ∧ kernel.isReady selected = true) := by
  intro fuel
  induction fuel with
  | zero =>
    intro index selected found searched
    cases searched
  | succ fuel ih =>
    intro index selected found searched
    have inside : (index + 1) % runqueue.processQueue.length < runqueue.processQueue.length :=
      Nat.mod_lt _ (Nat.pos_of_ne_zero filled)
    -- A round stops at a ready process, goes on, or has come back to the start.
    simp only [searchRound] at searched
    split at searched
    · rename_i ready
      cases searched
      exact ⟨inside, Or.inr ⟨processAt_mem inside, ready⟩⟩
    · split at searched
      · exact ih _ _ _ searched
      · cases searched
        exact ⟨inside, Or.inl rfl⟩

/-- The search by priority ends at null or at a ready process of the queue above priority zero. -/
theorem searchPriority_spec (kernel : Kernel) (runqueue : CpuRunQueue) :
    ∀ count ≤ runqueue.processQueue.length,
      (kernel.searchPriority runqueue count).2.1 = 0 ∨
        (kernel.searchPriority runqueue count).2.2 < runqueue.processQueue.length ∧
        (kernel.searchPriority runqueue count).2.1 ∈ runqueue.processQueue ∧
        kernel.Eligible (kernel.searchPriority runqueue count).2.1 := by
  intro count
  induction count with
  | zero => exact fun _ => Or.inl rfl
  | succ count ih =>
    intro within
    simp only [searchPriority]
    split
    · rename_i better
      exact Or.inr ⟨within, processAt_mem within, better.1, fun _ => Nat.zero_lt_of_lt better.2⟩
    · exact ih (by omega)

/-- A selection is null or an eligible process of the queue, and moves nothing but the index. -/
theorem selectNextProcess_spec {kernel : Kernel} {runqueue searched : CpuRunQueue} {next : Nat}
    (selected : kernel.selectNextProcess runqueue = .ok (next, searched)) :
    (next = 0 ∨ next ∈ runqueue.processQueue ∧ kernel.Eligible next) ∧
      ∃ index, searched = { runqueue with currentIndex := index } ∧
        (index = runqueue.currentIndex ∨ index < runqueue.processQueue.length) := by
  unfold selectNextProcess at selected
  split at selected
  · cases selected
    exact ⟨Or.inl rfl, _, rfl, Or.inl rfl⟩
  · rename_i filled
    split at selected
    · rename_i inTurn
      obtain ⟨⟨process, index⟩, search, answer⟩ := Run.bind_eq_ok.mp selected
      cases answer
      obtain ⟨inside, picked⟩ := searchRound_spec filled _ _ _ _ search
      have eligible : kernel.isReady next = true → kernel.Eligible next := fun ready =>
        ⟨ready, fun byPriority => by rw [inTurn] at byPriority; cases byPriority⟩
      exact ⟨picked.imp_right fun held => ⟨held.1, eligible held.2⟩, index, rfl, Or.inr inside⟩
    · have spec := searchPriority_spec kernel runqueue _ (Nat.le_refl _)
      cases selected
      rcases spec with null | ⟨inside, held, ready⟩
      · exact ⟨Or.inl null, _, by rw [if_neg (by simpa using null)], Or.inl rfl⟩
      · refine ⟨Or.inr ⟨held, ready⟩, ?_⟩
        by_cases null : (kernel.searchPriority runqueue runqueue.processQueue.length).2.1 = 0
        · exact ⟨_, by rw [if_neg (by simpa using null)], Or.inl rfl⟩
        · exact ⟨_, by rw [if_pos null], Or.inr inside⟩

/-- What a call of the scheduler did: nothing but moving an index, or giving the processor away. -/
theorem scheduleOnCpu_cases {kernel after : Kernel} {cpuId ticks : Nat}
    (scheduled : kernel.scheduleOnCpu cpuId ticks = .ok after) :
    after = kernel ∨ ∃ runqueue index, kernel.getRunqueue cpuId = some runqueue ∧
      (index = runqueue.currentIndex ∨ index < runqueue.processQueue.length) ∧
      (after = kernel.modifyRunqueue cpuId (fun _ => { runqueue with currentIndex := index }) ∨
        ∃ next, next ≠ 0 ∧ next ∈ runqueue.processQueue ∧ kernel.Eligible next ∧
          runqueue.current ≠ next ∧
          after = (kernel.modifyRunqueue cpuId
            (fun _ => { runqueue with currentIndex := index })).dispatch cpuId runqueue.current next
              ticks) := by
  unfold scheduleOnCpu at scheduled
  split at scheduled
  · cases scheduled
    exact Or.inl rfl
  · rename_i runqueue found
    obtain ⟨⟨next, searched⟩, selected, rest⟩ := Run.bind_eq_ok.mp scheduled
    obtain ⟨picked, index, rfl, bounded⟩ := selectNextProcess_spec selected
    refine Or.inr ⟨runqueue, index, found, bounded, ?_⟩
    -- Only a selected process other than the current one is given the processor.
    dsimp only at rest
    split at rest
    · cases rest
      exact Or.inl rfl
    · rename_i nonzero
      split at rest
      · cases rest
        exact Or.inl rfl
      · rename_i differs
        cases rest
        obtain ⟨held, ready⟩ := picked.resolve_left nonzero
        exact Or.inr ⟨next, nonzero, held, ready, differs, rfl⟩

/-- Switching changes nothing but the running process and two states. -/
theorem switchToProcess_frame (kernel : Kernel) (process : Nat) :
    (kernel.switchToProcess process).runqueues = kernel.runqueues ∧
      (kernel.switchToProcess process).processList = kernel.processList ∧
      (kernel.switchToProcess process).queues = kernel.queues ∧
      (kernel.switchToProcess process).records = kernel.records ∧
      (kernel.switchToProcess process).memory = kernel.memory ∧
      (kernel.switchToProcess process).nextPid = kernel.nextPid ∧
      (kernel.switchToProcess process).policy = kernel.policy := by
  unfold switchToProcess
  split_ifs <;> exact ⟨rfl, rfl, rfl, rfl, rfl, rfl, rfl⟩

/-- The process switched to is the running one if it could be switched to at all. -/
theorem switchToProcess_current {kernel : Kernel} {process : Nat} (nonzero : process ≠ 0)
    (running : (kernel.processes process).state = .running) :
    (kernel.switchToProcess process).currentProcess = process := by
  unfold switchToProcess
  rw [if_neg (by simp [nonzero, running])]
  split_ifs with differs
  · rfl
  · exact not_not.mp differs

/-- Switching leaves a process alone that neither runs nor is switched to. -/
theorem switchToProcess_processes {kernel : Kernel} {process other : Nat}
    (differs : other ≠ process) (stopped : (kernel.processes other).state ≠ .running) :
    (kernel.switchToProcess process).processes other = kernel.processes other := by
  unfold switchToProcess
  split_ifs with refused moved
  · rfl
  · dsimp only
    rw [setState_of_ne _ _ differs]
    split_ifs with ran
    · -- The process that ran is not this one.
      exact setState_of_ne _ _ (fun same => stopped (same ▸ ran.2))
    · rfl
  · rfl

/-- Giving the processor away changes the queues, the records, the states and the running process. -/
theorem dispatch_frame (kernel : Kernel) (cpuId current next ticks : Nat) :
    (kernel.dispatch cpuId current next ticks).runqueues =
        modifyFirst (·.cpuId == cpuId)
          (fun runqueue => { runqueue with currentTimeSlice := defaultTimeSlice, current := next })
          kernel.runqueues ∧
      (kernel.dispatch cpuId current next ticks).processList = kernel.processList ∧
      (kernel.dispatch cpuId current next ticks).queues = kernel.queues ∧
      (kernel.dispatch cpuId current next ticks).records =
        Function.update kernel.records next { kernel.records next with lastRun := ticks } ∧
      (kernel.dispatch cpuId current next ticks).memory = kernel.memory ∧
      (kernel.dispatch cpuId current next ticks).nextPid = kernel.nextPid ∧
      (kernel.dispatch cpuId current next ticks).policy = kernel.policy := by
  unfold dispatch
  exact switchToProcess_frame _ _

/-- The process that is given the processor becomes the running one. -/
theorem dispatch_current (kernel : Kernel) (cpuId current ticks : Nat) {next : Nat}
    (nonzero : next ≠ 0) : (kernel.dispatch cpuId current next ticks).currentProcess = next := by
  unfold dispatch
  refine switchToProcess_current nonzero ?_
  simp

/-- Giving the processor away leaves a process alone that does not run, had it not and gets it not. -/
theorem dispatch_processes {kernel : Kernel} (cpuId ticks : Nat) {current next process : Nat}
    (stopped : (kernel.processes process).state ≠ .running) (kept : process ≠ current)
    (differs : process ≠ next) :
    (kernel.dispatch cpuId current next ticks).processes process = kernel.processes process := by
  unfold dispatch
  -- Before the switch the process is untouched.
  have before : setState (if current ≠ 0 then setState kernel.processes current .ready
      else kernel.processes) next .running process = kernel.processes process := by
    rw [setState_of_ne _ _ differs]
    split_ifs
    · exact setState_of_ne _ _ kept
    · rfl
  refine (switchToProcess_processes differs ?_).trans before
  exact fun running => stopped ((congrArg Process.state before).symm.trans running)

/-- The scheduler leaves the list of processes, the message queues and the memory alone. -/
theorem scheduleOnCpu_frame {kernel after : Kernel} {cpuId ticks : Nat}
    (scheduled : kernel.scheduleOnCpu cpuId ticks = .ok after) :
    after.processList = kernel.processList ∧ after.queues = kernel.queues ∧
      after.memory = kernel.memory ∧ after.nextPid = kernel.nextPid ∧
      after.policy = kernel.policy := by
  rcases scheduleOnCpu_cases scheduled with
    rfl | ⟨runqueue, index, -, -, rfl | ⟨next, -, -, -, -, rfl⟩⟩
  · exact ⟨rfl, rfl, rfl, rfl, rfl⟩
  · exact ⟨rfl, rfl, rfl, rfl, rfl⟩
  · obtain ⟨-, list, queues, -, memory, pid, policy⟩ := dispatch_frame
      (kernel.modifyRunqueue cpuId fun _ => { runqueue with currentIndex := index }) cpuId
      runqueue.current next ticks
    exact ⟨list, queues, memory, pid, policy⟩

/-- Adding a process: it is null, there is no queue, the queue has it, or it goes to the end. -/
theorem addProcess_cases (kernel : Kernel) (process : Nat) :
    kernel.addProcess process = kernel ∨
    ∃ runqueue, process ≠ 0 ∧
      kernel.getRunqueue (leastLoaded kernel.runqueues) = some runqueue ∧
      process ∉ runqueue.processQueue ∧
      kernel.addProcess process =
        { kernel with processes := setState kernel.processes process .ready }.modifyRunqueue
          (leastLoaded kernel.runqueues) (·.enqueue process) := by
  unfold addProcess
  split_ifs with null
  · exact Or.inl rfl
  · dsimp only
    split
    · exact Or.inl rfl
    · rename_i runqueue found
      split_ifs with held
      · exact Or.inl rfl
      · exact Or.inr ⟨runqueue, null, found, held, rfl⟩

/-- Adding a process changes nothing but the run queues and its state. -/
theorem addProcess_frame (kernel : Kernel) (process : Nat) :
    (kernel.addProcess process).processList = kernel.processList ∧
      (kernel.addProcess process).queues = kernel.queues ∧
      (kernel.addProcess process).memory = kernel.memory ∧
      (kernel.addProcess process).nextPid = kernel.nextPid ∧
      (kernel.addProcess process).records = kernel.records ∧
      (kernel.addProcess process).currentProcess = kernel.currentProcess := by
  rcases kernel.addProcess_cases process with same | ⟨runqueue, -, -, -, added⟩
  · rw [same]
    exact ⟨rfl, rfl, rfl, rfl, rfl, rfl⟩
  · rw [added]
    exact ⟨rfl, rfl, rfl, rfl, rfl, rfl⟩

/-- Adding a process leaves the states of the others alone. -/
theorem addProcess_processes (kernel : Kernel) {process other : Nat} (differs : other ≠ process) :
    (kernel.addProcess process).processes other = kernel.processes other := by
  rcases kernel.addProcess_cases process with same | ⟨runqueue, -, -, -, added⟩
  · rw [same]
  · rw [added]
    exact setState_of_ne _ _ differs

/-- Removing a process: it is null, no queue has it, or it leaves the first queue that has it. -/
theorem removeProcess_cases (kernel : Kernel) (process : Nat) :
    (kernel.removeProcess process = kernel ∧ (process = 0 ∨ process ∉ kernel.queued)) ∨
    ∃ front runqueue rest, kernel.runqueues = front ++ runqueue :: rest ∧
      process ≠ 0 ∧ process ∈ runqueue.processQueue ∧
      kernel.removeProcess process = { kernel with
        runqueues := front ++ (runqueue.dequeue process).clearCurrent process :: rest } := by
  unfold removeProcess
  split_ifs with null
  · exact Or.inl ⟨rfl, Or.inl null⟩
  · rcases modifyFirst_cases (fun runqueue : CpuRunQueue => decide (process ∈ runqueue.processQueue))
      (fun runqueue => (runqueue.dequeue process).clearCurrent process) kernel.runqueues with
      ⟨none, same⟩ | ⟨front, runqueue, rest, parts, found, changed⟩
    · refine Or.inl ⟨by rw [same], Or.inr ?_⟩
      rw [mem_queued]
      rintro ⟨runqueue, held, inside⟩
      exact absurd inside (by simpa using List.find?_eq_none.mp none runqueue held)
    · have inside : process ∈ runqueue.processQueue := by simpa using List.find?_some found
      exact Or.inr ⟨front, runqueue, rest, parts, null, inside, by rw [changed]⟩

/-- What is left of a queue when a process is taken out. -/
theorem dequeue_processQueue {runqueue : CpuRunQueue} {process : Nat}
    (held : process ∈ runqueue.processQueue) :
    (runqueue.dequeue process).processQueue = runqueue.processQueue.erase process :=
  removeAt_idxOf held

/-- Forgetting the current process leaves the queue as it is. -/
theorem clearCurrent_processQueue (runqueue : CpuRunQueue) (process : Nat) :
    (runqueue.clearCurrent process).processQueue = runqueue.processQueue := by
  unfold CpuRunQueue.clearCurrent
  split <;> rfl

end Kernel

end Pocky
