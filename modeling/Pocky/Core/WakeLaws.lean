import Pocky.Core.BlockingLaws

/-! Which sends wake exactly one of the processes that wait for a queue. -/

namespace Pocky

open Kernel

namespace Kernel

/-- A send left exactly one waiter ready, off the list of the queue and in a run queue. -/
def WakesOne (kernel after : Kernel) (address : Nat) (queue : MessageQueue) : Prop :=
  ∃ process ∈ queue.waitingProcesses, kernel.WaitsFor process address ∧
    (after.processes process).state = .ready ∧
    (∀ left, after.queues address = some left → process ∉ left.waitingProcesses) ∧
    process ∈ after.queued ∧
    ∀ other ∈ queue.waitingProcesses, kernel.WaitsFor other address →
      (after.processes other).state = .ready → other = process

/-- The least loaded processor is one of those there are, or number zero. -/
theorem leastLoaded_mem (runqueues : List CpuRunQueue) :
    leastLoaded runqueues = 0 ∨
      ∃ runqueue ∈ runqueues, runqueue.cpuId = leastLoaded runqueues := by
  -- By induction on the queues, with the processor found so far.
  have fold : ∀ (runqueues : List CpuRunQueue) (target least : Nat),
      (runqueues.foldl (fun found runqueue =>
        if runqueue.processQueue.length < found.2 then
          (runqueue.cpuId, runqueue.processQueue.length)
        else (found.1, found.2)) (target, least)).1 = target ∨
      ∃ runqueue ∈ runqueues, runqueue.cpuId =
        (runqueues.foldl (fun found runqueue =>
          if runqueue.processQueue.length < found.2 then
            (runqueue.cpuId, runqueue.processQueue.length)
          else (found.1, found.2)) (target, least)).1 := by
    intro runqueues
    induction runqueues with
    | nil => exact fun _ _ => Or.inl rfl
    | cons head runqueues ih =>
      intro target least
      rw [List.foldl_cons]
      dsimp only
      split
      · rcases ih head.cpuId head.processQueue.length with same | ⟨runqueue, member, found⟩
        · exact Or.inr ⟨head, List.mem_cons_self, same.symm⟩
        · exact Or.inr ⟨runqueue, List.mem_cons_of_mem _ member, found⟩
      · rcases ih target least with same | ⟨runqueue, member, found⟩
        · exact Or.inl same
        · exact Or.inr ⟨runqueue, List.mem_cons_of_mem _ member, found⟩
  exact fold runqueues 0 sizeMax

/-- With at least one processor, the least loaded one has a run queue. -/
theorem Wired.leastLoaded_found {cpuCount : Nat} {kernel : Kernel} (wired : kernel.Wired cpuCount)
    (processors : 0 < cpuCount) :
    ∃ runqueue, kernel.getRunqueue (leastLoaded kernel.runqueues) = some runqueue := by
  rw [← Option.isSome_iff_exists, getRunqueue, List.find?_isSome]
  rcases leastLoaded_mem kernel.runqueues with zero | ⟨runqueue, member, same⟩
  · -- Processor zero is among the processors.
    have first : 0 ∈ kernel.runqueues.map (·.cpuId) := by
      rw [wired.numbered, List.mem_range]
      exact processors
    obtain ⟨runqueue, member, same⟩ := List.mem_map.mp first
    exact ⟨runqueue, member, by simp [same, zero]⟩
  · exact ⟨runqueue, member, by simp [same]⟩

/-- A process that has been added is queued, if there is a processor. -/
theorem Wired.addProcess_queued {cpuCount : Nat} {kernel : Kernel} (wired : kernel.Wired cpuCount)
    (processors : 0 < cpuCount) {process : Nat} (nonzero : process ≠ 0) :
    process ∈ (kernel.addProcess process).queued := by
  obtain ⟨runqueue, found⟩ := wired.leastLoaded_found processors
  unfold Kernel.addProcess
  rw [if_neg nonzero]
  simp only [found]
  split_ifs with held
  · exact mem_queued.mpr ⟨runqueue, List.mem_of_find?_eq_some found, held⟩
  · -- It stands at the end of the queue that was found.
    rcases modifyFirst_cases (fun runqueue : CpuRunQueue =>
      runqueue.cpuId == leastLoaded kernel.runqueues) (·.enqueue process) kernel.runqueues with
      ⟨none, -⟩ | ⟨front, picked, rest, -, -, changed⟩
    · cases (show kernel.runqueues.find? _ = some runqueue from found).symm.trans none
    · refine mem_queued.mpr ⟨picked.enqueue process, ?_, ?_⟩
      · simp only [modifyRunqueue, changed]
        exact List.mem_append_right _ List.mem_cons_self
      · simp [CpuRunQueue.enqueue]

/-- A process that was made ready and then added is still ready. -/
theorem addProcess_ready {kernel : Kernel} {process : Nat}
    (ready : (kernel.processes process).state = .ready) :
    ((kernel.addProcess process).processes process).state = .ready := by
  rcases kernel.addProcess_cases process with same | ⟨runqueue, -, -, -, added⟩
  · rw [same]
    exact ready
  · rw [added]
    simp [modifyRunqueue]

/-- A queued process needs a processor. -/
theorem Wired.processors_of_queued {cpuCount : Nat} {kernel : Kernel}
    (wired : kernel.Wired cpuCount) {process : Nat} (queued : process ∈ kernel.queued) :
    0 < cpuCount := by
  obtain ⟨runqueue, member, -⟩ := mem_queued.mp queued
  have numbered := List.mem_map_of_mem (f := (·.cpuId)) member
  rw [wired.numbered, List.mem_range] at numbered
  omega

end Kernel

/--
A successful send wakes exactly one of the processes waiting for the queue when the first waiter is one.

That waiter must not be on the list a second time, and there must be a processor.
-/
theorem send_wakes_one_iff (policy : SchedulerPolicy) (cpuCount : Nat) (memory : PagedMemory)
    (processes : Nat → Process) (records : Nat → ProcessRecord) (calls : List KernelCall)
    (kernel after : Kernel) (address : Nat) (queue : MessageQueue) (sender : Int)
    (data : Nat → UInt8) (size ticks : Nat) (stack : Nat → UInt8)
    (reached : (bootKernel policy cpuCount memory processes records).run calls = some kernel)
    (found : kernel.queues address = some queue)
    (sent : kernel.sendMessage address queue sender data size ticks stack = (true, after)) :
    kernel.WakesOne after address queue ↔
      0 < cpuCount ∧ ∃ first rest, queue.waitingProcesses = first :: rest ∧
        kernel.WaitsFor first address ∧ first ∉ rest := by
  have wired := run_wired reached
  have stationed := wired.stationed address queue found
  have wiredAfter : after.Wired cpuCount := by
    have kept := wired.sendMessage found sender data size ticks stack
    rwa [sent] at kept
  rcases kernel.sendMessage_cases address queue sender data size ticks stack with
    ⟨-, refused⟩ | ⟨message, -, ⟨nobody, left⟩ | ⟨woken, rest, wakes, split, woke⟩⟩
  · cases sent.symm.trans refused
  · -- Nobody was woken, so no waiter became ready, and the first one was stale.
    cases sent.symm.trans left
    constructor
    · rintro ⟨process, -, waits, ready, -⟩
      cases waits.1.symm.trans ready
    · rintro ⟨-, first, rest, split, waits, -⟩
      refine absurd ⟨?_, ?_, waits.1, waits.2.trans stationed.symm⟩ (nobody first)
      · rintro rfl
        exact wired.waiters address queue found (split ▸ List.mem_cons_self)
      · rw [split]
        rfl
  · cases sent.symm.trans woke
    have waitsWoken : kernel.WaitsFor woken address := ⟨wakes.2.2.1, wakes.2.2.2.trans stationed⟩
    -- The states of all others stay as they were.
    have others : ∀ other, other ≠ woken →
        ((kernel.unblock address queue message woken rest).addProcess woken).processes other =
          kernel.processes other := by
      intro other differs
      rw [addProcess_processes _ differs]
      exact Function.update_of_ne differs ..
    have only : ∀ other ∈ queue.waitingProcesses, kernel.WaitsFor other address →
        (((kernel.unblock address queue message woken rest).addProcess woken).processes
          other).state = .ready → other = woken := by
      intro other _ waits ready
      by_contra differs
      rw [others other differs] at ready
      cases waits.1.symm.trans ready
    have queuesAfter :
        ((kernel.unblock address queue message woken rest).addProcess woken).queues address =
          some { queue with messages := queue.messages ++ [message], waitingProcesses := rest } := by
      rw [(addProcess_frame _ _).2.1]
      exact (setQueue_queues _ _ _ _).trans (if_pos rfl)
    constructor
    · rintro ⟨process, member, waits, ready, gone, queued, -⟩
      have same := only process member waits ready
      subst same
      exact ⟨wiredAfter.processors_of_queued queued, process, rest, split, waits,
        gone _ queuesAfter⟩
    · rintro ⟨processors, first, others', split', waits, once⟩
      rw [split, List.cons.injEq] at split'
      obtain ⟨rfl, rfl⟩ := split'
      refine ⟨woken, by rw [split]; exact List.mem_cons_self, waits, ?_, ?_, ?_, only⟩
      · exact addProcess_ready (by simp [unblock])
      · intro left held
        cases queuesAfter.symm.trans held
        exact once
      · exact (wired.unblock found split message).addProcess_queued processors wakes.1

/-- A process alone on its processor that blocks on a queue and is woken. -/
theorem send_wakes_one_iff_alone :
    ∃ kernel queue after, (smallKernel 1).run
        [.createProcess 0x1000, .createQueue 0x8000, .scheduleOnCpu 0 0,
          .receiveMessage 0x8000 true 0 0] = some kernel ∧
      kernel.queues 0x8000 = some queue ∧
      kernel.sendMessage 0x8000 queue 0 (fun _ => 0) 0 0 (fun _ => 0) = (true, after) ∧
      kernel.WakesOne after 0x8000 queue := by
  have computed : ((smallKernel 1).run
      [.createProcess 0x1000, .createQueue 0x8000, .scheduleOnCpu 0 0,
        .receiveMessage 0x8000 true 0 0]).any (fun kernel =>
        (kernel.processes 0x1000 == ⟨.waiting, 0x8000⟩) &&
        (kernel.queues 0x8000).any fun queue => queue.waitingProcesses == [0x1000] &&
          (kernel.sendMessage 0x8000 queue 0 (fun _ => 0) 0 0 (fun _ => 0)).1) = true := by
    decide +kernel
  obtain ⟨kernel, reached, facts⟩ := (Option.any_eq_true _ _).mp computed
  simp only [Bool.and_eq_true, beq_iff_eq, Option.any_eq_true] at facts
  obtain ⟨waiting, queue, found, waiters, told⟩ := facts
  refine ⟨kernel, queue, _, reached, found, Prod.ext told rfl, ?_⟩
  refine (send_wakes_one_iff _ _ _ _ _ _ kernel _ 0x8000 queue 0 (fun _ => 0) 0 0 (fun _ => 0)
    reached found (Prod.ext told rfl)).mpr ⟨by decide, 0x1000, [], waiters, ?_, List.not_mem_nil⟩
  exact ⟨by rw [waiting], by rw [waiting]⟩

/--
A genuine waiter behind a stale one is not woken.

On two processors, the first receiver was made ready again when its processor turned to another
process, and it is still the first on the list when the second receiver waits.
-/
theorem waiter_behind_stale_one_not_woken :
    ∃ kernel queue after, (smallKernel 2).run
        [.createProcess 0x1000, .createProcess 0x2000, .createProcess 0x3000, .createQueue 0x8000,
          .scheduleOnCpu 0 0, .receiveMessage 0x8000 true 0 0, .scheduleOnCpu 1 0,
          .receiveMessage 0x8000 true 1 0] = some kernel ∧
      kernel.queues 0x8000 = some queue ∧
      kernel.sendMessage 0x8000 queue 0 (fun _ => 0) 0 0 (fun _ => 0) = (true, after) ∧
      0x2000 ∈ queue.waitingProcesses ∧ kernel.WaitsFor 0x2000 0x8000 ∧
      ¬ kernel.WakesOne after 0x8000 queue := by
  have computed : ((smallKernel 2).run
      [.createProcess 0x1000, .createProcess 0x2000, .createProcess 0x3000, .createQueue 0x8000,
        .scheduleOnCpu 0 0, .receiveMessage 0x8000 true 0 0, .scheduleOnCpu 1 0,
        .receiveMessage 0x8000 true 1 0]).any (fun kernel =>
        (kernel.processes 0x2000 == ⟨.waiting, 0x8000⟩) &&
        (kernel.processes 0x3000 == ⟨.ready, 0x8000⟩) &&
        (kernel.queues 0x8000).any fun queue => queue.waitingProcesses == [0x3000, 0x2000] &&
          (kernel.sendMessage 0x8000 queue 0 (fun _ => 0) 0 0 (fun _ => 0)).1 &&
          ((kernel.sendMessage 0x8000 queue 0 (fun _ => 0) 0 0 (fun _ => 0)).2.processes 0x2000 ==
            ⟨.waiting, 0x8000⟩)) = true := by
    decide +kernel
  obtain ⟨kernel, reached, facts⟩ := (Option.any_eq_true _ _).mp computed
  simp only [Bool.and_eq_true, beq_iff_eq, Option.any_eq_true] at facts
  obtain ⟨⟨waiting, stale⟩, queue, found, ⟨waiters, told⟩, still⟩ := facts
  refine ⟨kernel, queue, _, reached, found, Prod.ext told rfl, by rw [waiters]; decide,
    ⟨by rw [waiting], by rw [waiting]⟩, ?_⟩
  -- Of the two on the list, one did not wait and the other still does.
  rintro ⟨process, member, waits, ready, -⟩
  rw [waiters] at member
  rcases List.mem_pair.mp member with rfl | rfl
  · have state := waits.1
    rw [stale] at state
    cases state
  · rw [still] at ready
    cases ready

end Pocky
