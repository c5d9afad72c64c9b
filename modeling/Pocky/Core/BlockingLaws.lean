import Pocky.Core.KernelInvariants

/-! Blocked receivers: which runs keep them blocked, and which sends wake one of them. -/

namespace Pocky.Kernel

/-- A process waits for the queue at an address. -/
def WaitsFor (kernel : Kernel) (process address : Nat) : Prop :=
  (kernel.processes process).state = .waiting ∧ (kernel.processes process).waitingOn = address

/-- A processor does not turn from a process to another one when it reschedules. -/
def KeepsCurrent (kernel : Kernel) (cpuId process : Nat) : Prop :=
  ∀ runqueue, kernel.getRunqueue cpuId = some runqueue → runqueue.current = process →
    ∀ other ∈ runqueue.processQueue, ¬ kernel.Eligible other

instance (kernel : Kernel) (cpuId process : Nat) : Decidable (kernel.KeepsCurrent cpuId process) :=
  match found : kernel.getRunqueue cpuId with
  | none => isTrue fun runqueue held => by rw [found] at held; cases held
  | some runqueue =>
    decidable_of_iff (runqueue.current = process →
      ∀ other ∈ runqueue.processQueue, ¬ kernel.Eligible other)
      ⟨fun keeps other held => by rw [found] at held; cases held; exact keeps,
        fun keeps => keeps runqueue found⟩

/-- The calls that may end the wait of a process for the queue at an address. -/
def Releases (kernel : Kernel) (process address : Nat) : KernelCall → Prop
  | .sendMessage other .. => other = address
  | .wakeWaitingProcesses resource => resource = address
  | .destroyQueue other => other = address
  | .terminateProcess pid .. => kernel.getProcess pid = some process
  | _ => False

/--
A call that leaves a process blocked on the queue at an address.

Whenever it reschedules a processor that runs the process, there is nothing else to pick.
The process itself blocks on no other queue.
-/
def Undisturbed (process address : Nat) (kernel : Kernel) : KernelCall → Prop
  | .createProcess fresh => fresh ≠ process
  | .addProcess added => added ≠ process
  | .terminateProcess pid cpuId _ => ∀ other, kernel.getProcess pid = some other →
    kernel.currentProcess = other → (kernel.removeProcess other).KeepsCurrent cpuId process
  | .receiveMessage other wait cpuId _ => ∀ queue, kernel.queues other = some queue →
    kernel.Blocks queue wait → (kernel.currentProcess = process → other = address) ∧
      (kernel.block other queue).KeepsCurrent cpuId process
  | .scheduleOnCpu cpuId _ => kernel.KeepsCurrent cpuId process
  | .tick interrupts cpuId _ => kernel.TickExpires interrupts cpuId →
    kernel.KeepsCurrent cpuId process
  | _ => True

/-- A processor keeps its process if it would in a kernel that looks the same to the scheduler. -/
theorem KeepsCurrent.resembles {kernel other : Kernel} {cpuId process : Nat}
    (keeps : other.KeepsCurrent cpuId process) (same : kernel.Resembles other cpuId) :
    kernel.KeepsCurrent cpuId process := by
  intro runqueue found current candidate held eligible
  obtain ⟨old, foundOld, sameCurrent, sameQueue⟩ := same.runqueue runqueue found
  exact keeps old foundOld (sameCurrent ▸ current) candidate (sameQueue ▸ held)
    (same.eligible candidate eligible)

namespace WaitsFor

variable {kernel after : Kernel} {process address : Nat}

/-- Only the fields of the process itself matter. -/
theorem congr (waits : kernel.WaitsFor process address)
    (same : after.processes process = kernel.processes process) :
    after.WaitsFor process address := by
  unfold WaitsFor
  rw [same]
  exact waits

/-- A waiting process neither runs nor is eligible. -/
theorem not_eligible (waits : kernel.WaitsFor process address) : ¬ kernel.Eligible process := by
  rintro ⟨ready, -⟩
  simp [isReady, waits.1] at ready

/-- Rescheduling leaves a waiting process alone if its processor does not turn from it. -/
theorem scheduleOnCpu (kernel : Kernel) (waits : kernel.WaitsFor process address)
    {cpuId ticks : Nat} (keeps : kernel.KeepsCurrent cpuId process)
    (scheduled : kernel.scheduleOnCpu cpuId ticks = .ok after) :
    after.WaitsFor process address := by
  rcases scheduleOnCpu_cases scheduled with
    rfl | ⟨runqueue, index, found, -, rfl | ⟨next, -, held, eligible, -, rfl⟩⟩
  · exact waits
  · exact waits.congr rfl
  · -- The processor turns to another process, so it did not run this one.
    refine waits.congr ?_
    refine dispatch_processes _ _ ?_ ?_ ?_
    · intro running
      cases waits.1.symm.trans running
    · rintro rfl
      exact keeps runqueue found rfl next held eligible
    · rintro rfl
      exact waits.not_eligible eligible

/-- Waking those that wait for another resource leaves a waiting process alone. -/
theorem wakeProcesses {resource : Nat} (other : resource ≠ address) (list : List Nat) :
    ∀ kernel : Kernel, kernel.WaitsFor process address →
      (list.foldl (·.wakeProcess resource ·) kernel).WaitsFor process address := by
  induction list with
  | nil => exact fun _ waits => waits
  | cons woken list ih =>
    intro kernel waits
    rw [List.foldl_cons]
    refine ih _ ?_
    rw [wakeProcess]
    split
    · rename_i waiting
      -- The woken process waits for the resource, so it is another one.
      have differs : process ≠ woken := by
        rintro rfl
        exact other (waiting.2.symm.trans waits.2)
      refine waits.congr ?_
      rw [addProcess_processes _ differs]
      exact Function.update_of_ne differs ..
    · exact waits

/-- Destroying another queue leaves a waiting process alone. -/
theorem destroy {queue : MessageQueue} (other : queue.address ≠ address) (list : List Nat) :
    ∀ processes : Nat → Process, (processes process).waitingOn = address →
      list.foldl (fun processes waiter =>
        if (processes waiter).state = .waiting ∧ (processes waiter).waitingOn = queue.address then
          Function.update processes waiter ⟨.ready, 0⟩
        else processes) processes process = processes process := by
  induction list with
  | nil => exact fun _ _ => rfl
  | cons waiter list ih =>
    intro processes waits
    rw [List.foldl_cons]
    split
    · rename_i waiting
      have differs : process ≠ waiter := by
        rintro rfl
        exact other (waiting.2.symm.trans waits)
      have same : Function.update processes waiter ⟨.ready, 0⟩ process = processes process :=
        Function.update_of_ne differs ..
      rw [ih _ (by rw [same]; exact waits), same]
    · exact ih processes waits

/-- A send to another queue leaves a waiting process alone. -/
theorem sendMessage (waits : kernel.WaitsFor process address) {other : Nat} {queue : MessageQueue}
    (apart : queue.address ≠ address) (sender : Int) (data : Nat → UInt8) (size ticks : Nat)
    (stack : Nat → UInt8) :
    (kernel.sendMessage other queue sender data size ticks stack).2.WaitsFor process address := by
  rcases kernel.sendMessage_cases other queue sender data size ticks stack with
    ⟨-, sent⟩ | ⟨message, -, ⟨-, sent⟩ | ⟨woken, rest, wakes, -, sent⟩⟩
  · rw [sent]
    exact waits.congr rfl
  · rw [sent]
    exact waits.congr rfl
  · rw [sent]
    have differs : process ≠ woken := by
      rintro rfl
      exact apart (wakes.2.2.2.symm.trans waits.2)
    refine waits.congr ?_
    rw [addProcess_processes _ differs]
    exact Function.update_of_ne differs ..

/-- Blocking the running process leaves a waiting process alone, or makes it wait for the queue. -/
theorem block (waits : kernel.WaitsFor process address ∨ kernel.currentProcess = process)
    {other : Nat} {queue : MessageQueue} (stationed : queue.address = other)
    (same : kernel.currentProcess = process → other = address) :
    (kernel.block other queue).WaitsFor process address := by
  by_cases current : kernel.currentProcess = process
  · subst current
    refine ⟨?_, ?_⟩
    · simp [Kernel.block]
    · simp [Kernel.block, stationed, same rfl]
  · refine (waits.resolve_right current).congr ?_
    exact Function.update_of_ne (Ne.symm current) ..

/-- A receive leaves a waiting process waiting, and makes the process wait that it blocks. -/
theorem receiveMessage {other : Nat} {queue : MessageQueue} {wait : Bool} {cpuId ticks : Nat}
    {outcome : MessageQueue.ReceiveOutcome}
    (waits : kernel.WaitsFor process address ∨
      kernel.currentProcess = process ∧ kernel.Blocks queue wait)
    (stationed : queue.address = other)
    (undisturbed : kernel.Blocks queue wait → (kernel.currentProcess = process → other = address) ∧
      (kernel.block other queue).KeepsCurrent cpuId process)
    (received : kernel.receiveMessage other queue wait cpuId ticks = .ok (outcome, after)) :
    after.WaitsFor process address := by
  rcases receiveMessage_cases received with ⟨returns, messages, rfl⟩ | ⟨blocks, scheduled⟩
  · rcases waits with waits | ⟨-, blocks⟩
    · exact waits.congr rfl
    · exact absurd blocks returns
  · obtain ⟨same, keeps⟩ := undisturbed blocks
    exact scheduleOnCpu (kernel.block other queue)
      (block (waits.imp_right And.left) stationed same) keeps scheduled

/-- Terminating another process leaves a waiting process alone. -/
theorem terminateProcess (waits : kernel.WaitsFor process address) {pid : Int} {cpuId ticks : Nat}
    (keeps : ∀ other, kernel.getProcess pid = some other → kernel.currentProcess = other →
      (kernel.removeProcess other).KeepsCurrent cpuId process)
    (terminated : kernel.terminateProcess pid cpuId ticks = .ok after) :
    after.WaitsFor process address := by
  rcases terminateProcess_cases terminated with
    ⟨-, rfl⟩ | ⟨other, cleaned, found, cleanup, frame, outcome⟩
  · exact waits
  · have still : cleaned.WaitsFor process address := waits.congr (by rw [frame])
    rcases outcome with ⟨-, rfl⟩ | ⟨current, ⟨-, rfl⟩ | ⟨-, scheduled⟩⟩
    · exact still
    · exact still.congr rfl
    · -- To the scheduler the kernel looks as it did after the process left its queue.
      have records : ∀ candidate, (cleaned.records candidate).priority =
          ((kernel.removeProcess other).records candidate).priority := by
        intro candidate
        obtain ⟨memory, -, rest⟩ := Run.bind_eq_ok.mp cleanup
        cases rest
        dsimp only
        by_cases same : candidate = other
        · rw [same, Function.update_self]
        · rw [Function.update_of_ne same]
      have looks : { cleaned with
          currentProcess := cleaned.processList.headD 0 }.Resembles
            (kernel.removeProcess other) cpuId := by
        refine ⟨?_, ?_⟩
        · intro runqueue held
          refine ⟨runqueue, ?_, rfl, rfl⟩
          rw [getRunqueue, frame] at held
          exact held
        · rintro candidate ⟨ready, positive⟩
          rw [removeProcess_frame] at records ⊢
          refine ⟨?_, ?_⟩
          · rw [isReady, frame] at ready
            exact ready
          · intro byPriority
            rw [← records candidate]
            refine positive ?_
            rw [frame]
            exact byPriority
      exact scheduleOnCpu { cleaned with currentProcess := cleaned.processList.headD 0 }
        (still.congr rfl) ((keeps other found current).resembles looks) scheduled

/-- A call that neither disturbs nor releases a waiting process leaves it waiting. -/
theorem perform {cpuCount : Nat} (wired : kernel.Wired cpuCount)
    (waits : kernel.WaitsFor process address) {call : KernelCall}
    (undisturbed : Undisturbed process address kernel call)
    (held : ¬ kernel.Releases process address call)
    (performed : kernel.perform call = some after) : after.WaitsFor process address := by
  cases call with
  | createProcess fresh =>
    simp only [Kernel.perform] at performed
    split_ifs at performed
    obtain ⟨⟨pid, created⟩, returned, rfl⟩ := Option.map_eq_some_iff.mp performed
    have other : Function.update kernel.processes fresh ⟨.ready, 0⟩ process =
        kernel.processes process := Function.update_of_ne (Ne.symm undisturbed) ..
    rcases createProcess_cases (Run.toOption_eq_some.mp returned) with
      ⟨-, frame⟩ | ⟨listed, -, added, frame⟩
    · rw [frame]
      exact waits.congr other
    · rw [added]
      refine waits.congr ((addProcess_processes _ (Ne.symm undisturbed)).trans ?_)
      rw [frame]
      exact other
  | terminateProcess pid cpuId ticks =>
    exact waits.terminateProcess undisturbed (Run.toOption_eq_some.mp performed)
  | createQueue other =>
    simp only [Kernel.perform] at performed
    split_ifs at performed
    cases performed
    exact waits.congr rfl
  | destroyQueue other =>
    obtain ⟨queue, found, rfl⟩ := Option.map_eq_some_iff.mp performed
    refine waits.congr (destroy ?_ queue.waitingProcesses kernel.processes waits.2)
    rw [wired.stationed other queue found]
    exact held
  | sendMessage other sender data size ticks stack =>
    obtain ⟨queue, found, rfl⟩ := Option.map_eq_some_iff.mp performed
    refine waits.sendMessage ?_ sender data size ticks stack
    rw [wired.stationed other queue found]
    exact held
  | receiveMessage other wait cpuId ticks =>
    obtain ⟨queue, found, received⟩ := Option.bind_eq_some_iff.mp performed
    obtain ⟨⟨outcome, returned⟩, answer, rfl⟩ := Option.map_eq_some_iff.mp received
    exact receiveMessage (Or.inl waits) (wired.stationed other queue found)
      (undisturbed queue found) (Run.toOption_eq_some.mp answer)
  | resumeReceive other =>
    obtain ⟨queue, -, rfl⟩ := Option.map_eq_some_iff.mp performed
    rw [resumeReceive_eq]
    exact waits.congr rfl
  | addProcess added =>
    simp only [Kernel.perform] at performed
    split_ifs at performed
    cases performed
    exact waits.congr (addProcess_processes kernel (Ne.symm undisturbed))
  | removeProcess removed =>
    cases performed
    rw [removeProcess_frame]
    exact waits.congr rfl
  | scheduleOnCpu cpuId ticks =>
    exact scheduleOnCpu kernel waits undisturbed (Run.toOption_eq_some.mp performed)
  | tick interrupts cpuId ticks =>
    obtain ⟨ticked, ran, frame, -⟩ := tick_cases (Run.toOption_eq_some.mp performed)
    obtain ⟨counted, countedFrame, -, looks, outcome⟩ := tickOnCpu_cases ran
    have before : counted.WaitsFor process address := waits.congr (by rw [countedFrame])
    have between : ticked.WaitsFor process address := by
      rcases outcome with rfl | ⟨expires, scheduled⟩
      · exact before
      · exact scheduleOnCpu counted before ((undisturbed expires).resembles looks) scheduled
    exact between.congr (by rw [frame])
  | loadBalance =>
    cases performed
    rw [kernel.loadBalance_frame.1]
    exact waits.congr rfl
  | wakeWaitingProcesses resource =>
    cases performed
    exact wakeProcesses held kernel.processList kernel waits
  | setProcessPriority pid priority =>
    cases performed
    unfold Kernel.setProcessPriority
    split
    · exact waits
    · exact waits.congr rfl

end WaitsFor

end Pocky.Kernel

namespace Pocky

open Kernel

/--
A blocked receiver stays blocked in a run that neither disturbs nor releases it.

From any reachable kernel the running process blocks on an empty queue.
After it and any further calls the process still waits, and no selection picks it.
-/
theorem blocked_until_released (policy : SchedulerPolicy) (cpuCount : Nat) (memory : PagedMemory)
    (processes : Nat → Process) (records : Nat → ProcessRecord) (earlier later : List KernelCall)
    (kernel after : Kernel) (address cpuId ticks : Nat) (queue : MessageQueue)
    (reached : (bootKernel policy cpuCount memory processes records).run earlier = some kernel)
    (found : kernel.queues address = some queue) (blocks : kernel.Blocks queue true)
    (undisturbed : Calls.AllMeet Kernel.perform
      (fun state call => Undisturbed kernel.currentProcess address state call ∧
        ¬ state.Releases kernel.currentProcess address call) kernel
      (.receiveMessage address true cpuId ticks :: later))
    (ran : kernel.run (.receiveMessage address true cpuId ticks :: later) = some after) :
    after.WaitsFor kernel.currentProcess address ∧
      ∀ cpuId runqueue next searched, after.getRunqueue cpuId = some runqueue →
        after.selectNextProcess runqueue = .ok (next, searched) → next ≠ kernel.currentProcess := by
  have wired := run_wired reached
  -- The receive makes the process wait, and the later calls keep it waiting.
  obtain ⟨next, performed, rest⟩ := Calls.run_cons.mp ran
  obtain ⟨⟨first, -⟩, others⟩ := undisturbed
  have waits : next.WaitsFor kernel.currentProcess address := by
    obtain ⟨again, foundAgain, received⟩ := Option.bind_eq_some_iff.mp performed
    cases found.symm.trans foundAgain
    obtain ⟨⟨outcome, returned⟩, answer, rfl⟩ := Option.map_eq_some_iff.mp received
    exact WaitsFor.receiveMessage (Or.inr ⟨rfl, blocks⟩) (wired.stationed address queue found)
      (first queue found) (Run.toOption_eq_some.mp answer)
  have still := Calls.run_invariant
    (fun state : Kernel => state.Wired cpuCount ∧ state.WaitsFor kernel.currentProcess address)
    (fun _ _ _ holds meets performed => ⟨holds.1.perform performed,
      holds.2.perform holds.1 meets.1 meets.2 performed⟩) later next after
    ⟨wired.perform performed, waits⟩ (others next performed) rest
  refine ⟨still.2, ?_⟩
  rintro cpuId runqueue _ searched - selected rfl
  -- A selection is null or eligible, and the process is neither.
  rcases (selectNextProcess_spec selected).1 with null | ⟨-, eligible⟩
  · exact blocks.2.2 null
  · exact still.2.not_eligible eligible

/-- A process alone on its processor that blocks on a queue. -/
theorem blocked_until_released_alone :
    ∃ kernel after, (smallKernel 1).run
        [.createProcess 0x1000, .createQueue 0x8000, .scheduleOnCpu 0 0] = some kernel ∧
      kernel.currentProcess = 0x1000 ∧
      kernel.run [.receiveMessage 0x8000 true 0 0] = some after ∧
      after.WaitsFor 0x1000 0x8000 := by
  -- The facts about the kernel before the receive are computed.
  have computed : ((smallKernel 1).run
      [.createProcess 0x1000, .createQueue 0x8000, .scheduleOnCpu 0 0]).any (fun kernel =>
        kernel.currentProcess == 0x1000 && (kernel.run [.receiveMessage 0x8000 true 0 0]).isSome &&
        (kernel.queues 0x8000).any fun queue => queue.messages.isEmpty &&
          (kernel.block 0x8000 queue).KeepsCurrent 0 0x1000) = true := by
    decide +kernel
  obtain ⟨kernel, reached, facts⟩ := (Option.any_eq_true _ _).mp computed
  simp only [Bool.and_eq_true, beq_iff_eq, Option.any_eq_true, decide_eq_true_eq,
    List.isEmpty_iff] at facts
  obtain ⟨⟨current, returns⟩, queue, found, empty, keeps⟩ := facts
  obtain ⟨after, ran⟩ := Option.isSome_iff_exists.mp returns
  refine ⟨kernel, after, reached, current, ran, ?_⟩
  rw [← current]
  refine (blocked_until_released _ _ _ _ _ _ [] kernel after 0x8000 0 0 queue reached found
    ⟨rfl, empty, by rw [current]; decide⟩ ⟨⟨?_, not_false⟩, fun _ _ => trivial⟩ ran).1
  intro other foundOther blocks
  cases found.symm.trans foundOther
  exact ⟨fun _ => rfl, by rw [current]; exact keeps⟩

/--
A receiver that blocks while another process is ready is ready again at once.

The scheduler that its own receive calls turns to the other process and makes it ready.
-/
theorem blocked_receiver_made_ready :
    ∃ kernel queue after, (smallKernel 1).run
        [.createProcess 0x1000, .createProcess 0x2000, .createQueue 0x8000, .scheduleOnCpu 0 0] =
          some kernel ∧
      kernel.queues 0x8000 = some queue ∧ kernel.Blocks queue true ∧
      kernel.currentProcess = 0x2000 ∧
      kernel.run [.receiveMessage 0x8000 true 0 0] = some after ∧
      (after.processes 0x2000).state = .ready := by
  have computed : ((smallKernel 1).run
      [.createProcess 0x1000, .createProcess 0x2000, .createQueue 0x8000,
        .scheduleOnCpu 0 0]).any (fun kernel =>
        kernel.currentProcess == 0x2000 &&
        (kernel.queues 0x8000).any (·.messages.isEmpty) &&
        (kernel.run [.receiveMessage 0x8000 true 0 0]).any fun after =>
          (after.processes 0x2000).state == .ready) = true := by
    decide +kernel
  obtain ⟨kernel, reached, facts⟩ := (Option.any_eq_true _ _).mp computed
  simp only [Bool.and_eq_true, beq_iff_eq, Option.any_eq_true, List.isEmpty_iff] at facts
  obtain ⟨⟨current, queue, found, empty⟩, after, ran, ready⟩ := facts
  exact ⟨kernel, queue, after, reached, found, ⟨rfl, empty, by rw [current]; decide⟩, current, ran,
    ready⟩

end Pocky
