import Pocky.Core.ProcessLaws

/-! What every call into the kernel keeps: where queues lie, who waits, and which processors there are. -/

namespace Pocky.Kernel

/-- The queues lie at their own addresses, no waiter is null, and processors keep their numbers. -/
structure Wired (cpuCount : Nat) (kernel : Kernel) : Prop where
  /-- A queue knows its own address. -/
  stationed : ∀ address queue, kernel.queues address = some queue → queue.address = address
  /-- Every waiter is a process. -/
  waiters : ∀ address queue, kernel.queues address = some queue → 0 ∉ queue.waitingProcesses
  /-- There is one run queue for each processor, in order. -/
  numbered : kernel.runqueues.map (·.cpuId) = List.range cpuCount

/-- Changing a run queue in place keeps the numbers of the processors. -/
theorem modifyRunqueue_numbers (kernel : Kernel) (cpuId : Nat) (change : CpuRunQueue → CpuRunQueue)
    (kept : ∀ runqueue, kernel.getRunqueue cpuId = some runqueue →
      (change runqueue).cpuId = runqueue.cpuId) :
    (kernel.modifyRunqueue cpuId change).runqueues.map (·.cpuId) =
      kernel.runqueues.map (·.cpuId) :=
  map_modifyFirst kept

/-- Rescheduling keeps the numbers of the processors. -/
theorem scheduleOnCpu_numbers {kernel after : Kernel} {cpuId ticks : Nat}
    (scheduled : kernel.scheduleOnCpu cpuId ticks = .ok after) :
    after.runqueues.map (·.cpuId) = kernel.runqueues.map (·.cpuId) := by
  rcases scheduleOnCpu_cases scheduled with rfl | ⟨runqueue, index, found, -, moved⟩
  · rfl
  · have searched := kernel.modifyRunqueue_numbers cpuId
      (fun _ => { runqueue with currentIndex := index })
      (by intro other again; cases found.symm.trans again; rfl)
    rcases moved with rfl | ⟨next, -, -, -, -, rfl⟩
    · exact searched
    · rw [(dispatch_frame _ _ _ _ _).1, map_modifyFirst (by intros; rfl), searched]

/-- Adding a process keeps the numbers of the processors. -/
theorem addProcess_numbers (kernel : Kernel) (process : Nat) :
    (kernel.addProcess process).runqueues.map (·.cpuId) = kernel.runqueues.map (·.cpuId) := by
  rcases kernel.addProcess_cases process with same | ⟨runqueue, -, -, -, added⟩
  · rw [same]
  · rw [added]
    exact map_modifyFirst fun _ _ => rfl

/-- Removing a process keeps the numbers of the processors. -/
theorem removeProcess_numbers (kernel : Kernel) (process : Nat) :
    (kernel.removeProcess process).runqueues.map (·.cpuId) = kernel.runqueues.map (·.cpuId) := by
  unfold removeProcess
  split
  · rfl
  · refine map_modifyFirst fun runqueue _ => ?_
    unfold CpuRunQueue.clearCurrent
    split <;> rfl

/-- Moving processes changes nothing but the run queues. -/
theorem moveProcesses_frame (fromCpu toCpu fuel : Nat) :
    ∀ (index toMove : Nat) (kernel : Kernel),
      kernel.moveProcesses fromCpu toCpu fuel index toMove =
        { kernel with
          runqueues := (kernel.moveProcesses fromCpu toCpu fuel index toMove).runqueues } ∧
      (kernel.moveProcesses fromCpu toCpu fuel index toMove).runqueues.map (·.cpuId) =
        kernel.runqueues.map (·.cpuId) := by
  induction fuel with
  | zero => exact fun index toMove kernel => ⟨rfl, rfl⟩
  | succ fuel ih =>
    intro index toMove kernel
    -- One move keeps the numbers too.
    have once : ∀ process, kernel.migrateProcess process fromCpu toCpu =
          { kernel with runqueues := (kernel.migrateProcess process fromCpu toCpu).runqueues } ∧
        (kernel.migrateProcess process fromCpu toCpu).runqueues.map (·.cpuId) =
          kernel.runqueues.map (·.cpuId) := by
      intro process
      unfold migrateProcess
      split
      · exact ⟨rfl, rfl⟩
      · split
        · refine ⟨rfl, ?_⟩
          rw [modifyRunqueue_numbers _ _ _ (by intros; rfl),
            modifyRunqueue_numbers _ _ _ (by intros; split <;> rfl)]
        · exact ⟨rfl, rfl⟩
    unfold moveProcesses
    split
    · exact ⟨rfl, rfl⟩
    · split
      · exact ⟨rfl, rfl⟩
      · dsimp only
        split
        · obtain ⟨frame, numbers⟩ := ih index (toMove - 1) (kernel.migrateProcess _ fromCpu toCpu)
          obtain ⟨frame', numbers'⟩ := once (CpuRunQueue.processAt _ index)
          exact ⟨by rw [frame, frame'], numbers.trans numbers'⟩
        · exact ih _ _ _

/-- Balancing changes nothing but the run queues, and keeps the numbers of the processors. -/
theorem loadBalance_frame (kernel : Kernel) :
    kernel.loadBalance = { kernel with runqueues := kernel.loadBalance.runqueues } ∧
      kernel.loadBalance.runqueues.map (·.cpuId) = kernel.runqueues.map (·.cpuId) := by
  unfold loadBalance
  dsimp only
  split
  · exact ⟨rfl, rfl⟩
  · split
    · exact moveProcesses_frame _ _ _ _ _ _
    · exact ⟨rfl, rfl⟩

/-- A tick uses up the time of the process a processor runs, unless that process is exempt. -/
def TickExpires (kernel : Kernel) (interrupts : Bool) (cpuId : Nat) : Prop :=
  interrupts = true ∧ ∃ runqueue, kernel.getRunqueue cpuId = some runqueue ∧
    runqueue.current ≠ 0 ∧ (kernel.records runqueue.current).priority < 9 ∧
    runqueue.currentTimeSlice ≤ 1

/-- One kernel looks to the scheduler of a processor like another. -/
structure Resembles (kernel other : Kernel) (cpuId : Nat) : Prop where
  /-- The run queue has the same processes and runs the same one. -/
  runqueue : ∀ runqueue, kernel.getRunqueue cpuId = some runqueue → ∃ old,
    other.getRunqueue cpuId = some old ∧ runqueue.current = old.current ∧
    runqueue.processQueue = old.processQueue
  /-- The same processes can be picked. -/
  eligible : ∀ process, kernel.Eligible process → other.Eligible process

/-- A kernel that resembles one that resembles a third resembles that one too. -/
theorem Resembles.trans {first second third : Kernel} {cpuId : Nat}
    (left : first.Resembles second cpuId) (right : second.Resembles third cpuId) :
    first.Resembles third cpuId := by
  refine ⟨?_, fun process eligible => right.eligible process (left.eligible process eligible)⟩
  intro runqueue found
  obtain ⟨middle, foundMiddle, current, queue⟩ := left.runqueue runqueue found
  obtain ⟨old, foundOld, current', queue'⟩ := right.runqueue middle foundMiddle
  exact ⟨old, foundOld, current.trans current', queue.trans queue'⟩

/-- Records that keep every priority make no difference. -/
theorem resembles_records (kernel : Kernel) (records : Nat → ProcessRecord) (cpuId : Nat)
    (kept : ∀ process, (records process).priority = (kernel.records process).priority) :
    { kernel with records := records }.Resembles kernel cpuId := by
  refine ⟨fun runqueue found => ⟨runqueue, found, rfl, rfl⟩, ?_⟩
  rintro process ⟨ready, positive⟩
  refine ⟨ready, fun byPriority => ?_⟩
  rw [← kept process]
  exact positive byPriority

/-- A change of the run queue that keeps its processes and the one it runs makes no difference. -/
theorem resembles_modify (kernel : Kernel) (cpuId : Nat) (change : CpuRunQueue → CpuRunQueue)
    (kept : ∀ runqueue, (change runqueue).cpuId = runqueue.cpuId ∧
      (change runqueue).current = runqueue.current ∧
      (change runqueue).processQueue = runqueue.processQueue) :
    (kernel.modifyRunqueue cpuId change).Resembles kernel cpuId := by
  refine ⟨?_, fun _ eligible => eligible⟩
  intro runqueue found
  rw [getRunqueue_modifyRunqueue fun old _ => (kept old).1] at found
  obtain ⟨old, foundOld, rfl⟩ := Option.map_eq_some_iff.mp found
  exact ⟨old, foundOld, (kept old).2.1, (kept old).2.2⟩

/-- What a tick of a processor did: it counted, and it may have rescheduled when time was up. -/
theorem tickOnCpu_cases {kernel after : Kernel} {interrupts : Bool} {cpuId ticks : Nat}
    (ticked : kernel.tickOnCpu interrupts cpuId cpuId ticks = .ok after) :
    ∃ counted : Kernel,
      counted = { kernel with records := counted.records, runqueues := counted.runqueues } ∧
      counted.runqueues.map (·.cpuId) = kernel.runqueues.map (·.cpuId) ∧
      counted.Resembles kernel cpuId ∧
      (after = counted ∨
        kernel.TickExpires interrupts cpuId ∧ counted.scheduleOnCpu cpuId ticks = .ok after) := by
  have itself : kernel.Resembles kernel cpuId := kernel.resembles_records _ cpuId fun _ => rfl
  unfold tickOnCpu at ticked
  cases interrupts with
  | false =>
    cases ticked
    exact ⟨kernel, rfl, rfl, itself, Or.inl rfl⟩
  | true =>
    simp only [Bool.not_true, Bool.false_eq_true, if_false] at ticked
    split at ticked
    · cases ticked
      exact ⟨kernel, rfl, rfl, itself, Or.inl rfl⟩
    · rename_i runqueue found
      by_cases idle : runqueue.current = 0
      · rw [if_pos idle] at ticked
        cases ticked
        exact ⟨kernel, rfl, rfl, itself, Or.inl rfl⟩
      · rw [if_neg idle] at ticked
        -- The runtime of the process is counted, which changes no priority.
        have counts := kernel.resembles_records (Function.update kernel.records runqueue.current
          { kernel.records runqueue.current with
            totalRuntime := ((kernel.records runqueue.current).totalRuntime + 1) % 2 ^ 64 }) cpuId
          (by
            intro process
            by_cases same : process = runqueue.current
            · rw [same, Function.update_self]
            · rw [Function.update_of_ne same])
        by_cases exempt : 9 ≤ (kernel.records runqueue.current).priority
        · rw [if_pos exempt] at ticked
          cases ticked
          refine ⟨_, ?_, ?_, counts, Or.inl rfl⟩
          · rfl
          · rfl
        · rw [if_neg exempt] at ticked
          have slices := (resembles_modify _ cpuId
            ({ · with currentTimeSlice := runqueue.currentTimeSlice - 1 })
            fun _ => ⟨rfl, rfl, rfl⟩).trans counts
          by_cases spent : runqueue.currentTimeSlice - 1 = 0
          · rw [if_pos spent, if_pos trivial] at ticked
            refine ⟨_, ?_, ?_, (resembles_modify _ cpuId ({ · with needsResched := true })
              fun _ => ⟨rfl, rfl, rfl⟩).trans slices, Or.inr ⟨⟨rfl, runqueue, found, idle, ?_⟩,
              ticked⟩⟩
            · rfl
            · rw [modifyRunqueue_numbers _ _ _ (by intros; rfl),
                modifyRunqueue_numbers _ _ _ (by intros; rfl)]
            · omega
          · rw [if_neg spent] at ticked
            cases ticked
            refine ⟨_, ?_, ?_, slices, Or.inl rfl⟩
            · rfl
            · exact modifyRunqueue_numbers _ _ _ (by intros; rfl)

/-- What a tick did after the tick of its processor: it counted and may have balanced the queues. -/
theorem tick_cases {kernel after : Kernel} {interrupts : Bool} {cpuId ticks : Nat}
    (ticked : kernel.tick interrupts cpuId ticks = .ok after) :
    ∃ counted : Kernel, kernel.tickOnCpu interrupts cpuId cpuId ticks = .ok counted ∧
      after = { counted with
        loadBalanceCounter := after.loadBalanceCounter, runqueues := after.runqueues } ∧
      after.runqueues.map (·.cpuId) = counted.runqueues.map (·.cpuId) := by
  obtain ⟨counted, done, rest⟩ := Run.bind_eq_ok.mp ticked
  refine ⟨counted, done, ?_⟩
  split_ifs at rest with due first
  · obtain ⟨frame, numbers⟩ := loadBalance_frame { counted with loadBalanceCounter := 0 }
    have same : { counted with loadBalanceCounter := 0 }.loadBalance = after :=
      Except.ok.inj rest
    rw [same] at frame numbers
    have counter : after.loadBalanceCounter = 0 := by rw [frame]
    rw [counter]
    exact ⟨frame, numbers⟩
  · cases rest
    exact ⟨rfl, rfl⟩
  · cases rest
    exact ⟨rfl, rfl⟩

namespace Wired

variable {cpuCount : Nat} {kernel after : Kernel}

/-- A call that leaves the message queues and the processors alone. -/
theorem congr (wired : kernel.Wired cpuCount) (queues : after.queues = kernel.queues)
    (numbers : after.runqueues.map (·.cpuId) = kernel.runqueues.map (·.cpuId)) :
    after.Wired cpuCount := by
  refine ⟨?_, ?_, numbers.trans wired.numbered⟩
  · rw [queues]
    exact wired.stationed
  · rw [queues]
    exact wired.waiters

/-- A queue may be put at its own address. -/
theorem setQueue (wired : kernel.Wired cpuCount) {address : Nat} {queue : Option MessageQueue}
    (placed : ∀ held, queue = some held → held.address = address ∧ 0 ∉ held.waitingProcesses) :
    (kernel.setQueue address queue).Wired cpuCount := by
  -- Every other address holds what it held before.
  have cases : ∀ other held, (kernel.setQueue address queue).queues other = some held →
      held.address = other ∧ 0 ∉ held.waitingProcesses := by
    intro other held found
    rw [setQueue_queues] at found
    split_ifs at found with same
    · exact same ▸ placed held found
    · exact ⟨wired.stationed other held found, wired.waiters other held found⟩
  exact ⟨fun other held found => (cases other held found).1,
    fun other held found => (cases other held found).2, wired.numbered⟩

/-- Adding a process. -/
theorem addProcess (kernel : Kernel) (wired : kernel.Wired cpuCount) (process : Nat) :
    (kernel.addProcess process).Wired cpuCount :=
  wired.congr (kernel.addProcess_frame process).2.1 (kernel.addProcess_numbers process)

/-- Rescheduling. -/
theorem scheduleOnCpu (kernel : Kernel) (wired : kernel.Wired cpuCount) {cpuId ticks : Nat}
    (scheduled : kernel.scheduleOnCpu cpuId ticks = .ok after) : after.Wired cpuCount :=
  wired.congr (scheduleOnCpu_frame scheduled).2.1 (scheduleOnCpu_numbers scheduled)

/-- Waking one process, and then all of a list. -/
theorem wakeProcesses (resource : Nat) (list : List Nat) :
    ∀ kernel : Kernel, kernel.Wired cpuCount →
      (list.foldl (·.wakeProcess resource ·) kernel).Wired cpuCount := by
  induction list with
  | nil => exact fun _ wired => wired
  | cons process list ih =>
    intro kernel wired
    rw [List.foldl_cons]
    refine ih _ ?_
    rw [wakeProcess]
    split
    · refine addProcess _ ?_ process
      exact wired.congr rfl rfl
    · exact wired

/-- Unblocking the first waiter. -/
theorem unblock (wired : kernel.Wired cpuCount) {address process : Nat} {queue : MessageQueue}
    (found : kernel.queues address = some queue) {rest : List Nat}
    (split : queue.waitingProcesses = process :: rest) (message : IpcMessage) :
    (kernel.unblock address queue message process rest).Wired cpuCount := by
  have waiters := wired.waiters address queue found
  rw [split] at waiters
  have stored : (kernel.setQueue address (some { queue with
      messages := queue.messages ++ [message], waitingProcesses := rest })).Wired cpuCount := by
    refine wired.setQueue ?_
    rintro held ⟨⟩
    exact ⟨wired.stationed address queue found,
      fun null => waiters (List.mem_cons_of_mem _ null)⟩
  exact stored.congr rfl rfl

/-- Sending. -/
theorem sendMessage (wired : kernel.Wired cpuCount) {address : Nat} {queue : MessageQueue}
    (found : kernel.queues address = some queue) (sender : Int) (data : Nat → UInt8)
    (size ticks : Nat) (stack : Nat → UInt8) :
    (kernel.sendMessage address queue sender data size ticks stack).2.Wired cpuCount := by
  have stationed := wired.stationed address queue found
  have waiters := wired.waiters address queue found
  rcases kernel.sendMessage_cases address queue sender data size ticks stack with
    ⟨-, sent⟩ | ⟨message, -, ⟨-, sent⟩ | ⟨process, rest, -, split, sent⟩⟩
  · rw [sent]
    refine wired.setQueue ?_
    rintro held ⟨⟩
    exact ⟨stationed, waiters⟩
  · rw [sent]
    refine wired.setQueue ?_
    rintro held ⟨⟩
    exact ⟨stationed, waiters⟩
  · rw [sent]
    exact addProcess _ (wired.unblock found split message) process

/-- Receiving. -/
theorem receiveMessage (wired : kernel.Wired cpuCount) {address : Nat} {queue : MessageQueue}
    (found : kernel.queues address = some queue) {wait : Bool} {cpuId ticks : Nat}
    {outcome : MessageQueue.ReceiveOutcome}
    (received : kernel.receiveMessage address queue wait cpuId ticks = .ok (outcome, after)) :
    after.Wired cpuCount := by
  have stationed := wired.stationed address queue found
  have waiters := wired.waiters address queue found
  rcases receiveMessage_cases received with ⟨-, messages, rfl⟩ | ⟨⟨-, -, nonzero⟩, scheduled⟩
  · refine wired.setQueue ?_
    rintro held ⟨⟩
    exact ⟨stationed, waiters⟩
  · have stored : (kernel.setQueue address (some { queue with
        waitingProcesses := queue.waitingProcesses ++ [kernel.currentProcess] })).Wired cpuCount := by
      refine wired.setQueue ?_
      rintro held ⟨⟩
      refine ⟨stationed, ?_⟩
      simp [waiters, nonzero.symm]
    refine scheduleOnCpu (kernel.block address queue) ?_ scheduled
    exact stored.congr rfl rfl

/-- Terminating. -/
theorem terminateProcess (wired : kernel.Wired cpuCount) {pid : Int} {cpuId ticks : Nat}
    (terminated : kernel.terminateProcess pid cpuId ticks = .ok after) : after.Wired cpuCount := by
  rcases terminateProcess_cases terminated with
    ⟨-, rfl⟩ | ⟨process, cleaned, -, -, frame, outcome⟩
  · exact wired
  · have removed : cleaned.Wired cpuCount := by
      refine wired.congr (by rw [frame]) ?_
      rw [frame]
      exact kernel.removeProcess_numbers process
    rcases outcome with ⟨-, rfl⟩ | ⟨-, ⟨-, rfl⟩ | ⟨-, scheduled⟩⟩
    · exact removed
    · exact removed.congr rfl rfl
    · refine scheduleOnCpu { cleaned with currentProcess := cleaned.processList.headD 0 } ?_
        scheduled
      exact removed.congr rfl rfl

/-- Every call keeps the wiring. -/
theorem perform (wired : kernel.Wired cpuCount) {call : KernelCall}
    (performed : kernel.perform call = some after) : after.Wired cpuCount := by
  cases call with
  | createProcess address =>
    simp only [Kernel.perform] at performed
    split_ifs at performed
    obtain ⟨⟨pid, created⟩, returned, rfl⟩ := Option.map_eq_some_iff.mp performed
    rcases createProcess_cases (Run.toOption_eq_some.mp returned) with
      ⟨-, frame⟩ | ⟨listed, -, added, frame⟩
    · exact wired.congr (by rw [frame]) (by rw [frame])
    · rw [added]
      refine addProcess listed ?_ address
      exact wired.congr (by rw [frame]) (by rw [frame])
  | terminateProcess pid cpuId ticks =>
    exact wired.terminateProcess (Run.toOption_eq_some.mp performed)
  | createQueue address =>
    simp only [Kernel.perform] at performed
    split_ifs at performed
    cases performed
    refine wired.setQueue ?_
    rintro held ⟨⟩
    exact ⟨rfl, by simp [createMessageQueue]⟩
  | destroyQueue address =>
    obtain ⟨queue, -, rfl⟩ := Option.map_eq_some_iff.mp performed
    have removed : (kernel.setQueue address none).Wired cpuCount := by
      refine wired.setQueue ?_
      rintro held ⟨⟩
    exact removed.congr rfl rfl
  | sendMessage address sender data size ticks stack =>
    obtain ⟨queue, found, rfl⟩ := Option.map_eq_some_iff.mp performed
    exact wired.sendMessage found sender data size ticks stack
  | receiveMessage address wait cpuId ticks =>
    obtain ⟨queue, found, received⟩ := Option.bind_eq_some_iff.mp performed
    obtain ⟨⟨outcome, returned⟩, answer, rfl⟩ := Option.map_eq_some_iff.mp received
    exact wired.receiveMessage found (Run.toOption_eq_some.mp answer)
  | resumeReceive address =>
    obtain ⟨queue, found, rfl⟩ := Option.map_eq_some_iff.mp performed
    rw [resumeReceive_eq]
    refine wired.setQueue ?_
    rintro held ⟨⟩
    exact ⟨wired.stationed address queue found, wired.waiters address queue found⟩
  | addProcess process =>
    simp only [Kernel.perform] at performed
    split_ifs at performed
    cases performed
    exact addProcess kernel wired process
  | removeProcess process =>
    cases performed
    refine wired.congr ?_ (kernel.removeProcess_numbers process)
    rw [removeProcess_frame]
  | scheduleOnCpu cpuId ticks =>
    exact scheduleOnCpu kernel wired (Run.toOption_eq_some.mp performed)
  | tick interrupts cpuId ticks =>
    obtain ⟨ticked, ran, frame, numbers⟩ := tick_cases (Run.toOption_eq_some.mp performed)
    obtain ⟨counted, countedFrame, countedNumbers, -, outcome⟩ := tickOnCpu_cases ran
    have before : counted.Wired cpuCount :=
      wired.congr (by rw [countedFrame]) countedNumbers
    have between : ticked.Wired cpuCount := by
      rcases outcome with rfl | ⟨-, scheduled⟩
      · exact before
      · exact scheduleOnCpu counted before scheduled
    exact between.congr (by rw [frame]) numbers
  | loadBalance =>
    cases performed
    obtain ⟨frame, numbers⟩ := kernel.loadBalance_frame
    exact wired.congr (by rw [frame]) numbers
  | wakeWaitingProcesses resource =>
    cases performed
    exact wakeProcesses resource kernel.processList kernel wired
  | setProcessPriority pid priority =>
    cases performed
    unfold Kernel.setProcessPriority
    split
    · exact wired
    · exact wired.congr rfl rfl

end Wired

/-- The wiring when the kernel boots. -/
theorem bootKernel_wired (policy : SchedulerPolicy) (cpuCount : Nat) (memory : PagedMemory)
    (processes : Nat → Process) (records : Nat → ProcessRecord) :
    (bootKernel policy cpuCount memory processes records).Wired cpuCount := by
  refine ⟨fun _ _ none => (Option.some_ne_none _ none.symm).elim,
    fun _ _ none => (Option.some_ne_none _ none.symm).elim, ?_⟩
  simp [bootKernel, CpuRunQueue.fresh, Function.comp_def]

/-- Every run from boot keeps the wiring. -/
theorem run_wired {policy : SchedulerPolicy} {cpuCount : Nat} {memory : PagedMemory}
    {processes : Nat → Process} {records : Nat → ProcessRecord} {calls : List KernelCall}
    {after : Kernel}
    (ran : (bootKernel policy cpuCount memory processes records).run calls = some after) :
    after.Wired cpuCount :=
  Calls.run_invariant (fun kernel : Kernel => kernel.Wired cpuCount)
    (fun _ _ _ wired (_ : True) performed => wired.perform performed) calls _ after
    (bootKernel_wired policy cpuCount memory processes records)
    (Calls.allMeet_of_forall (fun _ _ => trivial) calls _) ran

end Pocky.Kernel
