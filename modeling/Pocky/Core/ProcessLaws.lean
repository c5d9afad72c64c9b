import Pocky.Core.ProcessManager
import Pocky.Core.SchedulerLaws

/-! What each call into the kernel does to the processes, the run queues and the message queues. -/

namespace Pocky.Kernel

/-- The message queues after one has been replaced. -/
theorem setQueue_queues (kernel : Kernel) (address other : Nat) (queue : Option MessageQueue) :
    (kernel.setQueue address queue).queues other =
      if other = address then queue else kernel.queues other :=
  Function.update_apply ..

/-- Removing a process changes nothing but the run queues. -/
theorem removeProcess_frame (kernel : Kernel) (process : Nat) :
    kernel.removeProcess process =
      { kernel with runqueues := (kernel.removeProcess process).runqueues } := by
  unfold removeProcess
  split <;> rfl

/-- Cleaning up a process changes the memory and the record of that process only. -/
theorem cleanupProcessMemory_frame {kernel after : Kernel} {process : Nat}
    (cleaned : kernel.cleanupProcessMemory process = .ok after) :
    after = { kernel with memory := after.memory, records := after.records } := by
  obtain ⟨memory, -, rest⟩ := Run.bind_eq_ok.mp cleaned
  cases rest
  rfl

/--
What creating a process did.

It failed and left a process object that nothing refers to, or it was listed and added.
-/
theorem createProcess_cases {kernel after : Kernel} {address : Nat} {pid : Int}
    (created : kernel.createProcess address = .ok (pid, after)) :
    (pid = -1 ∧ after = { kernel with
      nextPid := after.nextPid
      memory := after.memory
      records := after.records
      processes := Function.update kernel.processes address ⟨.ready, 0⟩ }) ∨
    ∃ listed : Kernel, pid = kernel.nextPid ∧ after = listed.addProcess address ∧
      listed = { kernel with
        nextPid := listed.nextPid
        memory := listed.memory
        records := listed.records
        processes := Function.update kernel.processes address ⟨.ready, 0⟩
        processList := address :: kernel.processList
        currentProcess :=
          if kernel.currentProcess = 0 then address else kernel.currentProcess } := by
  unfold createProcess at created
  dsimp only at created
  split at created
  · obtain ⟨cleaned, cleanup, answer⟩ := Run.bind_eq_ok.mp created
    cases answer
    refine Or.inl ⟨rfl, ?_⟩
    rw [cleanupProcessMemory_frame cleanup]
  · cases created
    exact Or.inr ⟨_, rfl, rfl, rfl⟩

/--
What terminating a process did.

There was none, or it has left the list and its run queue, and the scheduler was called if it ran.
-/
theorem terminateProcess_cases {kernel after : Kernel} {pid : Int} {cpuId ticks : Nat}
    (terminated : kernel.terminateProcess pid cpuId ticks = .ok after) :
    (kernel.getProcess pid = none ∧ after = kernel) ∨
    ∃ process cleaned, kernel.getProcess pid = some process ∧
      { kernel.removeProcess process with
        processList := kernel.processList.erase process }.cleanupProcessMemory process =
        .ok cleaned ∧
      cleaned = { kernel with
        processList := kernel.processList.erase process
        runqueues := (kernel.removeProcess process).runqueues
        memory := cleaned.memory
        records := cleaned.records } ∧
      ((kernel.currentProcess ≠ process ∧ after = cleaned) ∨
        kernel.currentProcess = process ∧
          ((cleaned.processList.headD 0 = 0 ∧ after = { cleaned with currentProcess := 0 }) ∨
          (cleaned.processList.headD 0 ≠ 0 ∧
            { cleaned with currentProcess := cleaned.processList.headD 0 }.scheduleOnCpu cpuId
              ticks = .ok after))) := by
  unfold terminateProcess at terminated
  split at terminated
  · rename_i missing
    cases terminated
    exact Or.inl ⟨missing, rfl⟩
  · rename_i process found
    obtain ⟨cleaned, cleanup, rest⟩ := Run.bind_eq_ok.mp terminated
    have order : { kernel.removeProcess process with
        processList := kernel.processList.erase process } =
        { kernel with processList := kernel.processList.erase process }.removeProcess process := by
      -- Leaving the list and leaving the run queue touch different fields.
      unfold removeProcess
      split <;> rfl
    rw [← order] at cleanup
    have frame : cleaned = { kernel with
        processList := kernel.processList.erase process
        runqueues := (kernel.removeProcess process).runqueues
        memory := cleaned.memory
        records := cleaned.records } := by
      rw [cleanupProcessMemory_frame cleanup, removeProcess_frame]
    refine Or.inr ⟨process, cleaned, found, cleanup, frame, ?_⟩
    have current : cleaned.currentProcess = kernel.currentProcess := by rw [frame]
    rw [current] at rest
    by_cases running : kernel.currentProcess = process
    · rw [if_pos running] at rest
      dsimp only at rest
      -- The scheduler is called only if a process is left.
      by_cases head : cleaned.processList.headD 0 = 0
      · rw [if_neg (not_not.mpr head)] at rest
        cases rest
        exact Or.inr ⟨running, Or.inl ⟨head, by rw [head]⟩⟩
      · rw [if_pos head] at rest
        exact Or.inr ⟨running, Or.inr ⟨head, rest⟩⟩
    · rw [if_neg running] at rest
      cases rest
      exact Or.inl ⟨running, rfl⟩

/-- The first waiter of a queue waits for it. -/
def Wakes (kernel : Kernel) (queue : MessageQueue) (process : Nat) : Prop :=
  process ≠ 0 ∧ queue.waitingProcesses.head? = some process ∧
    (kernel.processes process).state = .waiting ∧
    (kernel.processes process).waitingOn = queue.address

/-- A send goes through: there is room, and the payload is not too large. -/
def Accepts (queue : MessageQueue) (size : Nat) : Prop :=
  queue.messages.length < maxMessagesPerQueue ∧ size ≤ maxMessageSize

/-- The first waiter of a queue unblocked by a message, before it is handed to the scheduler. -/
def unblock (kernel : Kernel) (address : Nat) (queue : MessageQueue) (message : IpcMessage)
    (process : Nat) (rest : List Nat) : Kernel :=
  { kernel.setQueue address (some { queue with
      messages := queue.messages ++ [message], waitingProcesses := rest }) with
    processes := Function.update kernel.processes process ⟨.ready, 0⟩ }

/-- What a send did: it was refused, it left a message and woke nobody, or it woke the first waiter. -/
theorem sendMessage_cases (kernel : Kernel) (address : Nat) (queue : MessageQueue) (sender : Int)
    (data : Nat → UInt8) (size ticks : Nat) (stack : Nat → UInt8) :
    (¬ Accepts queue size ∧
      kernel.sendMessage address queue sender data size ticks stack =
        (false, kernel.setQueue address (some queue))) ∨
    ∃ message, Accepts queue size ∧
      (((∀ process, ¬ kernel.Wakes queue process) ∧
        kernel.sendMessage address queue sender data size ticks stack =
          (true, kernel.setQueue address
            (some { queue with messages := queue.messages ++ [message] }))) ∨
      ∃ process rest, kernel.Wakes queue process ∧ queue.waitingProcesses = process :: rest ∧
        kernel.sendMessage address queue sender data size ticks stack =
          (true, (kernel.unblock address queue message process rest).addProcess process)) := by
  unfold sendMessage MessageQueue.sendMessage
  by_cases refused : queue.isFull = true ∨ maxMessageSize < size
  · refine Or.inl ⟨?_, by rw [if_pos refused]; rfl⟩
    rw [MessageQueue.isFull, decide_eq_true_eq] at refused
    unfold Accepts
    omega
  · rw [if_neg refused]
    rw [MessageQueue.isFull, decide_eq_true_eq, not_or, Nat.not_le, Nat.not_lt] at refused
    refine Or.inr ⟨⟨sender, ticks, size, MessageQueue.copyBytes stack data size⟩, refused, ?_⟩
    dsimp only [MessageQueue.wakeFirst]
    -- Only the head of the list of waiters is looked at.
    cases waiters : queue.waitingProcesses with
    | nil =>
      refine Or.inl ⟨?_, by simp [setQueue]⟩
      rintro process ⟨-, head, -⟩
      simp [waiters] at head
    | cons process rest =>
      dsimp only
      split_ifs with genuine
      · refine Or.inr ⟨process, rest, ⟨genuine.1, by simp [waiters], genuine.2⟩, rfl, ?_⟩
        rw [removeAt_zero]
        rfl
      · refine Or.inl ⟨?_, by simp [setQueue]⟩
        rintro other ⟨nonzero, head, state, waits⟩
        rw [waiters, List.head?_cons, Option.some_inj] at head
        subst head
        exact genuine ⟨nonzero, state, waits⟩

/-- The running process blocked on a queue, before the scheduler is called. -/
def block (kernel : Kernel) (address : Nat) (queue : MessageQueue) : Kernel :=
  { kernel.setQueue address (some { queue with
      waitingProcesses := queue.waitingProcesses ++ [kernel.currentProcess] }) with
    processes := Function.update kernel.processes kernel.currentProcess ⟨.waiting, queue.address⟩ }

/-- A receive blocks: it may wait, there is no message, and there is a running process. -/
def Blocks (kernel : Kernel) (queue : MessageQueue) (wait : Bool) : Prop :=
  wait = true ∧ queue.messages = [] ∧ kernel.currentProcess ≠ 0

/-- What a receive did: it returned with or without a message, or it blocked the running process. -/
theorem receiveMessage_cases {kernel after : Kernel} {address : Nat} {queue : MessageQueue}
    {wait : Bool} {cpuId ticks : Nat} {outcome : MessageQueue.ReceiveOutcome}
    (received : kernel.receiveMessage address queue wait cpuId ticks = .ok (outcome, after)) :
    (¬ kernel.Blocks queue wait ∧
      ∃ messages, after = kernel.setQueue address (some { queue with messages := messages })) ∨
    (kernel.Blocks queue wait ∧ (kernel.block address queue).scheduleOnCpu cpuId ticks = .ok after) := by
  unfold receiveMessage MessageQueue.receiveMessage MessageQueue.takeMessage at received
  cases queued : queue.messages with
  | cons message rest =>
    rw [queued] at received
    cases received
    refine Or.inl ⟨?_, _, rfl⟩
    rintro ⟨-, none, -⟩
    simp [queued] at none
  | nil =>
    rw [queued] at received
    dsimp only at received
    cases wait with
    | false =>
      cases received
      exact Or.inl ⟨by simp [Blocks], queue.messages, rfl⟩
    | true =>
      by_cases nobody : kernel.currentProcess = 0
      · simp only [nobody, Bool.not_true, Bool.false_eq_true, if_false, if_true] at received
        cases received
        exact Or.inl ⟨by simp [Blocks, nobody], queue.messages, rfl⟩
      · simp only [nobody, Bool.not_true, Bool.false_eq_true, if_false] at received
        obtain ⟨scheduled, done, answer⟩ := Run.bind_eq_ok.mp received
        cases answer
        exact Or.inr ⟨⟨rfl, queued, nobody⟩, done⟩

/-- The rest of a blocking receive changes nothing but the messages of the queue. -/
theorem resumeReceive_eq (kernel : Kernel) (address : Nat) (queue : MessageQueue) :
    (kernel.resumeReceive address queue).2 =
      kernel.setQueue address (some { queue with messages := queue.resumeReceive.2.messages }) := by
  unfold resumeReceive MessageQueue.resumeReceive MessageQueue.takeMessage
  cases queue.messages <;> rfl

end Pocky.Kernel
