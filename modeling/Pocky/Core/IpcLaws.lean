import Pocky.Core.Ipc

/-! Message queues lose, repeat and reorder nothing, whatever the interleaving of their users. -/

namespace Pocky

open MessageQueue

/-- The part of a message its receiver relies on: sender, size and the bytes that are meant. -/
structure Delivery where
  /-- The process that sent it. -/
  sender : Int
  /-- How many bytes it carries. -/
  size : Nat
  /-- Those bytes. -/
  bytes : List UInt8
  deriving Repr, DecidableEq

/-- What a sender hands over. -/
def Delivery.ofSend (sender : Int) (data : Nat → UInt8) (size : Nat) : Delivery :=
  ⟨sender, size, (List.range size).map data⟩

/-- What a receiver finds in a message. -/
def IpcMessage.delivery (message : IpcMessage) : Delivery :=
  .ofSend message.sender message.data message.size

/-- One queue, the processes around it, and what has been sent and delivered so far. -/
structure QueueSystem where
  /-- The queue. -/
  queue : MessageQueue
  /-- The processes' states. -/
  processes : Nat → Process
  /-- The processes inside the scheduler call of a blocking receive. -/
  suspended : List Nat
  /-- What successful sends handed over, in order. -/
  sent : List Delivery
  /-- What successful receives returned, in order. -/
  delivered : List Delivery

/-- The steps an interleaving is made of. -/
inductive QueueStep where
  /-- A send by any process, at any time, over any stack contents. -/
  | send (sender : Int) (data : Nat → UInt8) (size ticks : Nat) (stack : Nat → UInt8)
  /-- A receive by any process, up to its return or to the scheduler call. -/
  | receive (wait : Bool) (current : Nat)
  /-- The scheduler returns into the blocked receive of a process. -/
  | resume (process : Nat)
  /-- The rest of the kernel changes the processes. -/
  | reschedule (processes : Nat → Process)

namespace QueueSystem

/-- Writing down what a receive returned. -/
def recordReceive (system : QueueSystem) (current : Nat) : ReceiveOutcome → QueueSystem
  | .refused => system
  | .delivered message => { system with delivered := system.delivered ++ [message.delivery] }
  | .suspended => { system with suspended := system.suspended ++ [current] }

/-- One step; a process that is not suspended has no receive to resume. -/
def step (system : QueueSystem) : QueueStep → QueueSystem
  | .send sender data size ticks stack =>
    match system.queue.sendMessage system.processes sender data size ticks stack with
    | (true, queue, processes, _) =>
      { system with
        queue := queue
        processes := processes
        sent := system.sent ++ [.ofSend sender data size] }
    | (false, queue, processes, _) => { system with queue := queue, processes := processes }
  | .receive wait current =>
    match system.queue.receiveMessage system.processes wait current with
    | (outcome, queue, processes) =>
      { system with queue := queue, processes := processes }.recordReceive current outcome
  | .resume process =>
    if process ∈ system.suspended then
      match system.queue.resumeReceive with
      | (outcome, queue) =>
        { system with queue := queue, suspended := system.suspended.erase process }.recordReceive
          process outcome
    else system
  | .reschedule processes => { system with processes := processes }

/-- A whole interleaving. -/
def run (system : QueueSystem) (steps : List QueueStep) : QueueSystem := steps.foldl step system

/-- A fresh queue among any processes. -/
def start (address : Nat) (processes : Nat → Process) : QueueSystem :=
  ⟨createMessageQueue address, processes, [], [], []⟩

/--
The invariant of a run.

Everything sent has been delivered or is still queued, in order, and the queue is within bounds.
-/
structure Conserves (system : QueueSystem) : Prop where
  /-- What was sent is what was delivered followed by what is queued. -/
  conserved : system.sent = system.delivered ++ system.queue.messages.map IpcMessage.delivery
  /-- The queue is never overfull. -/
  bounded : system.queue.messages.length ≤ maxMessagesPerQueue

end QueueSystem

/-- Waking a waiter does not touch the messages. -/
theorem wakeFirst_messages (queue : MessageQueue) (processes : Nat → Process) :
    (queue.wakeFirst processes).1.messages = queue.messages := by
  unfold wakeFirst
  split
  · rfl
  · split <;> rfl

/-- The receiver of a copied message finds exactly what was handed over. -/
theorem delivery_copyBytes (sender : Int) (data stack : Nat → UInt8) (size ticks : Nat) :
    IpcMessage.delivery ⟨sender, ticks, size, copyBytes stack data size⟩ =
      .ofSend sender data size := by
  simp only [IpcMessage.delivery, Delivery.ofSend, Delivery.mk.injEq, true_and]
  apply List.map_congr_left
  intro index inside
  exact if_pos (List.mem_range.mp inside)

/-- A send either is refused and changes nothing, or appends one message. -/
theorem sendMessage_cases (queue : MessageQueue) (processes : Nat → Process) (sender : Int)
    (data : Nat → UInt8) (size ticks : Nat) (stack : Nat → UInt8) :
    ((maxMessagesPerQueue ≤ queue.messages.length ∨ maxMessageSize < size) ∧
      queue.sendMessage processes sender data size ticks stack = (false, queue, processes, none)) ∨
    (queue.messages.length < maxMessagesPerQueue ∧ size ≤ maxMessageSize ∧
      ∃ queue' processes' woken message,
        queue.sendMessage processes sender data size ticks stack =
          (true, queue', processes', woken) ∧
        queue'.messages = queue.messages ++ [message] ∧
        message.delivery = .ofSend sender data size) := by
  by_cases refused : queue.isFull ∨ maxMessageSize < size
  · refine Or.inl ⟨?_, if_pos refused⟩
    rw [isFull, decide_eq_true_eq] at refused
    exact refused
  · have accepted := refused
    rw [isFull, decide_eq_true_eq, not_or, Nat.not_le, Nat.not_lt] at accepted
    refine Or.inr ⟨accepted.1, accepted.2, ?_⟩
    refine ⟨_, _, _, ⟨sender, ticks, size, copyBytes stack data size⟩, if_neg refused, ?_,
      delivery_copyBytes sender data stack size ticks⟩
    exact wakeFirst_messages _ _

/-- Taking a message either finds none and changes nothing, or takes the oldest one. -/
theorem takeMessage_cases (queue : MessageQueue) :
    (queue.messages = [] ∧ queue.takeMessage = (none, queue)) ∨
    ∃ message rest, queue.messages = message :: rest ∧
      queue.takeMessage = (some message, { queue with messages := rest }) := by
  unfold takeMessage
  split
  · rename_i empty
    exact Or.inl ⟨empty, rfl⟩
  · rename_i message rest queued
    refine Or.inr ⟨message, rest, queued, ?_⟩
    rw [queued, removeAt_zero]

/-- A receive delivers the oldest message, or leaves the messages alone. -/
theorem receiveMessage_cases (queue : MessageQueue) (processes : Nat → Process) (wait : Bool)
    (current : Nat) :
    ∃ outcome queue' processes',
      queue.receiveMessage processes wait current = (outcome, queue', processes') ∧
      ((∃ message rest, outcome = .delivered message ∧ queue.messages = message :: rest ∧
          queue'.messages = rest) ∨
        ((outcome = .refused ∨ outcome = .suspended) ∧ queue'.messages = queue.messages)) := by
  unfold receiveMessage
  rcases takeMessage_cases queue with ⟨-, taken⟩ | ⟨message, rest, queued, taken⟩
  · simp only [taken]
    split
    · exact ⟨_, _, _, rfl, Or.inr ⟨Or.inl rfl, rfl⟩⟩
    · split
      · exact ⟨_, _, _, rfl, Or.inr ⟨Or.inl rfl, rfl⟩⟩
      · exact ⟨_, _, _, rfl, Or.inr ⟨Or.inr rfl, rfl⟩⟩
  · simp only [taken]
    exact ⟨_, _, _, rfl, Or.inl ⟨message, rest, rfl, queued, rfl⟩⟩

/-- A resumed receive delivers the oldest message, or fails and changes nothing. -/
theorem resumeReceive_cases (queue : MessageQueue) :
    ∃ outcome queue', queue.resumeReceive = (outcome, queue') ∧
      ((∃ message rest, outcome = .delivered message ∧ queue.messages = message :: rest ∧
          queue'.messages = rest) ∨
        ((outcome = .refused ∨ outcome = .suspended) ∧ queue'.messages = queue.messages)) := by
  unfold resumeReceive
  rcases takeMessage_cases queue with ⟨-, taken⟩ | ⟨message, rest, queued, taken⟩
  · simp only [taken]
    exact ⟨_, _, rfl, Or.inr ⟨Or.inl rfl, rfl⟩⟩
  · simp only [taken]
    exact ⟨_, _, rfl, Or.inl ⟨message, rest, rfl, queued, rfl⟩⟩

namespace QueueSystem

/-- Recording the outcome of a receive keeps the invariant. -/
theorem Conserves.recordReceive {system after : QueueSystem} (conserves : system.Conserves)
    (sent : after.sent = system.sent) (delivered : after.delivered = system.delivered)
    (current : Nat) {outcome : ReceiveOutcome}
    (effect : (∃ message rest, outcome = .delivered message ∧
        system.queue.messages = message :: rest ∧ after.queue.messages = rest) ∨
      ((outcome = .refused ∨ outcome = .suspended) ∧
        after.queue.messages = system.queue.messages)) :
    (after.recordReceive current outcome).Conserves := by
  obtain ⟨conserved, bounded⟩ := conserves
  rcases effect with ⟨message, rest, rfl, queued, left⟩ | ⟨silent, same⟩
  · -- The message moves from the front of the queue to the end of the deliveries.
    rw [queued] at conserved bounded
    constructor
    · simp [QueueSystem.recordReceive, sent, delivered, left, conserved]
    · simp only [QueueSystem.recordReceive, left, List.length_cons] at bounded ⊢
      omega
  · have kept : after.Conserves :=
      ⟨by rw [sent, delivered, same, conserved], by rw [same]; exact bounded⟩
    rcases silent with rfl | rfl
    · exact kept
    · exact ⟨kept.conserved, kept.bounded⟩

/-- Every step keeps the invariant. -/
theorem Conserves.step {system : QueueSystem} (conserves : system.Conserves) (action : QueueStep) :
    (system.step action).Conserves := by
  cases action with
  | send sender data size ticks stack =>
    unfold QueueSystem.step
    rcases sendMessage_cases system.queue system.processes sender data size ticks stack with
      ⟨-, refused⟩ | ⟨room, -, queue', processes', woken, message, accepted, messages, carried⟩
    · simp only [refused]
      exact ⟨conserves.conserved, conserves.bounded⟩
    · simp only [accepted]
      constructor
      · simp [messages, carried, conserves.conserved]
      · simp only [messages, List.length_append, List.length_singleton]
        omega
  | receive wait current =>
    obtain ⟨outcome, queue', processes', received, effect⟩ :=
      receiveMessage_cases system.queue system.processes wait current
    simp only [QueueSystem.step, received]
    refine conserves.recordReceive ?_ ?_ current effect <;> rfl
  | resume process =>
    unfold QueueSystem.step
    by_cases waiting : process ∈ system.suspended
    · obtain ⟨outcome, queue', resumed, effect⟩ := resumeReceive_cases system.queue
      simp only [if_pos waiting, resumed]
      refine conserves.recordReceive ?_ ?_ process effect <;> rfl
    · simp only [if_neg waiting]
      exact conserves
  | reschedule processes => exact ⟨conserves.conserved, conserves.bounded⟩

/-- The invariant holds after every interleaving. -/
theorem run_conserves {system : QueueSystem} (conserves : system.Conserves)
    (steps : List QueueStep) : (system.run steps).Conserves := by
  induction steps generalizing system with
  | nil => exact conserves
  | cons action steps ih => exact ih (conserves.step action)

/-- A fresh queue has sent, delivered and queued nothing. -/
theorem start_conserves (address : Nat) (processes : Nat → Process) :
    (start address processes).Conserves :=
  ⟨rfl, Nat.zero_le _⟩

end QueueSystem

/--
Message queues are first in first out and lossless.

After every interleaving, what was delivered is a prefix of what was sent.
The queue holds at most sixty-four messages.
A send fails exactly when sixty-four are queued or its data is too large, and then changes nothing.
-/
theorem messageQueue_run (address : Nat) (processes : Nat → Process) (steps : List QueueStep) :
    let system := (QueueSystem.start address processes).run steps
    system.delivered <+: system.sent ∧
    system.queue.messages.length ≤ 64 ∧
    ∀ sender data size ticks stack,
      let answer := system.queue.sendMessage system.processes sender data size ticks stack
      (answer.1 = false ↔ system.queue.messages.length = 64 ∨ 1024 < size) ∧
      (answer.1 = false → answer.2 = (system.queue, system.processes, none)) := by
  intro system
  obtain ⟨conserved, bounded⟩ :=
    QueueSystem.run_conserves (QueueSystem.start_conserves address processes) steps
  refine ⟨⟨_, conserved.symm⟩, bounded, ?_⟩
  intro sender data size ticks stack
  rcases sendMessage_cases system.queue system.processes sender data size ticks stack with
    ⟨cause, refused⟩ | ⟨room, small, _, _, _, _, accepted, -⟩
  · simp only [refused, true_iff, implies_true, and_true]
    exact cause.imp_left (Nat.le_antisymm bounded)
  · simp only [accepted, Bool.true_eq_false, false_iff, false_implies, and_true]
    simp only [maxMessagesPerQueue, maxMessageSize] at room small
    omega

end Pocky
