import Pocky.Lib.Vector

/-! Message queues between processes: bounded, first in first out, with blocking receivers. -/

namespace Pocky

/-- The largest payload of one message. -/
def maxMessageSize : Nat := 1024

/-- How many messages one queue holds. -/
def maxMessagesPerQueue : Nat := 64

/-- One queued message; the bytes behind `size` are whatever the sender's stack held. -/
structure IpcMessage where
  /-- The process that sent it. -/
  sender : Int
  /-- The tick count at the time of sending. -/
  timestamp : Nat
  /-- How many bytes of data are meant. -/
  size : Nat
  /-- The data buffer. -/
  data : Nat → UInt8

/-- What a process is doing. -/
inductive ProcessState where
  /-- On a processor. -/
  | running
  /-- Created and not started. -/
  | stopped
  /-- Ended and not yet collected. -/
  | zombie
  /-- Waiting for a processor. -/
  | ready
  /-- Waiting for a resource. -/
  | waiting
  deriving Repr, DecidableEq

/-- The fields of a process that message passing reads and writes. -/
structure Process where
  /-- What the process is doing. -/
  state : ProcessState
  /-- The resource it waits for, zero for none. -/
  waitingOn : Nat
  deriving Repr, DecidableEq

/-- A message queue; processes and queues are named by their addresses, zero being null. -/
structure MessageQueue where
  /-- Where the queue itself lies. -/
  address : Nat
  /-- The queued messages, oldest first. -/
  messages : List IpcMessage
  /-- The processes blocked in a receive, longest waiting first. -/
  waitingProcesses : List Nat

/-- A queue as its constructor leaves it. -/
def createMessageQueue (address : Nat) : MessageQueue := ⟨address, [], []⟩

namespace MessageQueue

/-- No further message fits. -/
def isFull (queue : MessageQueue) : Bool := maxMessagesPerQueue ≤ queue.messages.length

/-- How many messages are queued. -/
def getMessageCount (queue : MessageQueue) : Nat := queue.messages.length

/-- Copying the first `size` bytes of a source over a buffer. -/
def copyBytes (buffer source : Nat → UInt8) (size : Nat) : Nat → UInt8 :=
  fun index => if index < size then source index else buffer index

/--
Waking the longest-waiting process after a send.

The second answer is the process handed to the scheduler, if any.
A first entry that no longer waits for this queue stays in the list and hides those behind it.
-/
def wakeFirst (queue : MessageQueue) (processes : Nat → Process) :
    MessageQueue × (Nat → Process) × Option Nat :=
  match queue.waitingProcesses with
  | [] => (queue, processes, none)
  | waiting :: _ =>
    if waiting ≠ 0 ∧ (processes waiting).state = .waiting ∧
        (processes waiting).waitingOn = queue.address then
      ({ queue with waitingProcesses := removeAt queue.waitingProcesses 0 },
        Function.update processes waiting ⟨.ready, 0⟩, some waiting)
    else (queue, processes, none)

/-- Sending: whether it succeeded, the queue, the processes and the process handed to the scheduler. -/
def sendMessage (queue : MessageQueue) (processes : Nat → Process) (sender : Int)
    (data : Nat → UInt8) (size ticks : Nat) (stack : Nat → UInt8) :
    Bool × MessageQueue × (Nat → Process) × Option Nat :=
  if queue.isFull ∨ maxMessageSize < size then (false, queue, processes, none)
  else
    let message : IpcMessage := ⟨sender, ticks, size, copyBytes stack data size⟩
    (true, { queue with messages := queue.messages ++ [message] }.wakeFirst processes)

/-- Copying out the oldest message and shifting the others down. -/
def takeMessage (queue : MessageQueue) : Option IpcMessage × MessageQueue :=
  match queue.messages with
  | [] => (none, queue)
  | message :: _ => (some message, { queue with messages := removeAt queue.messages 0 })

/-- How the part of a receive up to the scheduler call ends. -/
inductive ReceiveOutcome where
  /-- The receive has returned false. -/
  | refused
  /-- The receive has returned true with this message. -/
  | delivered (message : IpcMessage)
  /-- The calling process has been put on the waiting list and calls the scheduler. -/
  | suspended

/-- A receive up to its return or up to the scheduler call, whichever comes first. -/
def receiveMessage (queue : MessageQueue) (processes : Nat → Process) (wait : Bool)
    (current : Nat) : ReceiveOutcome × MessageQueue × (Nat → Process) :=
  match queue.takeMessage with
  | (some message, queue) => (.delivered message, queue, processes)
  | (none, queue) =>
    if !wait then (.refused, queue, processes)
    else if current = 0 then (.refused, queue, processes)
    else (.suspended, { queue with waitingProcesses := queue.waitingProcesses ++ [current] },
      Function.update processes current ⟨.waiting, queue.address⟩)

/-- The rest of a blocking receive, once the scheduler has returned to it. -/
def resumeReceive (queue : MessageQueue) : ReceiveOutcome × MessageQueue :=
  match queue.takeMessage with
  | (some message, queue) => (.delivered message, queue)
  | (none, queue) => (.refused, queue)

end MessageQueue

end Pocky
