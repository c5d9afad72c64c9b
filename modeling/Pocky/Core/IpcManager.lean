import Pocky.Core.Ipc

/-! The table of message queues: names, identifiers, and the calls that go through it. -/

namespace Pocky

/-- A message queue with the process that created it and its name. -/
structure NamedQueue where
  /-- The process that created it. -/
  owner : Int
  /-- Its name, without the terminating zero byte. -/
  name : List UInt8
  /-- The queue itself. -/
  queue : MessageQueue

/-- A number stored in 32 bits with a sign. -/
def asInt32 (number : Int) : Int := number.bmod (2 ^ 32)

/-- Destroying a queue wakes the processes that wait for it, without telling the scheduler. -/
def MessageQueue.destroy (queue : MessageQueue) (processes : Nat → Process) : Nat → Process :=
  queue.waitingProcesses.foldl (fun processes process =>
    if (processes process).state = .waiting ∧ (processes process).waitingOn = queue.address then
      Function.update processes process ⟨.ready, 0⟩
    else processes) processes

/-- The table of queues; a destroyed queue leaves an empty slot. -/
structure IpcManager where
  /-- The slots. -/
  messageQueues : List (Option NamedQueue)
  /-- The identifier of the next slot. -/
  nextQueueId : Int

namespace IpcManager

/-- The table as its constructor leaves it. -/
def empty : IpcManager := ⟨[], 1⟩

/-- Whether a slot holds a queue of a name. -/
def hasName (name : List UInt8) (slot : Option NamedQueue) : Bool :=
  match slot with
  | some queue => queue.name == name
  | none => false

/-- Whether a slot holds the queue at an address. -/
def isAt (address : Nat) (slot : Option NamedQueue) : Bool :=
  match slot with
  | some queue => queue.queue.address == address
  | none => false

/-- Creating a queue in the first empty slot, or in a new one. -/
def createMessageQueue (manager : IpcManager) (owner : Int) (name : List UInt8) (address : Nat) :
    Int × IpcManager :=
  if manager.messageQueues.any (hasName name) then (-1, manager)
  else
    let queue : NamedQueue := ⟨owner, name, Pocky.createMessageQueue address⟩
    match manager.messageQueues.findIdx? (·.isNone) with
    | some index =>
      (asInt32 (index + 1),
        { manager with messageQueues := manager.messageQueues.set index (some queue) })
    | none =>
      (manager.nextQueueId,
        { messageQueues := manager.messageQueues ++ [some queue]
          nextQueueId := asInt32 (manager.nextQueueId + 1) })

/-- The queue of an identifier, after the checks that every call makes. -/
def lookup (manager : IpcManager) (id : Int) : Option NamedQueue :=
  if id ≤ 0 ∨ manager.nextQueueId ≤ id ∨ asInt32 manager.messageQueues.length < id then none
  else (manager.messageQueues[(id - 1).toNat]?).join

/-- Replacing what the slot of an identifier holds. -/
def replace (manager : IpcManager) (id : Int) (slot : Option NamedQueue) : IpcManager :=
  { manager with messageQueues := manager.messageQueues.set (id - 1).toNat slot }

/-- Destroying a queue. -/
def destroyMessageQueue (manager : IpcManager) (processes : Nat → Process) (id : Int) :
    Bool × IpcManager × (Nat → Process) :=
  match manager.lookup id with
  | none => (false, manager, processes)
  | some queue => (true, manager.replace id none, queue.queue.destroy processes)

/-- The identifier of the first queue with a name. -/
def openMessageQueue (manager : IpcManager) (name : List UInt8) : Int :=
  match manager.messageQueues.findIdx? (hasName name) with
  | some index => asInt32 (index + 1)
  | none => -1

/-- Sending to the queue of an identifier. -/
def sendMessage (manager : IpcManager) (processes : Nat → Process) (queueId sender : Int)
    (data : Nat → UInt8) (size ticks : Nat) (stack : Nat → UInt8) :
    Bool × IpcManager × (Nat → Process) :=
  match manager.lookup queueId with
  | none => (false, manager, processes)
  | some queue =>
    match queue.queue.sendMessage processes sender data size ticks stack with
    | (told, sent, processes, _) =>
      (told, manager.replace queueId (some { queue with queue := sent }), processes)

/-- Receiving from the queue of an identifier, up to the return or to the scheduler call. -/
def receiveMessage (manager : IpcManager) (processes : Nat → Process) (queueId : Int) (wait : Bool)
    (current : Nat) : MessageQueue.ReceiveOutcome × IpcManager × (Nat → Process) :=
  match manager.lookup queueId with
  | none => (.refused, manager, processes)
  | some queue =>
    match queue.queue.receiveMessage processes wait current with
    | (outcome, received, processes) =>
      (outcome, manager.replace queueId (some { queue with queue := received }), processes)

/--
The rest of a blocking receive, once the scheduler has returned to it.

It holds the queue by address and does not look at the table again.
There is no answer where the queue is gone, as the code then reads freed memory.
-/
def resumeReceive (manager : IpcManager) (address : Nat) :
    Option (MessageQueue.ReceiveOutcome × IpcManager) :=
  match manager.messageQueues.findIdx? (isAt address), manager.messageQueues.find? (isAt address) with
  | some index, some (some queue) =>
    match queue.queue.resumeReceive with
    | (outcome, received) =>
      some (outcome, { manager with
        messageQueues := manager.messageQueues.set index (some { queue with queue := received }) })
  | _, _ => none

end IpcManager

end Pocky
