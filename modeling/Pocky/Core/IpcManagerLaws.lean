import Mathlib.Data.Int.Init
import Pocky.Core.IpcManager

/-! The table of message queues is a finite map from identifiers to live queues. -/

namespace Pocky

open MessageQueue

/-- A call on the table, or a step of the kernel around it. -/
inductive IpcCall where
  /-- Creating a queue, which is allocated at this address. -/
  | create (owner : Int) (name : List UInt8) (address : Nat)
  /-- Destroying a queue. -/
  | destroy (id : Int)
  /-- Looking a queue up by its name. -/
  | openQueue (name : List UInt8)
  /-- Sending, at any time and over any stack contents. -/
  | send (id sender : Int) (data : Nat → UInt8) (size ticks : Nat) (stack : Nat → UInt8)
  /-- Receiving, up to the return or to the scheduler call. -/
  | receive (id : Int) (wait : Bool) (current : Nat)
  /-- The scheduler returns into a receive that is blocked on the queue at an address. -/
  | resume (address : Nat)
  /-- The rest of the kernel changes the processes. -/
  | reschedule (processes : Nat → Process)

/-- What a call returns. -/
inductive IpcAnswer where
  /-- The identifier a creation returned. -/
  | created (id : Int)
  /-- The identifier a lookup returned. -/
  | opened (id : Int)
  /-- Whether a destruction or a send succeeded. -/
  | told (success : Bool)
  /-- How a receive went. -/
  | received (outcome : ReceiveOutcome)
  /-- A step of the kernel returns nothing. -/
  | silent

/-- A creation that succeeded. -/
def IpcAnswer.isCreation : IpcAnswer → Bool
  | .created id => 0 < id
  | _ => false

/-- The table and the processes around it. -/
structure IpcSystem where
  /-- The table. -/
  manager : IpcManager
  /-- The processes. -/
  processes : Nat → Process

/-- One call; it has no result where the code reads freed memory. -/
def IpcSystem.step (system : IpcSystem) : IpcCall → Option (IpcAnswer × IpcSystem)
  | .create owner name address =>
    match system.manager.createMessageQueue owner name address with
    | (id, manager) => some (.created id, { system with manager := manager })
  | .destroy id =>
    match system.manager.destroyMessageQueue system.processes id with
    | (told, manager, processes) => some (.told told, ⟨manager, processes⟩)
  | .openQueue name => some (.opened (system.manager.openMessageQueue name), system)
  | .send id sender data size ticks stack =>
    match system.manager.sendMessage system.processes id sender data size ticks stack with
    | (told, manager, processes) => some (.told told, ⟨manager, processes⟩)
  | .receive id wait current =>
    match system.manager.receiveMessage system.processes id wait current with
    | (outcome, manager, processes) => some (.received outcome, ⟨manager, processes⟩)
  | .resume address =>
    match system.manager.resumeReceive address with
    | some (outcome, manager) => some (.received outcome, { system with manager := manager })
    | none => none
  | .reschedule processes => some (.silent, { system with processes := processes })

/-- A sequence of calls with their answers. -/
def IpcSystem.run (system : IpcSystem) : List IpcCall → Option (List IpcAnswer × IpcSystem)
  | [] => some ([], system)
  | call :: calls =>
    match system.step call with
    | none => none
    | some (answer, next) =>
      match next.run calls with
      | none => none
      | some (answers, final) => some (answer :: answers, final)

/-- The abstract table: which queue an identifier names. -/
abbrev QueueMap := Int → Option NamedQueue

/-- The name belongs to a live queue. -/
def QueueMap.Taken (queues : QueueMap) (name : List UInt8) : Prop :=
  ∃ id queue, queues id = some queue ∧ queue.name = name

/-- No two live queues share a name. -/
def QueueMap.NamesDistinct (queues : QueueMap) : Prop :=
  ∀ first second queue other, queues first = some queue → queues second = some other →
    queue.name = other.name → first = second

/-- What a call may do to the abstract table and to the processes, and what it may answer. -/
inductive MapStep : QueueMap → (Nat → Process) → IpcCall → IpcAnswer → QueueMap →
    (Nat → Process) → Prop where
  /-- A taken name is refused. -/
  | createTaken (queues : QueueMap) (processes : Nat → Process) (owner : Int) (name : List UInt8)
      (address : Nat) (taken : queues.Taken name) :
      MapStep queues processes (.create owner name address) (.created (-1)) queues processes
  /-- A new name gets a positive identifier that names no live queue. -/
  | createNew (queues : QueueMap) (processes : Nat → Process) (owner : Int) (name : List UInt8)
      (address : Nat) (id : Int) (untaken : ¬ queues.Taken name) (positive : 0 < id)
      (unused : queues id = none) :
      MapStep queues processes (.create owner name address) (.created id)
        (Function.update queues id (some ⟨owner, name, createMessageQueue address⟩)) processes
  /-- A lookup finds the live queue of that name. -/
  | openLive (queues : QueueMap) (processes : Nat → Process) (id : Int) (queue : NamedQueue)
      (live : queues id = some queue) :
      MapStep queues processes (.openQueue queue.name) (.opened id) queues processes
  /-- A lookup of a name no live queue has. -/
  | openMissing (queues : QueueMap) (processes : Nat → Process) (name : List UInt8)
      (untaken : ¬ queues.Taken name) :
      MapStep queues processes (.openQueue name) (.opened (-1)) queues processes
  /-- Destroying a live queue. -/
  | destroyLive (queues : QueueMap) (processes : Nat → Process) (id : Int) (queue : NamedQueue)
      (live : queues id = some queue) :
      MapStep queues processes (.destroy id) (.told true) (Function.update queues id none)
        (queue.queue.destroy processes)
  /-- Sending to a live queue. -/
  | sendLive (queues : QueueMap) (processes : Nat → Process) (id sender : Int)
      (data : Nat → UInt8) (size ticks : Nat) (stack : Nat → UInt8) (queue : NamedQueue)
      (told : Bool) (sent : MessageQueue) (after : Nat → Process) (woken : Option Nat)
      (live : queues id = some queue)
      (answer : queue.queue.sendMessage processes sender data size ticks stack =
        (told, sent, after, woken)) :
      MapStep queues processes (.send id sender data size ticks stack) (.told told)
        (Function.update queues id (some { queue with queue := sent })) after
  /-- Receiving from a live queue. -/
  | receiveLive (queues : QueueMap) (processes : Nat → Process) (id : Int) (wait : Bool)
      (current : Nat) (queue : NamedQueue) (outcome : ReceiveOutcome) (received : MessageQueue)
      (after : Nat → Process) (live : queues id = some queue)
      (answer : queue.queue.receiveMessage processes wait current = (outcome, received, after)) :
      MapStep queues processes (.receive id wait current) (.received outcome)
        (Function.update queues id (some { queue with queue := received })) after
  /-- Resuming a receive on a live queue. -/
  | resumeLive (queues : QueueMap) (processes : Nat → Process) (id : Int) (queue : NamedQueue)
      (outcome : ReceiveOutcome) (received : MessageQueue) (live : queues id = some queue)
      (answer : queue.queue.resumeReceive = (outcome, received)) :
      MapStep queues processes (.resume queue.queue.address) (.received outcome)
        (Function.update queues id (some { queue with queue := received })) processes
  /-- Destroying an identifier that names no live queue. -/
  | destroyMissing (queues : QueueMap) (processes : Nat → Process) (id : Int)
      (missing : queues id = none) :
      MapStep queues processes (.destroy id) (.told false) queues processes
  /-- Sending to an identifier that names no live queue. -/
  | sendMissing (queues : QueueMap) (processes : Nat → Process) (id sender : Int)
      (data : Nat → UInt8) (size ticks : Nat) (stack : Nat → UInt8) (missing : queues id = none) :
      MapStep queues processes (.send id sender data size ticks stack) (.told false) queues processes
  /-- Receiving from an identifier that names no live queue. -/
  | receiveMissing (queues : QueueMap) (processes : Nat → Process) (id : Int) (wait : Bool)
      (current : Nat) (missing : queues id = none) :
      MapStep queues processes (.receive id wait current) (.received .refused) queues processes
  /-- The rest of the kernel does not touch the table. -/
  | reschedule (queues : QueueMap) (processes after : Nat → Process) :
      MapStep queues processes (.reschedule after) .silent queues after

/-- A sequence of abstract steps. -/
inductive MapRun : QueueMap → (Nat → Process) → List IpcCall → List IpcAnswer → QueueMap →
    (Nat → Process) → Prop where
  /-- No call changes nothing. -/
  | done (queues : QueueMap) (processes : Nat → Process) :
      MapRun queues processes [] [] queues processes
  /-- One call and then the others. -/
  | more {queues next final : QueueMap} {processes after last : Nat → Process} {call : IpcCall}
      {calls : List IpcCall} {answer : IpcAnswer} {answers : List IpcAnswer}
      (first : MapStep queues processes call answer next after)
      (rest : MapRun next after calls answers final last) :
      MapRun queues processes (call :: calls) (answer :: answers) final last

namespace IpcManager

/-- The live queues of a table, by identifier. -/
def live (manager : IpcManager) : QueueMap := fun id =>
  if 0 < id then (manager.messageQueues[(id - 1).toNat]?).join else none

/-- The table as every sequence of calls leaves it. -/
structure WellNumbered (manager : IpcManager) : Prop where
  /-- The counter is one more than the number of slots. -/
  counted : manager.nextQueueId = manager.messageQueues.length + 1
  /-- No two live queues share a name. -/
  distinct : manager.live.NamesDistinct

/-- A slot and its identifier. -/
theorem live_slot (manager : IpcManager) (index : Nat) :
    manager.live (index + 1) = (manager.messageQueues[index]?).join := by
  simp [live, show (0 : Int) < index + 1 by omega]

/-- A live queue lies in the slot before its identifier. -/
theorem live_eq_some {manager : IpcManager} {id : Int} {queue : NamedQueue}
    (named : manager.live id = some queue) :
    ∃ index : Nat, id = index + 1 ∧ index < manager.messageQueues.length ∧
      manager.messageQueues[index]? = some (some queue) := by
  -- Only positive identifiers name anything, and these are the successors.
  have positive : 0 < id := by
    by_contra outside
    simp [live, outside] at named
  obtain ⟨index, rfl⟩ : ∃ index : Nat, id = index + 1 := ⟨(id - 1).toNat, by omega⟩
  rw [live_slot, Option.join_eq_some_iff] at named
  exact ⟨index, rfl, (List.getElem?_eq_some_iff.mp named).1, named⟩

/-- Filling or emptying a slot updates the map at one identifier. -/
theorem live_set (manager : IpcManager) (index : Nat) (slot : Option NamedQueue) (next : Int)
    (inside : index < manager.messageQueues.length) :
    live ⟨manager.messageQueues.set index slot, next⟩ =
      Function.update manager.live (index + 1) slot := by
  funext id
  by_cases same : id = index + 1
  · subst same
    rw [live_slot, Function.update_self, List.getElem?_set_self inside]
    rfl
  · -- Another positive identifier reads another slot.
    rw [Function.update_of_ne same]
    unfold live
    split
    · rw [List.getElem?_set_ne (by omega)]
    · rfl

/-- A new slot at the end updates the map at the next identifier. -/
theorem live_append (manager : IpcManager) (queue : NamedQueue) (next : Int) :
    live ⟨manager.messageQueues ++ [some queue], next⟩ =
      Function.update manager.live (manager.messageQueues.length + 1) (some queue) := by
  funext id
  by_cases same : id = manager.messageQueues.length + 1
  · subst same
    rw [live_slot, Function.update_self, List.getElem?_concat_length]
    rfl
  · rw [Function.update_of_ne same]
    unfold live
    split
    · -- The slot is an old one, or lies behind both tables.
      rcases Nat.lt_or_ge (id - 1).toNat manager.messageQueues.length with old | beyond
      · rw [List.getElem?_append_left old]
      · rw [List.getElem?_eq_none (by simp only [List.length_append, List.length_singleton]; omega),
          List.getElem?_eq_none beyond]
    · rfl

/-- A name is taken when some slot has it. -/
theorem any_hasName_iff (manager : IpcManager) (name : List UInt8) :
    manager.messageQueues.any (hasName name) = true ↔ manager.live.Taken name := by
  rw [List.any_eq_true]
  constructor
  · -- A slot that matches is not empty and lies at some index.
    rintro ⟨slot, held, matching⟩
    obtain ⟨index, found⟩ := List.mem_iff_getElem?.mp held
    match slot, matching with
    | some queue, matching =>
      refine ⟨index + 1, queue, ?_, by simpa [hasName] using matching⟩
      rw [live_slot, found]
      rfl
  · rintro ⟨id, queue, named, rfl⟩
    obtain ⟨index, -, -, found⟩ := live_eq_some named
    exact ⟨some queue, List.mem_of_getElem? found, by simp [hasName]⟩

end IpcManager

/-- A small number fits in 32 bits with its sign. -/
theorem asInt32_of_small {number : Int} (natural : 0 ≤ number) (small : number < 2 ^ 31) :
    asInt32 number = number := by
  rw [asInt32, Int.bmod_eq_emod_of_lt] <;> omega

namespace IpcManager

/-- The checks of a call let exactly the live identifiers through. -/
theorem WellNumbered.lookup_eq {manager : IpcManager} (numbered : manager.WellNumbered)
    (few : manager.messageQueues.length < 2 ^ 31 - 1) (id : Int) :
    manager.lookup id = manager.live id := by
  -- Both bounds of the check are the number of slots.
  have sized : asInt32 manager.messageQueues.length = manager.messageQueues.length :=
    asInt32_of_small (by omega) (by omega)
  have counted := numbered.counted
  rw [lookup, sized]
  unfold live
  split_ifs with refused positive positive
  · rw [List.getElem?_eq_none (by omega)]
    rfl
  · rfl
  · rfl
  · omega

/-- Changing a live queue in place keeps its name, so names stay distinct. -/
theorem namesDistinct_replace {queues : QueueMap} {id : Int} {queue : NamedQueue}
    (distinct : queues.NamesDistinct) (named : queues id = some queue) (after : MessageQueue) :
    QueueMap.NamesDistinct (Function.update queues id (some { queue with queue := after })) := by
  -- Every queue of the new map has the name of the queue of the old map at its identifier.
  have back : ∀ position held,
      Function.update queues id (some { queue with queue := after }) position = some held →
      ∃ old, queues position = some old ∧ old.name = held.name := by
    intro position held found
    by_cases same : position = id
    · subst same
      rw [Function.update_self, Option.some_inj] at found
      exact ⟨queue, named, by rw [← found]⟩
    · rw [Function.update_of_ne same] at found
      exact ⟨held, found, rfl⟩
  intro first second held other inFirst inSecond sameName
  obtain ⟨old, oldFirst, oldName⟩ := back first held inFirst
  obtain ⟨oldOther, oldSecond, otherName⟩ := back second other inSecond
  exact distinct first second old oldOther oldFirst oldSecond
    (oldName.trans (sameName.trans otherName.symm))

/-- Removing a queue keeps the names distinct. -/
theorem namesDistinct_remove {queues : QueueMap} (id : Int) (distinct : queues.NamesDistinct) :
    QueueMap.NamesDistinct (Function.update queues id none) := by
  have back : ∀ position held,
      Function.update queues id none position = some held → queues position = some held := by
    intro position held found
    by_cases same : position = id
    · rw [same, Function.update_self] at found
      cases found
    · rwa [Function.update_of_ne same] at found
  intro first second held other inFirst inSecond
  exact distinct first second held other (back first held inFirst) (back second other inSecond)

/-- Adding a queue under an untaken name keeps the names distinct. -/
theorem namesDistinct_insert {queues : QueueMap} {id : Int} {queue : NamedQueue}
    (distinct : queues.NamesDistinct) (untaken : ¬ queues.Taken queue.name) :
    QueueMap.NamesDistinct (Function.update queues id (some queue)) := by
  intro first second held other inFirst inSecond sameName
  rw [Function.update_apply] at inFirst inSecond
  -- A clash between the new queue and an old one would make the name taken.
  split_ifs at inFirst inSecond with atFirst atSecond atSecond
  · exact atFirst.trans atSecond.symm
  · cases inFirst
    exact absurd ⟨second, other, inSecond, sameName.symm⟩ untaken
  · cases inSecond
    exact absurd ⟨first, held, inFirst, sameName⟩ untaken
  · exact distinct first second held other inFirst inSecond sameName

/-- A table that replaced the queue of one identifier is well numbered and has the updated map. -/
theorem WellNumbered.replace {manager : IpcManager} (numbered : manager.WellNumbered) {id : Int}
    {queue : NamedQueue} (named : manager.live id = some queue) (slot : Option NamedQueue)
    (distinct : QueueMap.NamesDistinct (Function.update manager.live id slot)) :
    (manager.replace id slot).WellNumbered ∧
      (manager.replace id slot).live = Function.update manager.live id slot := by
  obtain ⟨index, rfl, inside, -⟩ := live_eq_some named
  have slotIndex : ((index : Int) + 1 - 1).toNat = index := by omega
  have updated : (manager.replace (index + 1) slot).live =
      Function.update manager.live (index + 1) slot := by
    rw [IpcManager.replace, slotIndex]
    exact live_set manager index slot manager.nextQueueId inside
  refine ⟨⟨?_, by rwa [updated]⟩, updated⟩
  simp [IpcManager.replace, numbered.counted]

/-- What one call leaves: a well-numbered table, no longer than its creations, and its step. -/
structure Refines (system : IpcSystem) (call : IpcCall) (answer : IpcAnswer) (next : IpcSystem) :
    Prop where
  /-- The table stays well numbered. -/
  numbered : next.manager.WellNumbered
  /-- Only a creation adds a slot. -/
  bounded : next.manager.messageQueues.length ≤
    system.manager.messageQueues.length + if answer.isCreation then 1 else 0
  /-- The call is a step of the abstract table. -/
  mapped : MapStep system.manager.live system.processes call answer next.manager.live next.processes

/-- Creating a queue is a step of the abstract table. -/
theorem WellNumbered.create {manager : IpcManager} (numbered : manager.WellNumbered)
    (processes : Nat → Process) (owner : Int) (name : List UInt8) (address : Nat) {id : Int}
    {next : IpcManager} (created : manager.createMessageQueue owner name address = (id, next))
    (few : manager.messageQueues.length +
      (if (IpcAnswer.created id).isCreation then 1 else 0) < 2 ^ 31 - 1) :
    Refines ⟨manager, processes⟩ (.create owner name address) (.created id) ⟨next, processes⟩ := by
  unfold createMessageQueue at created
  split at created
  · -- The name is taken: nothing changes.
    rename_i taken
    cases created
    exact ⟨numbered, Nat.le_add_right _ _,
      .createTaken _ _ _ _ _ ((any_hasName_iff manager name).mp taken)⟩
  · rename_i untaken
    have untakenName : ¬ manager.live.Taken name := by rwa [any_hasName_iff] at untaken
    dsimp only at created
    split at created
    · -- An empty slot is reused under its own identifier.
      rename_i index found
      obtain ⟨inside, isEmpty, -⟩ := List.findIdx?_eq_some_iff_getElem.mp found
      rw [asInt32_of_small (by omega) (by omega)] at created
      cases created
      have vacant : manager.live (index + 1) = none := by
        rw [live_slot, List.getElem?_eq_getElem inside, Option.isNone_iff_eq_none.mp isEmpty]
        rfl
      have updated := live_set manager index
        (some ⟨owner, name, Pocky.createMessageQueue address⟩) manager.nextQueueId inside
      refine ⟨⟨?_, ?_⟩, ?_, ?_⟩
      · simpa using numbered.counted
      · dsimp only
        rw [updated]
        exact namesDistinct_insert numbered.distinct untakenName
      · simp
      · dsimp only
        rw [updated]
        exact .createNew _ _ _ _ _ _ untakenName (by omega) vacant
    · -- A new slot takes the identifier of the counter.
      cases created
      have counted := numbered.counted
      have positive : (IpcAnswer.created manager.nextQueueId).isCreation = true := by
        rw [IpcAnswer.isCreation, decide_eq_true_eq]
        omega
      rw [if_pos positive] at few
      have vacant : manager.live (manager.messageQueues.length + 1) = none := by
        rw [live_slot, List.getElem?_eq_none (Nat.le_refl _)]
        rfl
      have updated := live_append manager ⟨owner, name, Pocky.createMessageQueue address⟩
        (asInt32 (manager.nextQueueId + 1))
      refine ⟨⟨?_, ?_⟩, ?_, ?_⟩
      · dsimp only
        rw [asInt32_of_small (by omega) (by omega), List.length_append, List.length_singleton]
        omega
      · dsimp only
        rw [updated]
        exact namesDistinct_insert numbered.distinct untakenName
      · rw [if_pos positive]
        simp
      · dsimp only
        rw [updated, counted]
        exact .createNew _ _ _ _ _ _ untakenName (by omega) vacant

/-- A lookup by name is a step of the abstract table. -/
theorem openMessageQueue_mapped (manager : IpcManager)
    (few : manager.messageQueues.length < 2 ^ 31 - 1) (processes : Nat → Process)
    (name : List UInt8) :
    MapStep manager.live processes (.openQueue name) (.opened (manager.openMessageQueue name))
      manager.live processes := by
  unfold openMessageQueue
  split
  · -- The first slot of that name is a live queue.
    rename_i index found
    obtain ⟨inside, matching, -⟩ := List.findIdx?_eq_some_iff_getElem.mp found
    rw [asInt32_of_small (by omega) (by omega)]
    match held : manager.messageQueues[index], matching with
    | some queue, matching =>
      have sameName : queue.name = name := by simpa [hasName] using matching
      subst sameName
      refine .openLive _ _ _ queue ?_
      rw [live_slot, List.getElem?_eq_getElem inside, held]
      rfl
  · rename_i missing
    refine .openMissing _ _ _ ?_
    rw [← any_hasName_iff, List.any_eq_true]
    rintro ⟨slot, held, matching⟩
    exact absurd matching (by simpa using List.findIdx?_eq_none_iff.mp missing slot held)

/-- Destroying a queue is a step of the abstract table. -/
theorem WellNumbered.destroy {manager : IpcManager} (numbered : manager.WellNumbered)
    (few : manager.messageQueues.length < 2 ^ 31 - 1) (processes : Nat → Process) (id : Int)
    {told : Bool} {next : IpcManager} {after : Nat → Process}
    (destroyed : manager.destroyMessageQueue processes id = (told, next, after)) :
    Refines ⟨manager, processes⟩ (.destroy id) (.told told) ⟨next, after⟩ := by
  unfold destroyMessageQueue at destroyed
  rw [numbered.lookup_eq few] at destroyed
  split at destroyed
  · rename_i missing
    cases destroyed
    exact ⟨numbered, Nat.le_add_right _ _, .destroyMissing _ _ _ missing⟩
  · rename_i queue named
    cases destroyed
    obtain ⟨stays, updated⟩ := numbered.replace named none (namesDistinct_remove id numbered.distinct)
    refine ⟨stays, by simp [IpcManager.replace], ?_⟩
    dsimp only
    rw [updated]
    exact .destroyLive _ _ _ queue named

/-- Sending is a step of the abstract table. -/
theorem WellNumbered.send {manager : IpcManager} (numbered : manager.WellNumbered)
    (few : manager.messageQueues.length < 2 ^ 31 - 1) (processes : Nat → Process)
    (id sender : Int) (data : Nat → UInt8) (size ticks : Nat) (stack : Nat → UInt8)
    {told : Bool} {next : IpcManager} {after : Nat → Process}
    (answer : manager.sendMessage processes id sender data size ticks stack = (told, next, after)) :
    Refines ⟨manager, processes⟩ (.send id sender data size ticks stack) (.told told)
      ⟨next, after⟩ := by
  unfold IpcManager.sendMessage at answer
  rw [numbered.lookup_eq few] at answer
  split at answer
  · rename_i missing
    cases answer
    exact ⟨numbered, Nat.le_add_right _ _, .sendMissing _ _ _ _ _ _ _ _ missing⟩
  · rename_i queue named
    split at answer
    rename_i said sent processes' woken result
    cases answer
    obtain ⟨stays, updated⟩ := numbered.replace named _
      (namesDistinct_replace numbered.distinct named sent)
    refine ⟨stays, by simp [IpcManager.replace], ?_⟩
    dsimp only
    rw [updated]
    exact .sendLive _ _ _ _ _ _ _ _ queue _ _ _ woken named result

/-- Receiving is a step of the abstract table. -/
theorem WellNumbered.receive {manager : IpcManager} (numbered : manager.WellNumbered)
    (few : manager.messageQueues.length < 2 ^ 31 - 1) (processes : Nat → Process) (id : Int)
    (wait : Bool) (current : Nat) {outcome : ReceiveOutcome} {next : IpcManager}
    {after : Nat → Process}
    (answer : manager.receiveMessage processes id wait current = (outcome, next, after)) :
    Refines ⟨manager, processes⟩ (.receive id wait current) (.received outcome) ⟨next, after⟩ := by
  unfold IpcManager.receiveMessage at answer
  rw [numbered.lookup_eq few] at answer
  split at answer
  · rename_i missing
    cases answer
    exact ⟨numbered, Nat.le_add_right _ _, .receiveMissing _ _ _ _ _ missing⟩
  · rename_i queue named
    split at answer
    rename_i ended received processes' result
    cases answer
    obtain ⟨stays, updated⟩ := numbered.replace named _
      (namesDistinct_replace numbered.distinct named received)
    refine ⟨stays, by simp [IpcManager.replace], ?_⟩
    dsimp only
    rw [updated]
    exact .receiveLive _ _ _ _ _ queue _ _ _ named result

/-- Resuming a receive is a step of the abstract table. -/
theorem WellNumbered.resume {manager : IpcManager} (numbered : manager.WellNumbered)
    (processes : Nat → Process) (address : Nat) {outcome : ReceiveOutcome} {next : IpcManager}
    (answer : manager.resumeReceive address = some (outcome, next)) :
    Refines ⟨manager, processes⟩ (.resume address) (.received outcome) ⟨next, processes⟩ := by
  unfold IpcManager.resumeReceive at answer
  split at answer
  · rename_i index queue found held
    split at answer
    rename_i ended received result
    cases answer
    -- The slot that was found is the one its index reads.
    obtain ⟨inside, -⟩ := List.findIdx?_eq_some_iff_getElem.mp found
    have same : queue.queue.address = address := by
      simpa [isAt] using List.find?_some held
    subst same
    have named : manager.live (index + 1) = some queue := by
      rw [List.find?_eq_bind_findIdx?_getElem?, found, Option.bind_some] at held
      rw [live_slot, held]
      rfl
    have updated := live_set manager index (some { queue with queue := received })
      manager.nextQueueId inside
    refine ⟨⟨?_, ?_⟩, ?_, ?_⟩
    · simpa using numbered.counted
    · dsimp only
      rw [updated]
      exact namesDistinct_replace numbered.distinct named received
    · simp
    · dsimp only
      rw [updated]
      exact .resumeLive _ _ _ queue _ _ named result
  · cases answer

/-- Every call is a step of the abstract table. -/
theorem WellNumbered.step {system next : IpcSystem} {call : IpcCall} {answer : IpcAnswer}
    (numbered : system.manager.WellNumbered) (stepped : system.step call = some (answer, next))
    (few : system.manager.messageQueues.length + (if answer.isCreation then 1 else 0) <
      2 ^ 31 - 1) :
    Refines system call answer next := by
  have short : system.manager.messageQueues.length < 2 ^ 31 - 1 := by omega
  cases call with
  | create owner name address =>
    cases created : system.manager.createMessageQueue owner name address with
    | mk id manager =>
      simp only [IpcSystem.step, created, Option.some_inj, Prod.mk.injEq] at stepped
      obtain ⟨rfl, rfl⟩ := stepped
      exact numbered.create system.processes owner name address created few
  | destroy id =>
    obtain ⟨rfl, rfl⟩ := Prod.mk.inj (Option.some_inj.mp stepped)
    exact numbered.destroy short system.processes id rfl
  | openQueue name =>
    obtain ⟨rfl, rfl⟩ := Prod.mk.inj (Option.some_inj.mp stepped)
    exact ⟨numbered, Nat.le_add_right _ _,
      openMessageQueue_mapped system.manager short system.processes name⟩
  | send id sender data size ticks stack =>
    obtain ⟨rfl, rfl⟩ := Prod.mk.inj (Option.some_inj.mp stepped)
    exact numbered.send short system.processes id sender data size ticks stack rfl
  | receive id wait current =>
    obtain ⟨rfl, rfl⟩ := Prod.mk.inj (Option.some_inj.mp stepped)
    exact numbered.receive short system.processes id wait current rfl
  | resume address =>
    simp only [IpcSystem.step] at stepped
    split at stepped
    · rename_i outcome manager resumed
      obtain ⟨rfl, rfl⟩ := Prod.mk.inj (Option.some_inj.mp stepped)
      exact numbered.resume system.processes address resumed
    · cases stepped
  | reschedule processes =>
    obtain ⟨rfl, rfl⟩ := Prod.mk.inj (Option.some_inj.mp stepped)
    exact ⟨numbered, Nat.le_add_right _ _, .reschedule _ _ _⟩

/-- Every sequence of calls from a well-numbered table is a sequence of abstract steps. -/
theorem WellNumbered.run (calls : List IpcCall) :
    ∀ (system final : IpcSystem) (answers : List IpcAnswer), system.manager.WellNumbered →
      system.run calls = some (answers, final) →
      system.manager.messageQueues.length + answers.countP IpcAnswer.isCreation < 2 ^ 31 - 1 →
      final.manager.WellNumbered ∧
        MapRun system.manager.live system.processes calls answers final.manager.live
          final.processes := by
  -- The creations still to come bound the slots still to be added.
  induction calls with
  | nil =>
    intro system final answers numbered ran few
    obtain ⟨rfl, rfl⟩ := Prod.mk.inj (Option.some_inj.mp ran)
    exact ⟨numbered, .done _ _⟩
  | cons call calls ih =>
    intro system final answers numbered ran few
    simp only [IpcSystem.run] at ran
    split at ran
    · cases ran
    · rename_i answer next stepped
      split at ran
      · cases ran
      · rename_i rest last ranRest
        obtain ⟨rfl, rfl⟩ := Prod.mk.inj (Option.some_inj.mp ran)
        rw [List.countP_cons] at few
        have first := numbered.step stepped (by omega)
        have bounded := first.bounded
        obtain ⟨numberedLast, mapped⟩ := ih next last rest first.numbered ranRest (by omega)
        exact ⟨numberedLast, .more first.mapped mapped⟩

/-- The empty table is well numbered and maps nothing. -/
theorem empty_wellNumbered : empty.WellNumbered ∧ empty.live = fun _ => none := by
  have mapsNothing : empty.live = fun _ => none := by
    funext id
    simp [live, empty]
  refine ⟨⟨rfl, ?_⟩, mapsNothing⟩
  intro first second queue other inFirst
  rw [mapsNothing] at inFirst
  cases inFirst

end IpcManager

/--
The table of message queues refines a finite map.

Over every sequence of calls with fewer than `2 ^ 31 - 1` successful creations, the counter stays one
more than the number of slots, the names of live queues stay distinct, and the calls with their
answers are a sequence of steps of the map from identifiers to live queues.
-/
theorem ipcManager_refines_map (processes : Nat → Process) (calls : List IpcCall)
    (answers : List IpcAnswer) (final : IpcSystem)
    (ran : IpcSystem.run ⟨.empty, processes⟩ calls = some (answers, final))
    (few : answers.countP IpcAnswer.isCreation < 2 ^ 31 - 1) :
    final.manager.nextQueueId = final.manager.messageQueues.length + 1 ∧
      final.manager.live.NamesDistinct ∧
      MapRun (fun _ => none) processes calls answers final.manager.live final.processes := by
  -- The empty table is well numbered, and a run keeps it so.
  obtain ⟨numbered, mapsNothing⟩ := IpcManager.empty_wellNumbered
  obtain ⟨stays, mapped⟩ := IpcManager.WellNumbered.run calls ⟨.empty, processes⟩ final answers
    numbered ran (by simpa [IpcManager.empty] using few)
  rw [mapsNothing] at mapped
  exact ⟨stays.counted, stays.distinct, mapped⟩

/-- Creating two queues, one of them twice, destroying the first and opening the second. -/
theorem ipcManager_refines_map_example :
    ∃ answers final, IpcSystem.run ⟨.empty, fun _ => ⟨.ready, 0⟩⟩
        [.create 1 [97] 16, .create 1 [97] 32, .create 2 [98] 32, .destroy 1, .openQueue [98]] =
          some (answers, final) ∧
      answers = [.created 1, .created (-1), .created 2, .told true, .opened 2] ∧
      final.manager.nextQueueId = final.manager.messageQueues.length + 1 ∧
      final.manager.live.NamesDistinct ∧
      MapRun (fun _ => none) (fun _ => ⟨.ready, 0⟩)
        [.create 1 [97] 16, .create 1 [97] 32, .create 2 [98] 32, .destroy 1, .openQueue [98]]
        answers final.manager.live final.processes := by
  refine ⟨_, _, rfl, rfl, ?_⟩
  exact ipcManager_refines_map (fun _ => ⟨.ready, 0⟩) _ _ _ rfl (by decide)

end Pocky
