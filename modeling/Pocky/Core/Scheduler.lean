import Pocky.Core.IpcManager
import Pocky.Memory.PagedMemory

/-! The scheduler: a run queue for each processor, selection, ticks, and moving processes around. -/

namespace Pocky

/-- How the next process is picked. -/
inductive SchedulerPolicy where
  /-- In turn. -/
  | roundRobin
  /-- By priority. -/
  | priority
  deriving Repr, DecidableEq

/-- The run queue of one processor; processes are named by their addresses, zero being null. -/
structure CpuRunQueue where
  /-- The processes it holds. -/
  processQueue : List Nat
  /-- Where the last selection stopped. -/
  currentIndex : Nat
  /-- The ticks left to the current process. -/
  currentTimeSlice : Nat
  /-- The process the processor runs. -/
  current : Nat
  /-- The processor. -/
  cpuId : Nat
  /-- The processor should reschedule. -/
  needsResched : Bool
  deriving Repr, DecidableEq

/-- A region of memory a process has mapped. -/
structure MemoryRegion where
  /-- Its first address. -/
  start : BitVec 64
  /-- Its length in bytes. -/
  size : BitVec 64
  deriving Repr, DecidableEq

/-- The fields of a process beside its state and what it waits for. -/
structure ProcessRecord where
  /-- Its number. -/
  pid : Int
  /-- Its priority. -/
  priority : Nat
  /-- The ticks it has run. -/
  totalRuntime : Nat
  /-- When it was last selected. -/
  lastRun : Nat
  /-- The end of its kernel stack, zero for none. -/
  kernelStack : BitVec 64
  /-- The regions it has mapped, newest first. -/
  memoryRegions : List MemoryRegion
  deriving Repr, DecidableEq

/-- The processes, the scheduler, the message queues and the memory of the kernel. -/
structure Kernel where
  /-- The state of the process at each address. -/
  processes : Nat → Process
  /-- The other fields of the process at each address. -/
  records : Nat → ProcessRecord
  /-- The linked list of processes, newest first. -/
  processList : List Nat
  /-- The process the kernel takes to be running. -/
  currentProcess : Nat
  /-- The number of the next process. -/
  nextPid : Int
  /-- How processes are picked. -/
  policy : SchedulerPolicy
  /-- One run queue for each processor. -/
  runqueues : List CpuRunQueue
  /-- Ticks since the queues were last balanced. -/
  loadBalanceCounter : Nat
  /-- The message queue at each address. -/
  queues : Nat → Option MessageQueue
  /-- Frames and page tables. -/
  memory : PagedMemory

/-- The ticks a process may run before the next one is picked. -/
def defaultTimeSlice : Nat := 5

/-- The ticks between two balancings of the queues. -/
def loadBalancePeriod : Nat := 100

/-- The largest size the source can count to. -/
def sizeMax : Nat := 2 ^ 64 - 1

namespace CpuRunQueue

/-- The run queue of a processor at the start. -/
def fresh (cpuId : Nat) : CpuRunQueue := ⟨[], 0, defaultTimeSlice, 0, cpuId, false⟩

/-- Taking the first occurrence of a process out of the queue. -/
def dequeue (runqueue : CpuRunQueue) (process : Nat) : CpuRunQueue :=
  let index := runqueue.processQueue.idxOf process
  { runqueue with
    processQueue := removeAt runqueue.processQueue index
    currentIndex :=
      if index ≤ runqueue.currentIndex ∧ 0 < runqueue.currentIndex then runqueue.currentIndex - 1
      else runqueue.currentIndex }

/-- Forgetting a current process that has been taken out. -/
def clearCurrent (runqueue : CpuRunQueue) (process : Nat) : CpuRunQueue :=
  if runqueue.current = process then { runqueue with current := 0, needsResched := true }
  else runqueue

/-- Adding a process at the end. -/
def enqueue (runqueue : CpuRunQueue) (process : Nat) : CpuRunQueue :=
  { runqueue with processQueue := runqueue.processQueue ++ [process] }

/-- The process at an index. -/
def processAt (runqueue : CpuRunQueue) (index : Nat) : Nat := runqueue.processQueue.getD index 0

end CpuRunQueue

/-- Setting the state of a process and keeping what it waits for. -/
def setState (processes : Nat → Process) (process : Nat) (state : ProcessState) : Nat → Process :=
  Function.update processes process { processes process with state := state }

namespace Kernel

/-- The run queue of a processor. -/
def getRunqueue (kernel : Kernel) (cpuId : Nat) : Option CpuRunQueue :=
  kernel.runqueues.find? (·.cpuId == cpuId)

/-- Changing the run queue of a processor. -/
def modifyRunqueue (kernel : Kernel) (cpuId : Nat) (change : CpuRunQueue → CpuRunQueue) : Kernel :=
  { kernel with runqueues := modifyFirst (·.cpuId == cpuId) change kernel.runqueues }

/-- The processor whose queue is the first of the shortest ones. -/
def leastLoaded (runqueues : List CpuRunQueue) : Nat :=
  (runqueues.foldl (fun (target, least) runqueue =>
    if runqueue.processQueue.length < least then (runqueue.cpuId, runqueue.processQueue.length)
    else (target, least)) (0, sizeMax)).1

/-- Setting up one empty queue for each processor. -/
def initializeScheduler (kernel : Kernel) (policy : SchedulerPolicy) (cpuCount : Nat) : Kernel :=
  { kernel with
    policy := policy
    loadBalanceCounter := 0
    runqueues := (List.range cpuCount).map CpuRunQueue.fresh }

/-- Adding a process to the shortest queue, unless that queue has it already. -/
def addProcess (kernel : Kernel) (process : Nat) : Kernel :=
  if process = 0 then kernel
  else
    let target := leastLoaded kernel.runqueues
    match kernel.getRunqueue target with
    | none => kernel
    | some runqueue =>
      if process ∈ runqueue.processQueue then kernel
      else
        { kernel with processes := setState kernel.processes process .ready }.modifyRunqueue target
          (·.enqueue process)

/-- Removing a process from the first queue that has it. -/
def removeProcess (kernel : Kernel) (process : Nat) : Kernel :=
  if process = 0 then kernel
  else
    { kernel with
      runqueues := modifyFirst (process ∈ ·.processQueue)
        (fun runqueue => (runqueue.dequeue process).clearCurrent process) kernel.runqueues }

/-- A process may be picked. -/
def isReady (kernel : Kernel) (process : Nat) : Bool := (kernel.processes process).state = .ready

/--
The rounds of the search in turn, with the number of rounds it may take.

The search ends at a ready process or back at the index it started from.
As many rounds as there are processes pass every one of them, so a search that needs more never ends.
-/
def searchRound (kernel : Kernel) (runqueue : CpuRunQueue) (startIndex : Nat) :
    Nat → Nat → Run (Nat × Nat)
  | 0, _ => .error .diverges
  | fuel + 1, index =>
    let index := (index + 1) % runqueue.processQueue.length
    if kernel.isReady (runqueue.processAt index) then .ok (runqueue.processAt index, index)
    else if index ≠ startIndex then kernel.searchRound runqueue startIndex fuel index
    else .ok (0, index)

/-- The search by priority: the answer is the highest priority so far, the process and its index. -/
def searchPriority (kernel : Kernel) (runqueue : CpuRunQueue) : Nat → Nat × Nat × Nat
  | 0 => (0, 0, 0)
  | count + 1 =>
    let (highest, selected, index) := kernel.searchPriority runqueue count
    let process := runqueue.processAt count
    if kernel.isReady process ∧ highest < (kernel.records process).priority then
      ((kernel.records process).priority, process, count)
    else (highest, selected, index)

/-- Picking the next process of a queue, zero for none, and the queue with its index moved. -/
def selectNextProcess (kernel : Kernel) (runqueue : CpuRunQueue) : Run (Nat × CpuRunQueue) :=
  if runqueue.processQueue.length = 0 then .ok (0, runqueue)
  else
    match kernel.policy with
    | .roundRobin => do
      let (selected, index) ← kernel.searchRound runqueue runqueue.currentIndex
        runqueue.processQueue.length runqueue.currentIndex
      return (selected, { runqueue with currentIndex := index })
    | .priority =>
      let (_, selected, index) := kernel.searchPriority runqueue runqueue.processQueue.length
      .ok (selected, if selected ≠ 0 then { runqueue with currentIndex := index } else runqueue)

/-- Making a process the running one; the processor's registers are left out. -/
def switchToProcess (kernel : Kernel) (process : Nat) : Kernel :=
  if process = 0 ∨ ((kernel.processes process).state ≠ .running ∧
      (kernel.processes process).state ≠ .ready) then kernel
  else if kernel.currentProcess ≠ process then
    let old := kernel.currentProcess
    let processes :=
      if old ≠ 0 ∧ (kernel.processes old).state = .running then
        setState kernel.processes old .ready
      else kernel.processes
    { kernel with currentProcess := process, processes := setState processes process .running }
  else kernel

/-- Giving a processor to a selected process. -/
def dispatch (kernel : Kernel) (cpuId current next ticks : Nat) : Kernel :=
  let kernel := kernel.modifyRunqueue cpuId fun runqueue =>
    { runqueue with currentTimeSlice := defaultTimeSlice, current := next }
  let records := Function.update kernel.records next { kernel.records next with lastRun := ticks }
  -- The process that had the processor becomes ready whatever it was doing.
  let processes :=
    if current ≠ 0 then setState kernel.processes current .ready else kernel.processes
  { kernel with records := records, processes := setState processes next .running }.switchToProcess
    next

/-- Rescheduling a processor. -/
def scheduleOnCpu (kernel : Kernel) (cpuId ticks : Nat) : Run Kernel :=
  match kernel.getRunqueue cpuId with
  | none => .ok kernel
  | some runqueue => do
    let (next, searched) ← kernel.selectNextProcess runqueue
    let kernel := kernel.modifyRunqueue cpuId fun _ => searched
    if next = 0 then return kernel
    else if runqueue.current = next then return kernel
    else return kernel.dispatch cpuId runqueue.current next ticks

/-- Whether a process may move to another processor. -/
def canMigrateProcess (kernel : Kernel) (process toCpu : Nat) : Bool :=
  process ≠ 0 ∧ (kernel.processes process).state ≠ .running ∧
    (kernel.records process).priority < 8 ∧ (kernel.getRunqueue toCpu).isSome

/-- Moving a process from one queue to the end of another. -/
def migrateProcess (kernel : Kernel) (process fromCpu toCpu : Nat) : Kernel :=
  if process = 0 ∨ fromCpu = toCpu then kernel
  else
    match kernel.getRunqueue fromCpu, kernel.getRunqueue toCpu with
    | some _, some _ =>
      (kernel.modifyRunqueue fromCpu fun runqueue =>
        if process ∈ runqueue.processQueue then runqueue.dequeue process else runqueue).modifyRunqueue
        toCpu (·.enqueue process)
    | _, _ => kernel

/-- The longest and the shortest queue: length and processor of each, the first of several. -/
def extremes (runqueues : List CpuRunQueue) : (Nat × Nat) × (Nat × Nat) :=
  runqueues.foldl (fun (longest, shortest) runqueue =>
    let size := runqueue.processQueue.length
    (if longest.1 < size then (size, runqueue.cpuId) else longest,
      if size < shortest.1 then (size, runqueue.cpuId) else shortest)) ((0, 0), (sizeMax, 0))

/-- The loop that moves processes, with the number of rounds it may take. -/
def moveProcesses (kernel : Kernel) (fromCpu toCpu : Nat) : Nat → Nat → Nat → Kernel
  | 0, _, _ => kernel
  | fuel + 1, index, toMove =>
    match kernel.getRunqueue fromCpu with
    | none => kernel
    | some runqueue =>
      if runqueue.processQueue.length ≤ index ∨ toMove = 0 then kernel
      else
        let process := runqueue.processAt index
        if kernel.canMigrateProcess process toCpu then
          -- The next process has taken the place of the one moved.
          (kernel.migrateProcess process fromCpu toCpu).moveProcesses fromCpu toCpu fuel index
            (toMove - 1)
        else kernel.moveProcesses fromCpu toCpu fuel (index + 1) toMove

/-- Moving half of the difference from the longest queue to the shortest. -/
def loadBalance (kernel : Kernel) : Kernel :=
  let (longest, shortest) := extremes kernel.runqueues
  if wordSub longest.1 shortest.1 ≤ 1 then kernel
  else
    let toMove := wordSub longest.1 shortest.1 / 2
    match kernel.getRunqueue longest.2, kernel.getRunqueue shortest.2 with
    | some runqueue, some _ =>
      kernel.moveProcesses longest.2 shortest.2 (runqueue.processQueue.length + toMove) 0 toMove
    | _, _ => kernel

/-- A tick of a processor; interrupts may be off, and another processor is only sent a message. -/
def tickOnCpu (kernel : Kernel) (interrupts : Bool) (cpuId currentCpu ticks : Nat) : Run Kernel :=
  if !interrupts then .ok kernel
  else
    match kernel.getRunqueue cpuId with
    | none => .ok kernel
    | some runqueue =>
      let current := runqueue.current
      if current = 0 then .ok kernel
      else
        let record := kernel.records current
        let kernel := { kernel with
          records := Function.update kernel.records current
            { record with totalRuntime := (record.totalRuntime + 1) % 2 ^ 64 } }
        if 9 ≤ record.priority then .ok kernel
        else
          let slice := runqueue.currentTimeSlice - 1
          let kernel := kernel.modifyRunqueue cpuId ({ · with currentTimeSlice := slice })
          if slice = 0 then
            let kernel := kernel.modifyRunqueue cpuId ({ · with needsResched := true })
            if cpuId = currentCpu then kernel.scheduleOnCpu cpuId ticks else .ok kernel
          else .ok kernel

/-- A tick of the processor that takes the interrupt. -/
def tick (kernel : Kernel) (interrupts : Bool) (currentCpu ticks : Nat) : Run Kernel := do
  let kernel ← kernel.tickOnCpu interrupts currentCpu currentCpu ticks
  if loadBalancePeriod ≤ kernel.loadBalanceCounter + 1 then
    let kernel := { kernel with loadBalanceCounter := 0 }
    return if currentCpu = 0 then kernel.loadBalance else kernel
  else return { kernel with loadBalanceCounter := kernel.loadBalanceCounter + 1 }

/-- Changing the priority of a process, up to ten. -/
def setProcessPriority (kernel : Kernel) (pid : Int) (priority : Nat) : Kernel :=
  match kernel.processList.find? fun process => (kernel.records process).pid == pid with
  | none => kernel
  | some process =>
    { kernel with
      records := Function.update kernel.records process
        { kernel.records process with priority := min priority 10 } }

end Kernel

end Pocky
