import Pocky.Core.Scheduler
import Pocky.Lib.Calls

/-! Creating and terminating processes, blocking and waking them, and runs of the kernel. -/

namespace Pocky

/-- Bytes in a kernel stack. -/
def kernelStackSize : Nat := 16 * 1024

/-- Pages in a kernel stack. -/
def kernelStackPages : Nat := (kernelStackSize + 4095) / 4096

/-- Where the kernel stack of a process number starts. -/
def kernelStackBase (pid : Int) : BitVec 64 :=
  0xFFFFFFFF80000000#64 + BitVec.ofInt 64 pid * BitVec.ofNat 64 kernelStackSize

/-- A process as its constructor and the first lines of its creation leave it. -/
def newRecord (pid : Int) : ProcessRecord := ⟨pid, 5, 0, 0, 0#64, []⟩

/-- Releasing the regions of a process, newest first. -/
def PagedMemory.releaseRegions (memory : PagedMemory) : List MemoryRegion → Run PagedMemory
  | [] => .ok memory
  | region :: regions => do
    -- Addresses repeat after `2 ^ 52` pages, so a loop that needs more rounds never ends.
    let memory ← memory.releaseRange (region.start + region.size) (2 ^ 52 + 1) region.start
    memory.releaseRegions regions

namespace Kernel

/-- Releasing all memory of a process. -/
def cleanupProcessMemory (kernel : Kernel) (process : Nat) : Run Kernel := do
  let record := kernel.records process
  let memory ← kernel.memory.releaseRegions record.memoryRegions
  let memory :=
    if record.kernelStack = 0#64 then memory
    else memory.releasePages (record.kernelStack - BitVec.ofNat 64 kernelStackSize) kernelStackPages
  return { kernel with
    memory := memory
    records := Function.update kernel.records process
      { record with memoryRegions := [], kernelStack := 0#64 } }

/-- Creating a process, which is allocated at this address; minus one when memory runs out. -/
def createProcess (kernel : Kernel) (address : Nat) : Run (Int × Kernel) :=
  let pid := kernel.nextPid
  let kernel := { kernel with
    nextPid := asInt32 (pid + 1)
    processes := Function.update kernel.processes address ⟨.ready, 0⟩
    records := Function.update kernel.records address (newRecord pid) }
  let base := kernelStackBase pid
  match kernel.memory.backPages base kernelStackPages with
  | (some _, memory) => do
    let kernel ← { kernel with memory := memory }.cleanupProcessMemory address
    return (-1, kernel)
  | (none, memory) =>
    let stack := base + BitVec.ofNat 64 kernelStackSize
    let kernel := { kernel with
      memory := memory
      records := Function.update kernel.records address
        { kernel.records address with kernelStack := stack }
      processList := address :: kernel.processList
      currentProcess := if kernel.currentProcess = 0 then address else kernel.currentProcess }
    .ok (pid, kernel.addProcess address)

/-- The process with a number. -/
def getProcess (kernel : Kernel) (pid : Int) : Option Nat :=
  kernel.processList.find? fun process => (kernel.records process).pid == pid

/-- Terminating a process on a processor; texts and argument lists are left out. -/
def terminateProcess (kernel : Kernel) (pid : Int) (cpuId ticks : Nat) : Run Kernel :=
  match kernel.getProcess pid with
  | none => .ok kernel
  | some process => do
    let kernel := { kernel with processList := kernel.processList.erase process }
    let kernel ← (kernel.removeProcess process).cleanupProcessMemory process
    if kernel.currentProcess = process then
      let kernel := { kernel with currentProcess := kernel.processList.headD 0 }
      if kernel.currentProcess ≠ 0 then kernel.scheduleOnCpu cpuId ticks else return kernel
    else return kernel

/-- Replacing the message queue at an address. -/
def setQueue (kernel : Kernel) (address : Nat) (queue : Option MessageQueue) : Kernel :=
  { kernel with queues := Function.update kernel.queues address queue }

/-- Sending to a queue; the process it wakes is handed to the scheduler. -/
def sendMessage (kernel : Kernel) (address : Nat) (queue : MessageQueue) (sender : Int)
    (data : Nat → UInt8) (size ticks : Nat) (stack : Nat → UInt8) : Bool × Kernel :=
  match queue.sendMessage kernel.processes sender data size ticks stack with
  | (told, sent, processes, woken) =>
    let kernel := { kernel.setQueue address (some sent) with processes := processes }
    match woken with
    | none => (told, kernel)
    | some process => (told, kernel.addProcess process)

/-- Receiving from a queue by the running process, up to the return or to the end of the scheduler call. -/
def receiveMessage (kernel : Kernel) (address : Nat) (queue : MessageQueue) (wait : Bool)
    (cpuId ticks : Nat) : Run (MessageQueue.ReceiveOutcome × Kernel) :=
  match queue.receiveMessage kernel.processes wait kernel.currentProcess with
  | (.suspended, received, processes) => do
    let kernel := { kernel.setQueue address (some received) with processes := processes }
    let kernel ← kernel.scheduleOnCpu cpuId ticks
    return (.suspended, kernel)
  | (outcome, received, processes) =>
    .ok (outcome, { kernel.setQueue address (some received) with processes := processes })

/-- The rest of a blocking receive. -/
def resumeReceive (kernel : Kernel) (address : Nat) (queue : MessageQueue) :
    MessageQueue.ReceiveOutcome × Kernel :=
  match queue.resumeReceive with
  | (outcome, received) => (outcome, kernel.setQueue address (some received))

/-- Waking one process if it waits for a resource. -/
def wakeProcess (kernel : Kernel) (resource process : Nat) : Kernel :=
  if (kernel.processes process).state = .waiting ∧
      (kernel.processes process).waitingOn = resource then
    { kernel with processes := Function.update kernel.processes process ⟨.ready, 0⟩ }.addProcess
      process
  else kernel

/-- Waking every process that waits for a resource. -/
def wakeWaitingProcesses (kernel : Kernel) (resource : Nat) : Kernel :=
  kernel.processList.foldl (·.wakeProcess resource ·) kernel

end Kernel

/-- The kernel before its first process, with a number of processors and any memory. -/
def bootKernel (policy : SchedulerPolicy) (cpuCount : Nat) (memory : PagedMemory)
    (processes : Nat → Process) (records : Nat → ProcessRecord) : Kernel :=
  { processes := processes
    records := records
    processList := []
    currentProcess := 0
    nextPid := 1
    policy := policy
    runqueues := (List.range cpuCount).map CpuRunQueue.fresh
    loadBalanceCounter := 0
    queues := fun _ => none
    memory := memory }

/-- A call into the kernel. -/
inductive KernelCall where
  /-- Creating a process, which is allocated at this address. -/
  | createProcess (address : Nat)
  /-- Terminating a process, on a processor. -/
  | terminateProcess (pid : Int) (cpuId ticks : Nat)
  /-- Creating a message queue, which is allocated at this address. -/
  | createQueue (address : Nat)
  /-- Destroying a message queue. -/
  | destroyQueue (address : Nat)
  /-- Sending to a message queue. -/
  | sendMessage (address : Nat) (sender : Int) (data : Nat → UInt8) (size ticks : Nat)
    (stack : Nat → UInt8)
  /-- Receiving from a message queue by the running process, on a processor. -/
  | receiveMessage (address : Nat) (wait : Bool) (cpuId ticks : Nat)
  /-- The scheduler returns into a receive that is blocked on a queue. -/
  | resumeReceive (address : Nat)
  /-- Adding a process to a run queue. -/
  | addProcess (process : Nat)
  /-- Removing a process from its run queue. -/
  | removeProcess (process : Nat)
  /-- Rescheduling a processor. -/
  | scheduleOnCpu (cpuId ticks : Nat)
  /-- A tick of a processor. -/
  | tick (interrupts : Bool) (cpuId ticks : Nat)
  /-- Balancing the run queues. -/
  | loadBalance
  /-- Waking every process that waits for a resource. -/
  | wakeWaitingProcesses (resource : Nat)
  /-- Changing the priority of a process. -/
  | setProcessPriority (pid : Int) (priority : Nat)

namespace Kernel

/--
The kernel after a call.

There is none where the call does not return, or where its caller holds a pointer to nothing.
An address for a new object is not in use by another of its kind.
-/
def perform (kernel : Kernel) : KernelCall → Option Kernel
  | .createProcess address =>
    if address = 0 ∨ address ∈ kernel.processList then none
    else (kernel.createProcess address).toOption.map (·.2)
  | .terminateProcess pid cpuId ticks => (kernel.terminateProcess pid cpuId ticks).toOption
  | .createQueue address =>
    if address = 0 ∨ (kernel.queues address).isSome then none
    else some (kernel.setQueue address (some (createMessageQueue address)))
  | .destroyQueue address => (kernel.queues address).map fun queue =>
    { kernel.setQueue address none with processes := queue.destroy kernel.processes }
  | .sendMessage address sender data size ticks stack => (kernel.queues address).map fun queue =>
    (kernel.sendMessage address queue sender data size ticks stack).2
  | .receiveMessage address wait cpuId ticks => (kernel.queues address).bind fun queue =>
    (kernel.receiveMessage address queue wait cpuId ticks).toOption.map (·.2)
  | .resumeReceive address => (kernel.queues address).map fun queue =>
    (kernel.resumeReceive address queue).2
  | .addProcess process =>
    if process = 0 ∨ process ∈ kernel.processList then some (kernel.addProcess process) else none
  | .removeProcess process => some (kernel.removeProcess process)
  | .scheduleOnCpu cpuId ticks => (kernel.scheduleOnCpu cpuId ticks).toOption
  | .tick interrupts cpuId ticks => (kernel.tick interrupts cpuId ticks).toOption
  | .loadBalance => some kernel.loadBalance
  | .wakeWaitingProcesses resource => some (kernel.wakeWaitingProcesses resource)
  | .setProcessPriority pid priority => some (kernel.setProcessPriority pid priority)

/-- The kernel after a sequence of calls. -/
def run (kernel : Kernel) (calls : List KernelCall) : Option Kernel :=
  Calls.run perform kernel calls

end Kernel

/-- A small memory with sixty-four free frames and empty page tables. -/
def smallMemory : PagedMemory :=
  ⟨⟨fun _ => 0#32, 64, 64, 0x100000⟩, ⟨fun _ => emptyEntry, 0x1000, []⟩, []⟩

/-- A kernel over the small memory that picks processes in turn. -/
def smallKernel (cpuCount : Nat) : Kernel :=
  bootKernel .roundRobin cpuCount smallMemory (fun _ => ⟨.stopped, 0⟩) (fun _ => newRecord 0)

end Pocky
