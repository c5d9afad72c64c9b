import Pocky.Core.IpcManagerLaws
import Pocky.Core.ProcessLaws
import Pocky.Memory.PagedMemoryLaws

/-! Live processes own the pages and frames of their kernel stacks, and termination returns them. -/

namespace Pocky

open PagedMemory

/-- A call that creates a process. -/
def KernelCall.creates : KernelCall → Bool
  | .createProcess _ => true
  | _ => false

/-- A call that creates or terminates a process. -/
def KernelCall.OnProcesses : KernelCall → Prop
  | .createProcess _ => True
  | .terminateProcess _ _ _ => True
  | _ => False

/-- The number of the first page of a kernel stack. -/
def stackPage (pid : Int) : Nat := 0xFFFF80000 + 4 * pid.toNat

/-- The process number whose stack ends where addresses do. -/
def lastPid : Int := 131071

/-- The address of a page of a kernel stack, as a number. -/
theorem toNat_stackPage {pid : Int} (positive : 1 ≤ pid) (small : pid < 131072) {index : Nat}
    (inside : index < 4) :
    (pageAt (kernelStackBase pid) index).toNat =
      0xFFFFFFFF80000000 + 16384 * pid.toNat + 4096 * index := by
  -- The number is small enough that nothing wraps.
  obtain ⟨number, rfl⟩ : ∃ number : Nat, pid = number := ⟨pid.toNat, by omega⟩
  have bounded : number < 131072 := by omega
  rw [pageAt, kernelStackBase, BitVec.ofInt_natCast, Int.toNat_natCast,
    show kernelStackSize = 16384 from rfl, BitVec.toNat_add, BitVec.toNat_add, BitVec.toNat_mul,
    BitVec.toNat_ofNat, BitVec.toNat_ofNat, BitVec.toNat_ofNat, BitVec.toNat_ofNat]
  omega

/-- The pages of a kernel stack are a window. -/
theorem window_stack {pid : Int} (positive : 1 ≤ pid) (small : pid < 131072) :
    Window (kernelStackBase pid) (stackPage pid) kernelStackPages := by
  refine ⟨by simp only [stackPage]; omega, fun index inside => ?_⟩
  have few : index < 4 := inside
  rw [pageNumber, toNat_stackPage positive small few]
  simp only [stackPage]
  omega

/-- Only the stack of the last number ends at address zero. -/
theorem stackEnd_eq_zero_iff {pid : Int} (positive : 1 ≤ pid) (small : pid < 131072) :
    kernelStackBase pid + BitVec.ofNat 64 kernelStackSize = 0#64 ↔ pid = lastPid := by
  have start := toNat_stackPage positive small (show 0 < 4 by decide)
  have base : pageAt (kernelStackBase pid) 0 = kernelStackBase pid := by simp [pageAt]
  rw [base] at start
  rw [← BitVec.toNat_inj, BitVec.toNat_add, start, show kernelStackSize = 16384 from rfl,
    BitVec.toNat_ofNat, BitVec.toNat_ofNat, lastPid]
  omega

/-- A table that is there after boot, or leads to the page of a stack. -/
def StackTable (level number : Nat) : Prop :=
  (level, number) ∈ [(0, 0), (1, 0), (2, 0), (1, 511)] ∨
    level ≤ 3 ∧ ∃ page, stackPage 0 ≤ page ∧ page < 2 ^ 36 ∧ number = page / 512 ^ (4 - level)

namespace Kernel

/-- The frame behind a page of the kernel stack of a process number, or zero. -/
def stackFrame (kernel : Kernel) (pid : Int) (index : Nat) : BitVec 64 :=
  kernel.memory.getPhysicalAddress (pageAt (kernelStackBase pid) index)

/-- The number of a live process. -/
def pidOf (kernel : Kernel) (process : Nat) : Int := (kernel.records process).pid

/-- Live processes have numbers of their own, and stacks of four pages backed by frames of their own. -/
structure OwnsStacks (kernel : Kernel) : Prop where
  /-- No two live processes have the same number. -/
  numbers : (kernel.processList.map kernel.pidOf).Nodup
  /-- The four pages are mapped to frames in use. -/
  mapped : ∀ process ∈ kernel.processList, ∀ index < 4,
    kernel.stackFrame (kernel.pidOf process) index ≠ 0#64 ∧
      kernel.memory.pmm.Used (kernel.stackFrame (kernel.pidOf process) index).toNat
  /-- No frame is behind two of them. -/
  unshared : ∀ process ∈ kernel.processList, ∀ other ∈ kernel.processList, ∀ i < 4, ∀ j < 4,
    kernel.stackFrame (kernel.pidOf process) i = kernel.stackFrame (kernel.pidOf other) j →
      process = other ∧ i = j

/-- A terminated process has left the list alone, its pages are unmapped and just its frames free. -/
structure ReturnsStack (kernel after : Kernel) (process : Nat) : Prop where
  /-- The others are listed as before. -/
  listed : after.processList = kernel.processList.erase process
  /-- Its pages are not mapped any more. -/
  unmapped : ∀ index < 4, after.stackFrame (kernel.pidOf process) index = 0#64
  /-- Exactly the frames of its stack have been freed. -/
  freed : ∀ addr, after.memory.pmm.Used addr ↔ kernel.memory.pmm.Used addr ∧
    ∀ index < 4, (kernel.stackFrame (kernel.pidOf process) index).toNat ≠ addr

/-- What the kernel keeps of a process while its processor is given to others. -/
structure KeepsStacks (kernel after : Kernel) : Prop where
  /-- The memory is the same. -/
  memory : after.memory = kernel.memory
  /-- So is the list. -/
  list : after.processList = kernel.processList
  /-- So is the next number. -/
  next : after.nextPid = kernel.nextPid
  /-- So are numbers, stacks and regions. -/
  records : ∀ process, (after.records process).pid = (kernel.records process).pid ∧
    (after.records process).kernelStack = (kernel.records process).kernelStack ∧
    (after.records process).memoryRegions = (kernel.records process).memoryRegions

/-- The scheduler keeps all of it. -/
theorem scheduleOnCpu_keepsStacks {kernel after : Kernel} {cpuId ticks : Nat}
    (scheduled : kernel.scheduleOnCpu cpuId ticks = .ok after) : kernel.KeepsStacks after := by
  obtain ⟨list, -, memory, number, -⟩ := scheduleOnCpu_frame scheduled
  refine ⟨memory, list, number, fun process => ?_⟩
  rcases scheduleOnCpu_cases scheduled with
    rfl | ⟨runqueue, index, -, -, rfl | ⟨next, -, -, -, -, rfl⟩⟩
  · exact ⟨rfl, rfl, rfl⟩
  · exact ⟨rfl, rfl, rfl⟩
  · -- Only the time of the last run is recorded.
    have records := (dispatch_frame (kernel.modifyRunqueue cpuId
      fun _ => { runqueue with currentIndex := index }) cpuId runqueue.current next ticks).2.2.2.1
    rw [records]
    by_cases here : process = next
    · subst here
      rw [Function.update_self]
      exact ⟨rfl, rfl, rfl⟩
    · rw [Function.update_of_ne here]
      exact ⟨rfl, rfl, rfl⟩

/-- Terminating a process that exists unlists it and cleans up; what follows keeps all of it. -/
theorem terminateProcess_found {kernel after : Kernel} {pid : Int} {cpuId ticks : Nat}
    (terminated : kernel.terminateProcess pid cpuId ticks = .ok after) :
    kernel.getProcess pid = none ∧ after = kernel ∨
    ∃ process cleaned, kernel.getProcess pid = some process ∧
      { kernel.removeProcess process with
        processList := kernel.processList.erase process }.cleanupProcessMemory process =
        .ok cleaned ∧
      cleaned.processList = kernel.processList.erase process ∧ cleaned.nextPid = kernel.nextPid ∧
      cleaned.KeepsStacks after := by
  rcases terminateProcess_cases terminated with
    ⟨missing, same⟩ | ⟨process, cleaned, found, cleanup, shape, ending⟩
  · exact Or.inl ⟨missing, same⟩
  · refine Or.inr ⟨process, cleaned, found, cleanup, by rw [shape], by rw [shape], ?_⟩
    -- The processor may be left alone, left idle or given to the next process.
    rcases ending with ⟨-, rfl⟩ | ⟨-, ⟨-, rfl⟩ | ⟨-, scheduled⟩⟩
    · exact ⟨rfl, rfl, rfl, fun _ => ⟨rfl, rfl, rfl⟩⟩
    · exact ⟨rfl, rfl, rfl, fun _ => ⟨rfl, rfl, rfl⟩⟩
    · obtain ⟨memory, list, next, records⟩ := scheduleOnCpu_keepsStacks scheduled
      exact ⟨memory, list, next, records⟩

/--
What holds after a number of processes have been created.

The pages that are mapped are those of live processes, and perhaps the last ones there are.
-/
structure Stacked (reserved : Nat → Prop) (made : Nat) (kernel : Kernel)
    (table : Nat → Nat → Option Nat) (pages : Nat → Option (BitVec 64)) : Prop where
  /-- The memory is in order. -/
  backed : Backed reserved kernel.memory table pages
  /-- Numbers have been given out in order. -/
  next : kernel.nextPid = made + 1
  /-- No process is listed twice. -/
  nodup : kernel.processList.Nodup
  /-- A live process has a number that has been given out, the stack of that number, and no regions. -/
  placed : ∀ process ∈ kernel.processList, 1 ≤ kernel.pidOf process ∧ kernel.pidOf process ≤ made ∧
    (kernel.records process).kernelStack =
      kernelStackBase (kernel.pidOf process) + BitVec.ofNat 64 kernelStackSize ∧
    (kernel.records process).memoryRegions = []
  /-- No two have the same number. -/
  distinct : (kernel.processList.map kernel.pidOf).Nodup
  /-- Every page of a stack is mapped. -/
  inside : ∀ process ∈ kernel.processList, ∀ index < 4,
    (pages (stackPage (kernel.pidOf process) + index)).isSome
  /-- No other page is, but perhaps those of the last number after it has been given out. -/
  outside : ∀ page, (pages page).isSome → ∃ pid, stackPage pid ≤ page ∧ page < stackPage pid + 4 ∧
    ((∃ process ∈ kernel.processList, kernel.pidOf process = pid) ∨ pid = lastPid ∧ pid ≤ made)
  /-- The tables are those of the boot and those that lead to stacks. -/
  tables : ∀ level number addr, table level number = some addr → StackTable level number

variable {reserved : Nat → Prop} {made : Nat} {kernel after : Kernel}
  {table : Nat → Nat → Option Nat} {pages : Nat → Option (BitVec 64)}

/-- After boot there is no process. -/
theorem boot_stacked (policy : SchedulerPolicy) (cpuCount : Nat) (pmm : PhysicalMemoryManager)
    (memory : Nat → PageTableEntry) (processes : Nat → Process) (records : Nat → ProcessRecord) :
    ∃ table, Stacked (reservedFrames pmm) 0
      (bootKernel policy cpuCount (bootMemory pmm memory) processes records) table fun _ => none := by
  obtain ⟨-, table, backed, built⟩ := bootMemory_backed pmm memory
  refine ⟨table, backed, rfl, List.nodup_nil, ?_, List.nodup_nil, ?_, ?_, ?_⟩
  · exact fun _ wrong => absurd wrong List.not_mem_nil
  · exact fun _ wrong => absurd wrong List.not_mem_nil
  · exact fun _ wrong => by cases wrong
  · exact fun level number addr here => Or.inl (built level number addr here)

/-- The state is in order after the processor has been given to others. -/
theorem Stacked.keep (stacked : Stacked reserved made kernel table pages)
    (keeps : kernel.KeepsStacks after) : Stacked reserved made after table pages := by
  have same : after.pidOf = kernel.pidOf := funext fun process => (keeps.records process).1
  refine ⟨keeps.memory ▸ stacked.backed, keeps.next ▸ stacked.next, keeps.list ▸ stacked.nodup, ?_, ?_,
    ?_, ?_, stacked.tables⟩
  · intro process live
    rw [keeps.list] at live
    obtain ⟨low, high, stack, regions⟩ := stacked.placed process live
    obtain ⟨-, sameStack, sameRegions⟩ := keeps.records process
    rw [same, sameStack, sameRegions]
    exact ⟨low, high, stack, regions⟩
  · rw [same, keeps.list]
    exact stacked.distinct
  · rw [same, keeps.list]
    exact stacked.inside
  · rw [same, keeps.list]
    exact stacked.outside

/-- Creating a process takes what memory it takes for the stack, whether it fails or not. -/
theorem createProcess_memory {address : Nat} {pid : Int}
    (created : kernel.createProcess address = .ok (pid, after)) :
    after.memory = (kernel.memory.backPages (kernelStackBase kernel.nextPid) kernelStackPages).2 := by
  unfold createProcess at created
  dsimp only at created
  cases backed : kernel.memory.backPages (kernelStackBase kernel.nextPid) kernelStackPages with
  | mk failed memory =>
    rw [backed] at created
    cases failed with
    | some reached =>
      -- A new process has no stack and no regions to clean up.
      simp only [cleanupProcessMemory, Function.update_self, newRecord, PagedMemory.releaseRegions,
        Run.ok_bind, Run.pure_eq, if_true] at created
      cases created
      rfl
    | none =>
      cases created
      exact (addProcess_frame _ address).2.2.1

/-- With enough frames a new process is listed, with its number and its stack. -/
theorem createProcess_listed {address : Nat} {pid : Int}
    (created : kernel.createProcess address = .ok (pid, after))
    (backed : (kernel.memory.backPages (kernelStackBase kernel.nextPid) kernelStackPages).1 = none) :
    after.processList = address :: kernel.processList ∧
      after.nextPid = asInt32 (kernel.nextPid + 1) ∧
      after.records = Function.update kernel.records address
        { newRecord kernel.nextPid with
          kernelStack := kernelStackBase kernel.nextPid + BitVec.ofNat 64 kernelStackSize } := by
  unfold createProcess at created
  dsimp only at created
  cases taken : kernel.memory.backPages (kernelStackBase kernel.nextPid) kernelStackPages with
  | mk failed memory =>
    rw [taken] at created backed
    obtain rfl : failed = none := backed
    cases created
    obtain ⟨list, -, -, next, records, -⟩ := addProcess_frame { kernel with
      nextPid := asInt32 (kernel.nextPid + 1)
      processes := Function.update kernel.processes address ⟨.ready, 0⟩
      memory := memory
      records := Function.update (Function.update kernel.records address (newRecord kernel.nextPid))
        address { newRecord kernel.nextPid with
          kernelStack := kernelStackBase kernel.nextPid + BitVec.ofNat 64 kernelStackSize }
      processList := address :: kernel.processList
      currentProcess := if kernel.currentProcess = 0 then address else kernel.currentProcess } address
    simp only [Function.update_self]
    exact ⟨list, next, records.trans (Function.update_idem ..)⟩

/-- No page of the next stack is mapped yet. -/
theorem Stacked.absent (stacked : Stacked reserved made kernel table pages) (few : made + 1 < 131072) :
    ∀ index < kernelStackPages, pages (stackPage kernel.nextPid + index) = none := by
  intro index inside
  have number := stacked.next
  have four : index < 4 := inside
  by_contra mapped
  obtain ⟨pid', low, high, whose⟩ := stacked.outside _ (Option.isSome_iff_ne_none.mpr mapped)
  simp only [stackPage] at low high
  rcases whose with ⟨process, live, rfl⟩ | ⟨rfl, below⟩
  · obtain ⟨positive, below, -⟩ := stacked.placed process live
    omega
  · simp only [lastPid] at low high below
    omega

/-- Creating a process keeps the state in order, if the allocator gives every frame asked for. -/
theorem Stacked.create (stacked : Stacked reserved made kernel table pages) (few : made + 1 < 131072)
    {address : Nat} {pid : Int} (fresh : address ∉ kernel.processList)
    (created : kernel.createProcess address = .ok (pid, after)) (given : 0 ∉ after.memory.answers) :
    ∃ table' pages', Stacked reserved (made + 1) after table' pages' := by
  have number := stacked.next
  have window := window_stack (show 1 ≤ kernel.nextPid by omega) (by omega)
  have absent := stacked.absent few
  have memory := createProcess_memory created
  rw [memory] at given
  obtain ⟨reached, table', pages', backed', same, inside, built⟩ :=
    stacked.backed.backPages window absent given
  obtain ⟨list, next, records⟩ := createProcess_listed created reached
  have mine : after.pidOf address = made + 1 := by
    rw [pidOf, records, Function.update_self]
    exact number
  have others : ∀ process ∈ kernel.processList, after.records process = kernel.records process := by
    intro process live
    have apart : process ≠ address := by
      rintro rfl
      exact fresh live
    rw [records, Function.update_of_ne apart]
  have numbers : ∀ process ∈ kernel.processList, after.pidOf process = kernel.pidOf process :=
    fun process live => congrArg ProcessRecord.pid (others process live)
  refine ⟨table', pages', memory ▸ backed', ?_, ?_, ?_, ?_, ?_, ?_, ?_⟩
  · rw [next, number, asInt32_of_small (by omega) (by omega)]
    omega
  · rw [list]
    exact List.nodup_cons.mpr ⟨fresh, stacked.nodup⟩
  · intro process live
    rw [list] at live
    rcases List.mem_cons.mp live with rfl | old
    · rw [mine, records, Function.update_self]
      exact ⟨by omega, by omega, by rw [number], rfl⟩
    · obtain ⟨low, high, rest⟩ := stacked.placed process old
      rw [numbers process old, others process old]
      exact ⟨low, by omega, rest⟩
  · rw [list, List.map_cons, List.map_congr_left numbers, mine]
    refine List.nodup_cons.mpr ⟨fun again => ?_, stacked.distinct⟩
    obtain ⟨process, live, equal⟩ := List.mem_map.mp again
    have below := (stacked.placed process live).2.1
    omega
  · intro process live index four
    rw [list] at live
    rcases List.mem_cons.mp live with rfl | old
    · rw [mine, ← number]
      exact inside index four
    · obtain ⟨positive, below, -⟩ := stacked.placed process old
      rw [numbers process old]
      -- Its pages lie outside the new window.
      have still := congrFun same (stackPage (kernel.pidOf process) + index)
      have apart : ¬ (stackPage kernel.nextPid ≤ stackPage (kernel.pidOf process) + index ∧
          stackPage (kernel.pidOf process) + index < stackPage kernel.nextPid + kernelStackPages) := by
        simp only [stackPage, show kernelStackPages = 4 from rfl]
        omega
      rw [withoutPages, withoutPages, if_neg apart, if_neg apart] at still
      rw [still]
      exact stacked.inside process old index four
  · intro page mapped
    by_cases new : stackPage kernel.nextPid ≤ page ∧ page < stackPage kernel.nextPid + kernelStackPages
    · refine ⟨kernel.nextPid, new.1, new.2, Or.inl ⟨address, ?_, by rw [mine, number]⟩⟩
      rw [list]
      exact List.mem_cons_self
    · have still := congrFun same page
      rw [withoutPages, withoutPages, if_neg new, if_neg new] at still
      rw [still] at mapped
      obtain ⟨pid', low, high, whose⟩ := stacked.outside page mapped
      refine ⟨pid', low, high, whose.imp ?_ (And.imp_right fun below => by omega)⟩
      rintro ⟨process, live, equal⟩
      refine ⟨process, ?_, by rw [numbers process live, equal]⟩
      rw [list]
      exact List.mem_cons_of_mem _ live
  · intro level number' addr here
    rcases built level number' addr here with before | ⟨upper, index, few', place⟩
    · exact stacked.tables level number' addr before
    · have four : index < 4 := few'
      exact Or.inr ⟨upper, _, by simp only [stackPage]; omega, by simp only [stackPage]; omega, place⟩

/-- Cleaning up a process without regions releases the pages of its stack, unless that ends at zero. -/
theorem cleanupProcessMemory_eq (kernel : Kernel) {process : Nat}
    (regions : (kernel.records process).memoryRegions = []) :
    kernel.cleanupProcessMemory process = .ok { kernel with
      memory := if (kernel.records process).kernelStack = 0#64 then kernel.memory
        else kernel.memory.releasePages
          ((kernel.records process).kernelStack - BitVec.ofNat 64 kernelStackSize) kernelStackPages
      records := Function.update kernel.records process
        { kernel.records process with memoryRegions := [], kernelStack := 0#64 } } := by
  rw [cleanupProcessMemory, regions]
  rfl

/-- The memory after a process number has been terminated. -/
def releaseStack (memory : PagedMemory) (pid : Int) : PagedMemory :=
  if pid = lastPid then memory else memory.releasePages (kernelStackBase pid) kernelStackPages

/-- Only one live process has its number. -/
theorem Stacked.pidOf_inj (stacked : Stacked reserved made kernel table pages) {process other : Nat}
    (live : process ∈ kernel.processList) (live' : other ∈ kernel.processList)
    (same : kernel.pidOf process = kernel.pidOf other) : process = other :=
  List.inj_on_of_nodup_map stacked.distinct live live' same

/-- Terminating a live process unlists it and releases its stack, unless that is the last one there is. -/
theorem Stacked.terminated (stacked : Stacked reserved made kernel table pages) (few : made < 131072)
    {process cpuId ticks : Nat} (live : process ∈ kernel.processList)
    (terminated : kernel.terminateProcess (kernel.pidOf process) cpuId ticks = .ok after) :
    after.processList = kernel.processList.erase process ∧
      after.memory = releaseStack kernel.memory (kernel.pidOf process) ∧
      after.nextPid = kernel.nextPid ∧ ∀ other ≠ process,
        (after.records other).pid = (kernel.records other).pid ∧
        (after.records other).kernelStack = (kernel.records other).kernelStack ∧
        (after.records other).memoryRegions = (kernel.records other).memoryRegions := by
  obtain ⟨low, high, stack, regions⟩ := stacked.placed process live
  -- The number leads to this process.
  have found : kernel.getProcess (kernel.pidOf process) = some process := by
    cases searched : kernel.getProcess (kernel.pidOf process) with
    | none =>
      have missed := List.find?_eq_none.mp searched process live
      simp [pidOf] at missed
    | some other =>
      have same := List.find?_some searched
      rw [beq_iff_eq] at same
      rw [stacked.pidOf_inj (List.mem_of_find?_eq_some searched) live same]
  rcases terminateProcess_found terminated with
    ⟨missing, -⟩ | ⟨process', cleaned, found', cleanup, list, next, keeps⟩
  · rw [found] at missing
    cases missing
  obtain rfl := Option.some.inj (found.symm.trans found')
  have records : (kernel.removeProcess process).records = kernel.records := by rw [removeProcess_frame]
  have memory : (kernel.removeProcess process).memory = kernel.memory := by rw [removeProcess_frame]
  have regions' : ({ kernel.removeProcess process with
      processList := kernel.processList.erase process }.records process).memoryRegions = [] := by
    rw [← regions, ← records]
  rw [cleanupProcessMemory_eq _ regions'] at cleanup
  have equal := Except.ok.inj cleanup
  have released : cleaned.memory = releaseStack kernel.memory (kernel.pidOf process) := by
    rw [← equal, releaseStack]
    simp only [records, memory, stack, stackEnd_eq_zero_iff low (show _ < 131072 by omega),
      BitVec.add_sub_cancel]
  have written : cleaned.records = Function.update kernel.records process
      { kernel.records process with memoryRegions := [], kernelStack := 0#64 } := by
    rw [← equal]
    simp only [records]
  have kept : ∀ other ≠ process, cleaned.records other = kernel.records other := fun other apart => by
    rw [written, Function.update_of_ne apart]
  refine ⟨keeps.list.trans list, keeps.memory.trans released, keeps.next.trans next,
    fun other apart => ?_⟩
  · obtain ⟨pid, stack', regions''⟩ := keeps.records other
    rw [pid, stack', regions'', kept other apart]
    exact ⟨rfl, rfl, rfl⟩

/-- A page of a live process's stack is translated to the frame that the map shows for it. -/
theorem Stacked.frameOf (stacked : Stacked reserved made kernel table pages) (few : made < 131072)
    {process : Nat} (live : process ∈ kernel.processList) {index : Nat} (four : index < 4) :
    pages (stackPage (kernel.pidOf process) + index) =
      some (kernel.stackFrame (kernel.pidOf process) index) := by
  obtain ⟨low, high, -⟩ := stacked.placed process live
  have window := window_stack low (show kernel.pidOf process < 131072 by omega)
  have page := window.numbered index four
  obtain ⟨physicalAddr, backs⟩ := Option.isSome_iff_exists.mp (stacked.inside process live index four)
  have ordinary : 4096 ≤ pageNumber (pageAt (kernelStackBase (kernel.pidOf process)) index) := by
    rw [page]
    exact Nat.le_add_right_of_le window.ordinary
  have looked := stacked.backed.getPhysicalAddress ordinary
  rw [page, backs, Option.getD_some] at looked
  rw [backs, stackFrame, looked]

/-- Live processes own their stacks. -/
theorem Stacked.ownsStacks (stacked : Stacked reserved made kernel table pages) (few : made < 131072) :
    kernel.OwnsStacks := by
  refine ⟨stacked.distinct, fun process live index four => ?_, ?_⟩
  · have shown := stacked.frameOf few live four
    exact ⟨stacked.backed.nonzero shown, (stacked.backed.mapped _ _ shown).1⟩
  · intro process live other live' i four j four' same
    have shown := stacked.frameOf few live four
    have shown' := stacked.frameOf few live' four'
    rw [← same] at shown'
    -- The same frame is behind the same page, and each number has pages of its own.
    have page := stacked.backed.unshared _ _ _ shown shown'
    obtain ⟨low, -⟩ := stacked.placed process live
    obtain ⟨low', -⟩ := stacked.placed other live'
    simp only [stackPage] at page
    exact ⟨stacked.pidOf_inj live live' (by omega), by omega⟩

/-- The pages that are mapped after a process number has been terminated. -/
def pagesLeft (pages : Nat → Option (BitVec 64)) (pid : Int) : Nat → Option (BitVec 64) :=
  if pid = lastPid then pages else withoutPages pages (stackPage pid) kernelStackPages

/-- Terminating a live process keeps the state in order. -/
theorem Stacked.terminate (stacked : Stacked reserved made kernel table pages) (few : made < 131072)
    {process cpuId ticks : Nat} (live : process ∈ kernel.processList)
    (terminated : kernel.terminateProcess (kernel.pidOf process) cpuId ticks = .ok after) :
    Stacked reserved made after table (pagesLeft pages (kernel.pidOf process)) := by
  obtain ⟨list, memory, next, records⟩ := stacked.terminated few live terminated
  obtain ⟨low, high, -⟩ := stacked.placed process live
  have window := window_stack low (show kernel.pidOf process < 131072 by omega)
  have backed : Backed reserved after.memory table (pagesLeft pages (kernel.pidOf process)) := by
    rw [memory, releaseStack, pagesLeft]
    split
    · exact stacked.backed
    · exact (stacked.backed.releasePages window).1
  -- The processes that are left are other ones, with the numbers they had.
  have before : ∀ other ∈ after.processList, other ∈ kernel.processList ∧ other ≠ process := by
    intro other member
    rw [list] at member
    refine ⟨List.mem_of_mem_erase member, ?_⟩
    rintro rfl
    exact stacked.nodup.not_mem_erase member
  have numbers : ∀ other ∈ after.processList, after.pidOf other = kernel.pidOf other :=
    fun other member => (records other (before other member).2).1
  have apart : ∀ other ∈ after.processList, kernel.pidOf other ≠ kernel.pidOf process := by
    intro other member same
    exact (before other member).2 (stacked.pidOf_inj (before other member).1 live same)
  refine ⟨backed, next.trans stacked.next, ?_, ?_, ?_, ?_, ?_, stacked.tables⟩
  · rw [list]
    exact stacked.nodup.erase process
  · intro other member
    obtain ⟨low', high', stack, regions⟩ := stacked.placed other (before other member).1
    obtain ⟨-, stack', regions'⟩ := records other (before other member).2
    rw [numbers other member, stack', regions']
    exact ⟨low', high', stack, regions⟩
  · rw [List.map_congr_left numbers, list]
    exact stacked.distinct.sublist (List.erase_sublist.map kernel.pidOf)
  · intro other member index four
    have still := stacked.inside other (before other member).1 index four
    have differs := apart other member
    have low' := (stacked.placed other (before other member).1).1
    rw [numbers other member, pagesLeft]
    split
    · exact still
    · rw [withoutPages, if_neg]
      · exact still
      · simp only [stackPage, show kernelStackPages = 4 from rfl]
        omega
  · intro page mapped
    have was : (pages page).isSome ∧ (kernel.pidOf process = lastPid ∨
        ¬ (stackPage (kernel.pidOf process) ≤ page ∧ page < stackPage (kernel.pidOf process) + 4)) := by
      rw [pagesLeft] at mapped
      split at mapped
      · rename_i last
        exact ⟨mapped, Or.inl last⟩
      · rw [withoutPages] at mapped
        split at mapped
        · cases mapped
        · rename_i outside
          exact ⟨mapped, Or.inr outside⟩
    obtain ⟨pid, from', to', whose⟩ := stacked.outside page was.1
    refine ⟨pid, from', to', ?_⟩
    rcases whose with ⟨other, live', rfl⟩ | last
    · by_cases same : other = process
      · -- Its own pages are still mapped only if they are the last ones there are.
        subst same
        rcases was.2 with last | outside
        · exact Or.inr ⟨last, high⟩
        · exact absurd ⟨from', to'⟩ outside
      · have member : other ∈ after.processList := by
          rw [list]
          exact (List.mem_erase_of_ne same).mpr live'
        exact Or.inl ⟨other, member, numbers other member⟩
    · exact Or.inr last

/-- Termination returns the stack exactly if that is not the last one there is. -/
theorem Stacked.returnsStack_iff (stacked : Stacked reserved made kernel table pages)
    (few : made < 131072) {process cpuId ticks : Nat} (live : process ∈ kernel.processList)
    (terminated : kernel.terminateProcess (kernel.pidOf process) cpuId ticks = .ok after) :
    kernel.ReturnsStack after process ↔ kernel.pidOf process ≠ lastPid := by
  obtain ⟨list, memory, -, -⟩ := stacked.terminated few live terminated
  obtain ⟨low, high, -⟩ := stacked.placed process live
  have window := window_stack low (show kernel.pidOf process < 131072 by omega)
  constructor
  · rintro returns last
    -- The memory has not changed, so the first page is still mapped.
    have still : after.stackFrame (kernel.pidOf process) 0 = kernel.stackFrame (kernel.pidOf process) 0 := by
      rw [stackFrame, memory, releaseStack, if_pos last, stackFrame]
    have mapped := ((stacked.ownsStacks few).mapped process live 0 (by decide)).1
    exact mapped (still ▸ returns.unmapped 0 (by decide))
  · intro other
    rw [releaseStack, if_neg other] at memory
    obtain ⟨backed, left⟩ := stacked.backed.releasePages window
    refine ⟨list, fun index four => ?_, fun addr => ?_⟩
    · have page := window.numbered index four
      have ordinary : 4096 ≤ pageNumber (pageAt (kernelStackBase (kernel.pidOf process)) index) := by
        rw [page]
        exact Nat.le_add_right_of_le window.ordinary
      have looked := backed.getPhysicalAddress ordinary
      rw [page, withoutPages, if_pos ⟨Nat.le_add_right _ _, Nat.add_lt_add_left four _⟩] at looked
      rw [stackFrame, memory, looked]
      rfl
    · rw [memory, left addr]
      refine and_congr_right fun _ => forall_congr' fun index => forall_congr' fun four => ?_
      rw [stacked.frameOf few live four]
      exact ⟨fun all => all _ rfl, fun apart physicalAddr same => Option.some.inj same ▸ apart⟩

/-- Releasing regions asks the allocator for nothing. -/
theorem releaseRegions_answers {memory released : PagedMemory} (regions : List MemoryRegion)
    (returned : memory.releaseRegions regions = .ok released) :
    released.answers = memory.answers := by
  have range : ∀ (stop : BitVec 64) (fuel : Nat) (addr : BitVec 64) (memory released : PagedMemory),
      memory.releaseRange stop fuel addr = .ok released → released.answers = memory.answers := by
    -- By induction on the rounds.
    intro stop fuel
    induction fuel with
    | zero => exact fun _ _ _ wrong => by cases wrong
    | succ fuel ih =>
      intro addr memory released returned
      rw [PagedMemory.releaseRange] at returned
      split at returned
      · exact (ih _ _ _ returned).trans (releasePage_answers memory addr)
      · cases returned
        rfl
  -- By induction on the regions.
  induction regions generalizing memory with
  | nil =>
    cases returned
    rfl
  | cons region regions ih =>
    obtain ⟨middle, first, rest⟩ := Run.bind_eq_ok.mp returned
    exact (ih rest).trans (range _ _ _ _ _ first)

/-- Terminating a process asks the allocator for nothing. -/
theorem terminateProcess_answers {pid : Int} {cpuId ticks : Nat}
    (terminated : kernel.terminateProcess pid cpuId ticks = .ok after) :
    after.memory.answers = kernel.memory.answers := by
  rcases terminateProcess_found terminated with ⟨-, rfl⟩ | ⟨process, cleaned, -, cleanup, -, -, keeps⟩
  · rfl
  · obtain ⟨memory, released, rest⟩ := Run.bind_eq_ok.mp cleanup
    have answers := releaseRegions_answers _ released
    rw [show (kernel.removeProcess process).memory = kernel.memory by rw [removeProcess_frame]] at answers
    cases rest
    rw [keeps.memory, ← answers]
    dsimp only
    split
    · rfl
    · exact releasePages_answers _ _ _

/-- What the allocator has answered stays answered in a call on processes. -/
theorem perform_answers {call : KernelCall} (allowed : call.OnProcesses)
    (performed : kernel.perform call = some after) :
    ∃ frames, after.memory.answers = kernel.memory.answers ++ frames := by
  cases call with
  | createProcess address =>
    simp only [perform] at performed
    split at performed
    · cases performed
    · cases created : kernel.createProcess address with
      | error fault =>
        rw [created] at performed
        cases performed
      | ok result =>
        rw [created] at performed
        cases performed
        rw [createProcess_memory created]
        exact backPages_extends _ _ _
  | terminateProcess pid cpuId ticks =>
    have terminated := Run.toOption_eq_some.mp performed
    exact ⟨[], by rw [terminateProcess_answers terminated, List.append_nil]⟩
  | _ => exact absurd allowed id

/-- Every call on processes keeps the state in order, if the allocator gives every frame asked for. -/
theorem Stacked.perform (stacked : Stacked reserved made kernel table pages) {call : KernelCall}
    (allowed : call.OnProcesses) (few : made + (if call.creates then 1 else 0) < 131072)
    (performed : kernel.perform call = some after) (given : 0 ∉ after.memory.answers) :
    ∃ table' pages', Stacked reserved (made + if call.creates then 1 else 0) after table' pages' := by
  cases call with
  | createProcess address =>
    simp only [Kernel.perform] at performed
    split at performed
    · cases performed
    · rename_i new
      cases created : kernel.createProcess address with
      | error fault =>
        rw [created] at performed
        cases performed
      | ok result =>
        rw [created] at performed
        cases performed
        exact stacked.create few (fun live => new (Or.inr live)) created given
  | terminateProcess pid cpuId ticks =>
    have terminated := Run.toOption_eq_some.mp performed
    cases found : kernel.getProcess pid with
    | none =>
      rw [Kernel.terminateProcess, found] at terminated
      cases terminated
      exact ⟨table, pages, stacked⟩
    | some process =>
      have same := List.find?_some found
      rw [beq_iff_eq] at same
      have small : made < 131072 := few
      exact ⟨table, _, stacked.terminate small (List.mem_of_find?_eq_some found)
        (show kernel.terminateProcess (kernel.pidOf process) cpuId ticks = .ok after by
          rw [pidOf, same]; exact terminated)⟩
  | _ => exact absurd allowed id

/-- What the allocator has answered stays answered in every run. -/
theorem run_answers (calls : List KernelCall) (allowed : ∀ call ∈ calls, call.OnProcesses)
    {kernel after : Kernel} (ran : kernel.run calls = some after) :
    ∃ frames, after.memory.answers = kernel.memory.answers ++ frames := by
  -- By induction on the calls.
  induction calls generalizing kernel with
  | nil =>
    cases ran
    exact ⟨[], (List.append_nil _).symm⟩
  | cons call calls ih =>
    obtain ⟨next, performed, rest⟩ := Calls.run_cons.mp ran
    obtain ⟨first, answered⟩ := perform_answers (allowed call List.mem_cons_self) performed
    obtain ⟨others, answered'⟩ := ih (fun other member => allowed other (List.mem_cons_of_mem _ member)) rest
    exact ⟨first ++ others, by rw [answered', answered, List.append_assoc]⟩

/-- A run of calls on processes keeps the state in order, if every frame asked for is given. -/
theorem Stacked.run (calls : List KernelCall) (allowed : ∀ call ∈ calls, call.OnProcesses)
    {made : Nat} {kernel after : Kernel} {table : Nat → Nat → Option Nat}
    {pages : Nat → Option (BitVec 64)} (stacked : Stacked reserved made kernel table pages)
    (few : made + calls.countP KernelCall.creates < 131072)
    (ran : kernel.run calls = some after) (given : 0 ∉ after.memory.answers) :
    ∃ table' pages', Stacked reserved (made + calls.countP KernelCall.creates) after table' pages' := by
  -- By induction on the calls, from the state that the first one leads to.
  induction calls generalizing kernel made table pages with
  | nil =>
    cases ran
    exact ⟨table, pages, stacked⟩
  | cons call calls ih =>
    obtain ⟨next, performed, rest⟩ := Calls.run_cons.mp ran
    have others : ∀ other ∈ calls, other.OnProcesses :=
      fun other member => allowed other (List.mem_cons_of_mem _ member)
    obtain ⟨frames, answered⟩ := run_answers calls others rest
    rw [List.countP_cons] at few ⊢
    obtain ⟨table', pages', stacked'⟩ := stacked.perform (allowed call List.mem_cons_self)
      (by omega) performed fun null => given (by rw [answered]; exact List.mem_append_left _ null)
    have more := ih others stacked' (by omega) rest
    rwa [Nat.add_assoc, Nat.add_comm (if call.creates then 1 else 0)] at more

/--
Live processes own their kernel stacks after every run that creates and terminates processes, and a
termination returns the stack exactly if its number is not 131071.

Fewer than 131072 processes have been created since boot, and the allocator never answered null.
-/
theorem kernel_stacks_run (policy : SchedulerPolicy) (cpuCount : Nat) (pmm : PhysicalMemoryManager)
    (memory : Nat → PageTableEntry) (processes : Nat → Process) (records : Nat → ProcessRecord)
    (calls : List KernelCall) (allowed : ∀ call ∈ calls, call.OnProcesses)
    (few : calls.countP KernelCall.creates < 131072) (kernel : Kernel)
    (ran : (bootKernel policy cpuCount (bootMemory pmm memory) processes records).run calls =
      some kernel) (given : 0 ∉ kernel.memory.answers) :
    kernel.OwnsStacks ∧ ∀ process ∈ kernel.processList, ∀ cpuId ticks after,
      kernel.terminateProcess (kernel.pidOf process) cpuId ticks = .ok after →
        (kernel.ReturnsStack after process ↔ kernel.pidOf process ≠ lastPid) := by
  obtain ⟨table, boot⟩ := boot_stacked policy cpuCount pmm memory processes records
  obtain ⟨table', pages', stacked⟩ := boot.run calls allowed (by omega) ran given
  have small : 0 + calls.countP KernelCall.creates < 131072 := by omega
  exact ⟨stacked.ownsStacks small, fun process live cpuId ticks after terminated =>
    stacked.returnsStack_iff small live terminated⟩

/-- The first of the tables that lead to stacks directly. -/
def firstStackTable : Nat := 0x7FFFC00

/-- The tables there can be, of which there are few. -/
def stackTables : Finset (Nat × Nat) :=
  {(0, 0), (1, 0), (2, 0), (1, 511), (2, 0x3FFFE), (2, 0x3FFFF)} ∪
    (Finset.range 1024).image fun index => (3, firstStackTable + index)

/-- They are a thousand and thirty at most. -/
theorem card_stackTables : stackTables.card ≤ 1030 := by
  have leaves : ((Finset.range 1024).image fun index => (3, firstStackTable + index)).card ≤ 1024 := by
    have image := Finset.card_image_le (s := Finset.range 1024)
      (f := fun index => ((3 : Nat), firstStackTable + index))
    rwa [Finset.card_range] at image
  have inner : Finset.card {((0 : Nat), (0 : Nat)), (1, 0), (2, 0), (1, 511), (2, 0x3FFFE),
      (2, 0x3FFFF)} ≤ 6 := Finset.card_le_six
  exact (Finset.card_union_le _ _).trans (Nat.add_le_add inner leaves)

/-- Every table is one of them. -/
theorem stackTable_mem {level number : Nat} (possible : StackTable level number) :
    (level, number) ∈ stackTables := by
  rw [stackTables, Finset.mem_union]
  rcases possible with boot | ⟨upper, page, low, high, rfl⟩
  · left
    simp only [List.mem_cons, List.not_mem_nil, or_false] at boot
    simp only [Finset.mem_insert, Finset.mem_singleton]
    tauto
  · have low' : 0xFFFF80000 ≤ page := low
    have high' : page < 68719476736 := high
    obtain rfl | rfl | rfl | rfl : level = 0 ∨ level = 1 ∨ level = 2 ∨ level = 3 := by omega
    · left
      have same : page / 512 ^ (4 - 0) = 0 := by
        rw [show 512 ^ (4 - 0) = 68719476736 from rfl]
        omega
      rw [same]
      simp
    · left
      have same : page / 512 ^ (4 - 1) = 511 := by
        rw [show 512 ^ (4 - 1) = 134217728 from rfl]
        omega
      rw [same]
      simp
    · left
      obtain same | same : page / 512 ^ (4 - 2) = 0x3FFFE ∨ page / 512 ^ (4 - 2) = 0x3FFFF := by
        rw [show 512 ^ (4 - 2) = 262144 from rfl]
        omega
      · rw [same]
        simp
      · rw [same]
        simp
    · right
      obtain ⟨index, small, same⟩ : ∃ index < 1024, page / 512 ^ (4 - 3) = firstStackTable + index := by
        refine ⟨page / 512 - firstStackTable, ?_, ?_⟩
        · rw [firstStackTable]
          omega
        · rw [show 512 ^ (4 - 3) = 512 from rfl, firstStackTable]
          omega
      rw [same]
      exact Finset.mem_image_of_mem _ (Finset.mem_range.mpr small)

/-- The frame that a table lies in. -/
def tableFrame (table : Nat → Nat → Option Nat) (place : Nat × Nat) : Nat :=
  ((table place.1 place.2).getD 0 - kernelMemoryStart) / pageSize

/-- The frame of a table whose address is that of a frame. -/
theorem tableFrame_of_place {level number frame : Nat}
    (here : table level number = some (kernelMemoryStart + pageSize * frame)) :
    tableFrame table (level, number) = frame := by
  rw [tableFrame, here, Option.getD_some]
  generalize kernelMemoryStart = start
  rw [show pageSize = 4096 from rfl]
  omega

/-- With no page mapped there are always frames left. -/
theorem Stacked.freeFrames_of_idle {pmm : PhysicalMemoryManager}
    (stacked : Stacked (reservedFrames pmm) made kernel table fun _ => none) :
    10990 ≤ kernel.memory.pmm.freeFrames := by
  obtain ⟨manages, available⟩ := pmm.initializeFrames_manages
  have now := stacked.backed.manages
  -- Only tables have been taken since boot, and there are few of them.
  have more := manages.freeFrames_le now (stackTables.image (tableFrame table)) (by
    intro frame used
    rcases stacked.backed.accounted _ used with before | ⟨level, number, here⟩ | ⟨_, _, here, -⟩
    · rw [now.starts, ← manages.starts] at before
      exact Or.inl before
    · rw [now.starts] at here
      exact Or.inr (Finset.mem_image.mpr ⟨(level, number),
        stackTable_mem (stacked.tables _ _ _ here), tableFrame_of_place here⟩)
    · cases here)
  have few := card_stackTables
  have image : (stackTables.image (tableFrame table)).card ≤ stackTables.card := Finset.card_image_le
  omega

/-- Between two processes: the memory is in order, no process is left, and frames have always been given. -/
structure Idle (pmm : PhysicalMemoryManager) (made : Nat) (kernel : Kernel) : Prop where
  /-- No page is mapped. -/
  stacked : ∃ table, Stacked (reservedFrames pmm) made kernel table fun _ => none
  /-- No process is live. -/
  list : kernel.processList = []
  /-- None is running. -/
  current : kernel.currentProcess = 0
  /-- Every frame asked for has been given. -/
  given : 0 ∉ kernel.memory.answers

/-- With frames to spare a process is created, and runs if none did. -/
theorem Stacked.createProcess_returns (stacked : Stacked reserved made kernel table pages)
    (few : made + 1 < 131072) (given : 0 ∉ kernel.memory.answers)
    (available : 16 ≤ kernel.memory.pmm.freeFrames) (current : kernel.currentProcess = 0)
    (address : Nat) :
    ∃ created, kernel.createProcess address = .ok (kernel.nextPid, created) ∧
      created.currentProcess = address ∧ created.processList = address :: kernel.processList ∧
      0 ∉ created.memory.answers := by
  have number := stacked.next
  have enough : 4 * kernelStackPages ≤ kernel.memory.pmm.freeFrames := available
  obtain ⟨-, nonzero, -⟩ :=
    backPages_available stacked.backed.manages given (kernelStackBase kernel.nextPid) enough
  obtain ⟨reached, -⟩ := stacked.backed.backPages (window_stack (by omega) (by omega))
    (stacked.absent few) nonzero
  unfold createProcess
  dsimp only
  cases taken : kernel.memory.backPages (kernelStackBase kernel.nextPid) kernelStackPages with
  | mk failed memory =>
    rw [taken] at reached nonzero
    obtain rfl : failed = none := reached
    obtain ⟨list, -, sameMemory, -, -, sameCurrent⟩ := addProcess_frame { kernel with
      nextPid := asInt32 (kernel.nextPid + 1)
      processes := Function.update kernel.processes address ⟨.ready, 0⟩
      memory := memory
      records := Function.update (Function.update kernel.records address (newRecord kernel.nextPid))
        address { newRecord kernel.nextPid with
          kernelStack := kernelStackBase kernel.nextPid + BitVec.ofNat 64 kernelStackSize }
      processList := address :: kernel.processList
      currentProcess := if kernel.currentProcess = 0 then address else kernel.currentProcess } address
    simp only [Function.update_self]
    refine ⟨_, rfl, ?_, list, ?_⟩
    · rw [sameCurrent, if_pos current]
    · rw [sameMemory]
      exact nonzero

/-- The only live process is terminated, after which none runs. -/
theorem Stacked.terminateProcess_returns (stacked : Stacked reserved made kernel table pages)
    {process : Nat} (only : kernel.processList = [process]) (running : kernel.currentProcess = process)
    (cpuId ticks : Nat) :
    ∃ terminated, kernel.terminateProcess (kernel.pidOf process) cpuId ticks = .ok terminated ∧
      terminated.currentProcess = 0 := by
  have live : process ∈ kernel.processList := by
    rw [only]
    exact List.mem_singleton_self process
  have regions := (stacked.placed process live).2.2.2
  have found : kernel.getProcess (kernel.pidOf process) = some process := by
    simp [getProcess, only, pidOf]
  have frame := removeProcess_frame { kernel with processList := kernel.processList.erase process } process
  have regions' : (({ kernel with processList := kernel.processList.erase process }.removeProcess
      process).records process).memoryRegions = [] := by
    rw [frame]
    exact regions
  have current : ({ kernel with processList := kernel.processList.erase process }.removeProcess
      process).currentProcess = process := by
    rw [frame]
    exact running
  have list : ({ kernel with processList := kernel.processList.erase process }.removeProcess
      process).processList = [] := by
    rw [frame, only]
    simp
  rw [terminateProcess, found]
  simp only [cleanupProcessMemory_eq _ regions', Run.ok_bind, current, list, if_true, List.headD_nil,
    ne_eq, not_true_eq_false, if_false, Run.pure_eq]
  exact ⟨_, rfl, rfl⟩

/-- Creating a process and terminating it, as often as this. -/
def stackCycles (first : Int) : Nat → List KernelCall
  | 0 => []
  | count + 1 => .createProcess 4096 :: .terminateProcess first 0 0 :: stackCycles (first + 1) count

/-- They are calls on processes, one creation each. -/
theorem stackCycles_calls (first : Int) (count : Nat) :
    (∀ call ∈ stackCycles first count, call.OnProcesses) ∧
      (stackCycles first count).countP KernelCall.creates = count := by
  -- By induction on the rounds.
  induction count generalizing first with
  | zero => exact ⟨fun _ wrong => absurd wrong List.not_mem_nil, rfl⟩
  | succ count ih =>
    obtain ⟨allowed, counted⟩ := ih (first + 1)
    refine ⟨fun call member => ?_, ?_⟩
    · rcases List.mem_cons.mp member with rfl | member
      · trivial
      · rcases List.mem_cons.mp member with rfl | member
        · trivial
        · exact allowed call member
    · simp [stackCycles, List.countP_cons, counted, KernelCall.creates]

/-- Another process can be created between two. -/
theorem Idle.createProcess_returns {pmm : PhysicalMemoryManager} (idle : Idle pmm made kernel)
    (few : made + 1 < 131072) :
    ∃ created, kernel.perform (.createProcess 4096) = some created ∧
      created.processList = [4096] ∧ created.currentProcess = 4096 ∧
      created.pidOf 4096 = made + 1 ∧ 0 ∉ created.memory.answers ∧
      ∃ table pages, Stacked (reservedFrames pmm) (made + 1) created table pages := by
  obtain ⟨table, stacked⟩ := idle.stacked
  have available := stacked.freeFrames_of_idle
  have number := stacked.next
  obtain ⟨created, returned, running, list, given⟩ := stacked.createProcess_returns few idle.given
    (by omega) idle.current 4096
  rw [idle.list] at list
  have fresh : 4096 ∉ kernel.processList := by simp [idle.list]
  have window := window_stack (show 1 ≤ kernel.nextPid by omega) (by omega)
  have taken := (stacked.backed.backPages window (stacked.absent few)
    (by rw [← createProcess_memory returned]; exact given)).1
  obtain ⟨-, -, records⟩ := createProcess_listed returned taken
  refine ⟨created, ?_, list, running, ?_, given, stacked.create few fresh returned given⟩
  · rw [perform, if_neg (by simp [idle.list]), returned]
    rfl
  · rw [pidOf, records, Function.update_self]
    exact number

/-- One round of creation and termination. -/
theorem Idle.cycle {pmm : PhysicalMemoryManager} (idle : Idle pmm made kernel)
    (few : made + 1 < 131071) :
    ∃ created next, kernel.perform (.createProcess 4096) = some created ∧
      created.perform (.terminateProcess (made + 1) 0 0) = some next ∧ Idle pmm (made + 1) next := by
  obtain ⟨created, performed, list, running, reached, given, table, pages, stacked⟩ :=
    idle.createProcess_returns (by omega)
  have live : 4096 ∈ created.processList := by simp [list]
  obtain ⟨next, terminated, current⟩ := stacked.terminateProcess_returns list running 0 0
  have stacked' := stacked.terminate (by omega) live terminated
  have left := (stacked.terminated (by omega) live terminated).1
  rw [reached] at terminated
  have empty : next.processList = [] := by simp [left, list]
  refine ⟨created, next, performed, Run.toOption_eq_some.mpr terminated, ⟨table, ?_⟩, empty,
    current, ?_⟩
  · -- No page is left mapped.
    have nothing : pagesLeft pages (created.pidOf 4096) = fun _ => none := by
      funext page
      by_contra mapped
      obtain ⟨pid, -, -, ⟨process, wrong, -⟩ | ⟨rfl, below⟩⟩ :=
        stacked'.outside page (Option.isSome_iff_ne_none.mpr mapped)
      · rw [empty] at wrong
        exact absurd wrong List.not_mem_nil
      · simp only [lastPid] at below
        omega
    rwa [nothing] at stacked'
  · rw [terminateProcess_answers terminated]
    exact given

/-- As many rounds as there are numbers before the last. -/
theorem Idle.cycles {pmm : PhysicalMemoryManager} (count : Nat) {made : Nat} {kernel : Kernel}
    (idle : Idle pmm made kernel) (few : made + count < 131071) :
    ∃ next, kernel.run (stackCycles (made + 1) count) = some next ∧ Idle pmm (made + count) next := by
  -- By induction on the rounds, from the state the first one leads to.
  induction count generalizing made kernel with
  | zero => exact ⟨kernel, rfl, idle⟩
  | succ count ih =>
    obtain ⟨created, between, creation, termination, idle'⟩ := idle.cycle (by omega)
    obtain ⟨next, ran, reached⟩ := ih idle' (by omega)
    refine ⟨next, ?_, ?_⟩
    · refine Calls.run_cons.mpr ⟨created, creation, Calls.run_cons.mpr ⟨between, termination, ?_⟩⟩
      exact_mod_cast ran
    · rwa [show made + (count + 1) = made + 1 + count by omega]

/-- A kernel with one processor, booted in an empty memory. -/
def emptyKernel : Kernel :=
  bootKernel .roundRobin 1 (bootMemory ⟨fun _ => 0#32, 0, 0, 0⟩ fun _ => emptyEntry)
    (fun _ => ⟨.stopped, 0⟩) fun _ => newRecord 0

/-- It has no process yet. -/
theorem emptyKernel_idle : Idle ⟨fun _ => 0#32, 0, 0, 0⟩ 0 emptyKernel := by
  obtain ⟨given, -⟩ := bootMemory_backed ⟨fun _ => 0#32, 0, 0, 0⟩ fun _ => emptyEntry
  exact ⟨boot_stacked .roundRobin 1 ⟨fun _ => 0#32, 0, 0, 0⟩ (fun _ => emptyEntry)
    (fun _ => ⟨.stopped, 0⟩) (fun _ => newRecord 0), rfl, rfl, given⟩

/-- The termination of the process with the last number leaves its stack where it was. -/
theorem last_stack_kept : ∃ kernel after,
    emptyKernel.run (stackCycles 1 131070 ++ [.createProcess 4096]) = some kernel ∧
      0 ∉ kernel.memory.answers ∧ kernel.processList = [4096] ∧ kernel.pidOf 4096 = 131071 ∧
      kernel.terminateProcess 131071 0 0 = .ok after ∧ ¬ kernel.ReturnsStack after 4096 := by
  obtain ⟨idle, ran, still⟩ := emptyKernel_idle.cycles 131070 (by omega)
  rw [Int.natCast_zero, Int.zero_add] at ran
  obtain ⟨kernel, performed, list, running, number, given, table, pages, stacked⟩ :=
    still.createProcess_returns (by omega)
  have live : 4096 ∈ kernel.processList := by simp [list]
  have last : kernel.pidOf 4096 = lastPid := by
    rw [number, lastPid]
    omega
  obtain ⟨after, terminated, -⟩ := stacked.terminateProcess_returns list running 0 0
  refine ⟨kernel, after, Calls.run_append.mpr ⟨idle, ran, Calls.run_cons.mpr ⟨kernel, performed, rfl⟩⟩,
    given, list, last, by rwa [last] at terminated, fun returned => ?_⟩
  exact (stacked.returnsStack_iff (by omega) live terminated).mp returned last

/-- The first process owns its stack and gives it back. -/
theorem kernel_stacks_run_first : ∃ kernel after,
    emptyKernel.run [.createProcess 4096] = some kernel ∧ kernel.processList = [4096] ∧
      kernel.OwnsStacks ∧ kernel.terminateProcess (kernel.pidOf 4096) 0 0 = .ok after ∧
      kernel.ReturnsStack after 4096 := by
  obtain ⟨kernel, performed, list, running, number, given, table, pages, stacked⟩ :=
    emptyKernel_idle.createProcess_returns (by omega)
  have ran : emptyKernel.run [.createProcess 4096] = some kernel :=
    Calls.run_cons.mpr ⟨kernel, performed, rfl⟩
  have live : 4096 ∈ kernel.processList := by simp [list]
  obtain ⟨after, terminated, -⟩ := stacked.terminateProcess_returns list running 0 0
  obtain ⟨owns, returns⟩ := kernel_stacks_run .roundRobin 1 ⟨fun _ => 0#32, 0, 0, 0⟩
    (fun _ => emptyEntry) (fun _ => ⟨.stopped, 0⟩) (fun _ => newRecord 0) [.createProcess 4096]
    (by simp [KernelCall.OnProcesses]) (by decide) kernel ran given
  refine ⟨kernel, after, ran, list, owns, terminated, (returns 4096 live 0 0 after terminated).mpr ?_⟩
  rw [number, lastPid]
  omega

end Kernel

end Pocky
