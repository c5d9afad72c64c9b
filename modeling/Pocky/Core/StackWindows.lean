import Pocky.Core.StackLaws

/-! Kernel stacks lie apart at the end of the addresses, as long as process numbers fit there. -/

namespace Pocky

/-- Where the last two gibibytes of addresses start. -/
def topStart : Nat := 0xFFFFFFFF80000000

/-- Where the memory that is mapped to itself ends: behind eight huge pages. -/
def identityEnd : Nat := 8 * 0x200000

namespace PagedMemory

/-- Where the allocator has given every frame asked for, all pages are backed. -/
theorem backPages_done {memory : PagedMemory} {base : BitVec 64} {count : Nat}
    (given : 0 ∉ (memory.backPages base count).2.answers) :
    (memory.backPages base count).1 = none := by
  -- By induction on the number of pages.
  induction count with
  | zero => rfl
  | succ count ih =>
    obtain ⟨frames, answers⟩ := memory.backPages_answers base count
    have earlier := ih fun null => given (by rw [answers]; exact List.mem_append_left _ null)
    rw [backPages] at given ⊢
    generalize memory.backPages base count = before at earlier given
    obtain ⟨_ | reached, memory'⟩ := before
    · dsimp only at given ⊢
      split
      · rename_i null
        rw [if_pos null] at given
        exact absurd (List.mem_append_right _ (List.mem_singleton.mpr null.symm)) given
      · rfl
    · cases earlier

end PagedMemory

namespace Kernel

/-- The addresses for the stacks of live processes lie at the end and apart. -/
structure WindowsApart (kernel : Kernel) : Prop where
  /-- Each window lies in the last two gibibytes. -/
  inside : ∀ process ∈ kernel.processList,
    topStart ≤ (kernelStackBase (kernel.pidOf process)).toNat ∧
      (kernelStackBase (kernel.pidOf process)).toNat + kernelStackSize ≤ 2 ^ 64
  /-- Different processes share no address. -/
  apart : ∀ process ∈ kernel.processList, ∀ other ∈ kernel.processList, process ≠ other →
    ∀ i < kernelStackSize, ∀ j < kernelStackSize,
      kernelStackBase (kernel.pidOf process) + BitVec.ofNat 64 i ≠
        kernelStackBase (kernel.pidOf other) + BitVec.ofNat 64 j
  /-- No address is in the memory that is mapped to itself. -/
  high : ∀ process ∈ kernel.processList, ∀ i < kernelStackSize,
    identityEnd ≤ (kernelStackBase (kernel.pidOf process) + BitVec.ofNat 64 i).toNat

/-- A process is not created once the numbers up to the last that has a window are used up. -/
def NumbersLeft (kernel : Kernel) : KernelCall → Prop
  | .createProcess _ => kernel.nextPid ≤ lastPid
  | _ => True

/-- Numbers are positive, below the next one, and of one live process each. -/
structure Numbered (kernel : Kernel) : Prop where
  /-- The next number is positive. -/
  positive : 1 ≤ kernel.nextPid
  /-- At most all numbers that have a window have been given out. -/
  bounded : kernel.nextPid ≤ lastPid + 1
  /-- Live processes have positive numbers that have been given out. -/
  given : ∀ process ∈ kernel.processList,
    1 ≤ kernel.pidOf process ∧ kernel.pidOf process < kernel.nextPid
  /-- No two live processes have the same number. -/
  distinct : ∀ process ∈ kernel.processList, ∀ other ∈ kernel.processList,
    kernel.pidOf process = kernel.pidOf other → process = other
  /-- No process is listed twice. -/
  nodup : kernel.processList.Nodup

/-- Where the window of a number starts, with the wrap of addresses. -/
theorem toNat_kernelStackBase (pid : Int) :
    ((kernelStackBase pid).toNat : Int) = (0xFFFFFFFF80000000 + pid * 16384) % 2 ^ 64 := by
  have whole : kernelStackBase pid = BitVec.ofInt 64 (0xFFFFFFFF80000000 + pid * 16384) := by
    rw [BitVec.ofInt_add, BitVec.ofInt_mul]
    rfl
  rw [whole, BitVec.toNat_ofInt]
  omega

/-- A number from zero up to the last has a window at the end of the addresses. -/
theorem kernelStackBase_inside {pid : Int} (low : 0 ≤ pid) (high : pid ≤ lastPid) :
    (kernelStackBase pid).toNat = topStart + 16384 * pid.toNat := by
  have start := toNat_kernelStackBase pid
  simp only [lastPid] at high
  simp only [topStart]
  omega

/-- A word of 32 bits has its window at the end of the addresses just from zero up to the last. -/
theorem window_inside_iff {pid : Int} (low : -2 ^ 31 ≤ pid) (high : pid < 2 ^ 31) :
    (topStart ≤ (kernelStackBase pid).toNat ∧
      (kernelStackBase pid).toNat + kernelStackSize ≤ 2 ^ 64) ↔ 0 ≤ pid ∧ pid ≤ lastPid := by
  have start := toNat_kernelStackBase pid
  simp only [topStart, lastPid, show kernelStackSize = 16384 from rfl]
  omega

/-- An address in a window at the end of the addresses, as a number. -/
theorem toNat_windowByte {pid : Int} (low : 0 ≤ pid) (high : pid ≤ lastPid) {i : Nat}
    (within : i < kernelStackSize) :
    (kernelStackBase pid + BitVec.ofNat 64 i).toNat = topStart + 16384 * pid.toNat + i := by
  have start := kernelStackBase_inside low high
  have small : i < 16384 := within
  simp only [lastPid] at high
  rw [BitVec.toNat_add, BitVec.toNat_ofNat, start]
  simp only [topStart]
  omega

/-- The windows are apart just for numbers that have one, of one process each. -/
theorem windowsApart_iff {kernel : Kernel}
    (words : ∀ process ∈ kernel.processList,
      -2 ^ 31 ≤ kernel.pidOf process ∧ kernel.pidOf process < 2 ^ 31) :
    kernel.WindowsApart ↔
      (∀ process ∈ kernel.processList, 0 ≤ kernel.pidOf process ∧ kernel.pidOf process ≤ lastPid) ∧
        ∀ process ∈ kernel.processList, ∀ other ∈ kernel.processList,
          kernel.pidOf process = kernel.pidOf other → process = other := by
  constructor
  · intro windows
    refine ⟨fun process live => (window_inside_iff (words process live).1 (words process live).2).mp
      (windows.inside process live), fun process live other live' same => ?_⟩
    by_contra differ
    -- The windows of two processes with one number start at the same address.
    exact windows.apart process live other live' differ 0 (by decide) 0 (by decide) (by rw [same])
  · rintro ⟨fit, distinct⟩
    refine ⟨fun process live => ?_, fun process live other live' differ i within j within' same => ?_,
      fun process live i within => ?_⟩
    · exact (window_inside_iff (words process live).1 (words process live).2).mpr (fit process live)
    · obtain ⟨low, high⟩ := fit process live
      obtain ⟨low', high'⟩ := fit other live'
      have place := toNat_windowByte low high within
      have place' := toNat_windowByte low' high' within'
      rw [same, place'] at place
      have small : i < 16384 := within
      have small' : j < 16384 := within'
      exact differ (distinct process live other live' (by omega))
    · obtain ⟨low, high⟩ := fit process live
      rw [toNat_windowByte low high within]
      simp only [identityEnd, topStart]
      omega

/-- With numbers in order, the windows are apart. -/
theorem Numbered.windowsApart {kernel : Kernel} (numbered : kernel.Numbered) :
    kernel.WindowsApart := by
  have bounded := numbered.bounded
  simp only [lastPid] at bounded
  refine (windowsApart_iff fun process live => ?_).mpr ⟨fun process live => ?_, numbered.distinct⟩
  · have given := numbered.given process live
    omega
  · have given := numbered.given process live
    simp only [lastPid]
    omega

variable {kernel after : Kernel}

/-- A process that could not be created is not listed, and its number is used up. -/
theorem createProcess_failed {address : Nat} {pid : Int} {reached : Nat}
    (created : kernel.createProcess address = .ok (pid, after))
    (failed : (kernel.memory.backPages (kernelStackBase kernel.nextPid) kernelStackPages).1 =
      some reached) :
    pid = -1 ∧ after.processList = kernel.processList ∧
      after.nextPid = asInt32 (kernel.nextPid + 1) ∧
      ∀ other ≠ address, after.records other = kernel.records other := by
  unfold createProcess at created
  dsimp only at created
  cases taken : kernel.memory.backPages (kernelStackBase kernel.nextPid) kernelStackPages with
  | mk answer memory =>
    rw [taken] at created failed
    obtain rfl : answer = some reached := failed
    -- The new record has no regions, so cleaning up releases nothing but the stack.
    simp only [cleanupProcessMemory, Function.update_self, newRecord, PagedMemory.releaseRegions,
      Run.ok_bind, Run.pure_eq, if_true] at created
    cases created
    refine ⟨rfl, rfl, rfl, fun other apart => ?_⟩
    dsimp only
    rw [Function.update_of_ne apart, Function.update_of_ne apart]

/-- Creating a process keeps numbers in order while there are some left. -/
theorem Numbered.create (numbered : kernel.Numbered) {address : Nat} {pid : Int}
    (left : kernel.nextPid ≤ lastPid) (fresh : address ∉ kernel.processList)
    (created : kernel.createProcess address = .ok (pid, after)) : after.Numbered := by
  have positive := numbered.positive
  have last : lastPid = 131071 := rfl
  -- The counter is far from its end.
  have number : asInt32 (kernel.nextPid + 1) = kernel.nextPid + 1 :=
    asInt32_of_small (by omega) (by omega)
  cases backed : (kernel.memory.backPages (kernelStackBase kernel.nextPid) kernelStackPages).1 with
  | some reached =>
    obtain ⟨-, list, next, records⟩ := createProcess_failed created backed
    have same : ∀ process ∈ kernel.processList, after.pidOf process = kernel.pidOf process :=
      fun process live => by rw [pidOf, records process (ne_of_mem_of_not_mem live fresh), pidOf]
    rw [number] at next
    refine ⟨by omega, by omega, fun process live => ?_, fun process live other live' equal => ?_, ?_⟩
    · rw [list] at live
      -- Numbers given out are below the next one.
      have given := numbered.given process live
      rw [same process live]
      omega
    · rw [list] at live live'
      rw [same process live, same other live'] at equal
      exact numbered.distinct process live other live' equal
    · rw [list]
      exact numbered.nodup
  | none =>
    obtain ⟨list, next, records⟩ := createProcess_listed created backed
    have mine : after.pidOf address = kernel.nextPid := by
      rw [pidOf, records, Function.update_self]
      rfl
    have same : ∀ process ∈ kernel.processList, after.pidOf process = kernel.pidOf process :=
      fun process live => by
        rw [pidOf, records, Function.update_of_ne (ne_of_mem_of_not_mem live fresh), pidOf]
    rw [number] at next
    refine ⟨by omega, by omega, fun process live => ?_, fun process live other live' equal => ?_, ?_⟩
    · rw [list] at live
      rcases List.mem_cons.mp live with rfl | old
      · rw [mine]
        omega
      · have given := numbered.given process old
        rw [same process old]
        omega
    · -- The number of the new process is above those of the others.
      rw [list] at live live'
      rcases List.mem_cons.mp live with rfl | old
      · rcases List.mem_cons.mp live' with rfl | old'
        · rfl
        · have given := numbered.given other old'
          rw [mine, same other old'] at equal
          omega
      · rcases List.mem_cons.mp live' with rfl | old'
        · have given := numbered.given process old
          rw [mine, same process old] at equal
          omega
        · rw [same process old, same other old'] at equal
          exact numbered.distinct process old other old' equal
    · rw [list]
      exact List.nodup_cons.mpr ⟨fresh, numbered.nodup⟩

/-- Terminating a process leaves the numbers of the others as they are. -/
theorem terminateProcess_numbers {pid : Int} {cpuId ticks : Nat}
    (terminated : kernel.terminateProcess pid cpuId ticks = .ok after) :
    after.processList.Sublist kernel.processList ∧ after.nextPid = kernel.nextPid ∧
      ∀ process, after.pidOf process = kernel.pidOf process := by
  rcases terminateProcess_found terminated with
    ⟨-, rfl⟩ | ⟨process, cleaned, -, cleanup, list, next, keeps⟩
  · exact ⟨List.Sublist.refl _, rfl, fun _ => rfl⟩
  · have records : (kernel.removeProcess process).records = kernel.records := by
      rw [removeProcess_frame]
    have same : ∀ other, cleaned.pidOf other = kernel.pidOf other := by
      obtain ⟨memory, -, rest⟩ := Run.bind_eq_ok.mp cleanup
      cases rest
      intro other
      simp only [pidOf, records]
      -- Cleaning up a record leaves its number.
      by_cases mine : other = process
      · rw [mine, Function.update_self]
      · rw [Function.update_of_ne mine]
    refine ⟨?_, keeps.next.trans next, fun other => ((keeps.records other).1).trans (same other)⟩
    rw [keeps.list, list]
    exact List.erase_sublist

/-- Every call on processes keeps numbers in order while there are some left. -/
theorem Numbered.perform (numbered : kernel.Numbered) {call : KernelCall}
    (allowed : call.OnProcesses) (left : kernel.NumbersLeft call)
    (performed : kernel.perform call = some after) : after.Numbered := by
  cases call with
  | createProcess address =>
    simp only [Kernel.perform] at performed
    split at performed
    · cases performed
    · rename_i new
      obtain ⟨⟨pid, created⟩, returned, rfl⟩ := Option.map_eq_some_iff.mp performed
      exact numbered.create left (fun live => new (Or.inr live)) (Run.toOption_eq_some.mp returned)
  | terminateProcess pid cpuId ticks =>
    obtain ⟨list, next, same⟩ := terminateProcess_numbers (Run.toOption_eq_some.mp performed)
    refine ⟨by rw [next]; exact numbered.positive, by rw [next]; exact numbered.bounded,
      fun process live => ?_, fun process live other live' equal => ?_, numbered.nodup.sublist list⟩
    · rw [same, next]
      exact numbered.given process (list.subset live)
    · rw [same, same] at equal
      exact numbered.distinct process (list.subset live) other (list.subset live') equal
  | _ => exact absurd allowed id

/-- After boot no process has a number yet. -/
theorem bootKernel_numbered (policy : SchedulerPolicy) (cpuCount : Nat) (memory : PagedMemory)
    (processes : Nat → Process) (records : Nat → ProcessRecord) :
    (bootKernel policy cpuCount memory processes records).Numbered :=
  ⟨le_rfl, show (1 : Int) ≤ lastPid + 1 by decide, fun _ wrong => absurd wrong List.not_mem_nil,
    fun _ wrong => absurd wrong List.not_mem_nil, List.nodup_nil⟩

/-- One process more than there are numbers: the last two are not terminated. -/
def tooMany : List KernelCall :=
  stackCycles 1 131070 ++ [.createProcess 4096, .createProcess 8192]

end Kernel

end Pocky
