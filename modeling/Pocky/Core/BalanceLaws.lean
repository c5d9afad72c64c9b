import Mathlib.Algebra.BigOperators.Group.Finset.Piecewise
import Mathlib.Data.List.Induction
import Pocky.Core.KernelInvariants
import Pocky.Lib.FirstGreatest
import Pocky.Lib.Taking

/-! Balancing the run queues moves some processes from a longest to a shortest one and loses none. -/

namespace Pocky

/-- A queue after processes have moved from one processor to another. -/
def CpuRunQueue.afterMoves (fromCpu toCpu index : Nat) (left moved : List Nat)
    (runqueue : CpuRunQueue) : CpuRunQueue :=
  if runqueue.cpuId = fromCpu then { runqueue with processQueue := left, currentIndex := index }
  else if runqueue.cpuId = toCpu then
    { runqueue with processQueue := runqueue.processQueue ++ moved }
  else runqueue

/-- The first of the longest queues. -/
def FirstLongest (runqueues : List CpuRunQueue) (longest : CpuRunQueue) : Prop :=
  ∃ front back, runqueues = front ++ longest :: back ∧
    (∀ other ∈ front, other.processQueue.length < longest.processQueue.length) ∧
    ∀ other ∈ back, other.processQueue.length ≤ longest.processQueue.length

/-- The first of the shortest queues. -/
def FirstShortest (runqueues : List CpuRunQueue) (shortest : CpuRunQueue) : Prop :=
  ∃ front back, runqueues = front ++ shortest :: back ∧
    (∀ other ∈ front, shortest.processQueue.length < other.processQueue.length) ∧
    ∀ other ∈ back, shortest.processQueue.length ≤ other.processQueue.length

namespace Kernel

/-- A process that may move: it does not run, and its priority is below eight. -/
def movable (kernel : Kernel) (process : Nat) : Bool :=
  process ≠ 0 ∧ (kernel.processes process).state ≠ .running ∧ (kernel.records process).priority < 8

/-- The loop that moves processes, which has no result if it needs more rounds than it may take. -/
def moveRounds (kernel : Kernel) (fromCpu toCpu : Nat) : Nat → Nat → Nat → Run Kernel
  | 0, _, _ => .error .diverges
  | fuel + 1, index, toMove =>
    match kernel.getRunqueue fromCpu with
    | none => .ok kernel
    | some runqueue =>
      if runqueue.processQueue.length ≤ index ∨ toMove = 0 then .ok kernel
      else
        let process := runqueue.processAt index
        if kernel.canMigrateProcess process toCpu then
          (kernel.migrateProcess process fromCpu toCpu).moveRounds fromCpu toCpu fuel index
            (toMove - 1)
        else kernel.moveRounds fromCpu toCpu fuel (index + 1) toMove

/-- Balancing with that loop, in one round more than the longest queue has processes. -/
def loadBalanceRounds (kernel : Kernel) : Run Kernel :=
  let (longest, shortest) := extremes kernel.runqueues
  if wordSub longest.1 shortest.1 ≤ 1 then .ok kernel
  else
    let toMove := wordSub longest.1 shortest.1 / 2
    match kernel.getRunqueue longest.2, kernel.getRunqueue shortest.2 with
    | some runqueue, some _ =>
      kernel.moveRounds longest.2 shortest.2 (runqueue.processQueue.length + 1) 0 toMove
    | _, _ => .ok kernel

/-- The kernel after processes have moved from one processor to another. -/
def afterMoves (kernel : Kernel) (fromCpu toCpu index : Nat) (left moved : List Nat) : Kernel :=
  { kernel with
    runqueues := kernel.runqueues.map (CpuRunQueue.afterMoves fromCpu toCpu index left moved) }

section Moves

variable {kernel : Kernel} {fromCpu toCpu : Nat} {source : CpuRunQueue}

/-- With numbers of their own, changing the queue of a processor changes just the one with its number. -/
theorem modifyRunqueue_eq_map (numbers : (kernel.runqueues.map (·.cpuId)).Nodup) (cpuId : Nat)
    (change : CpuRunQueue → CpuRunQueue) :
    (kernel.modifyRunqueue cpuId change).runqueues =
      kernel.runqueues.map fun runqueue =>
        if runqueue.cpuId = cpuId then change runqueue else runqueue := by
  -- Only the first queue with the number changes, and no other has it.
  change modifyFirst _ change kernel.runqueues = _
  rcases modifyFirst_cases (fun runqueue : CpuRunQueue => runqueue.cpuId == cpuId) change
    kernel.runqueues with ⟨none, same⟩ | ⟨front, first, rest, parts, found, changed⟩
  · rw [same]
    conv_lhs => rw [← List.map_id kernel.runqueues]
    refine List.map_congr_left fun runqueue member => (if_neg ?_).symm
    simpa using List.find?_eq_none.mp none runqueue member
  · have mine : first.cpuId = cpuId := by simpa using List.find?_some found
    rw [parts, List.map_append, List.map_cons, List.nodup_append, List.nodup_cons] at numbers
    obtain ⟨-, ⟨behind, -⟩, before⟩ := numbers
    rw [changed, parts, List.map_append, List.map_cons, if_pos mine]
    -- The others have other numbers.
    congr 1
    · conv_lhs => rw [← List.map_id front]
      refine List.map_congr_left fun runqueue member => (if_neg fun same => ?_).symm
      exact before _ (List.mem_map_of_mem member) _ List.mem_cons_self (same.trans mine.symm)
    · congr 1
      conv_lhs => rw [← List.map_id rest]
      refine List.map_congr_left fun runqueue member => (if_neg fun same => ?_).symm
      exact behind (List.mem_map.mpr ⟨runqueue, member, same.trans mine.symm⟩)

/-- Moves keep the numbers of the processors. -/
theorem afterMoves_numbers (kernel : Kernel) (fromCpu toCpu index : Nat) (left moved : List Nat) :
    (kernel.afterMoves fromCpu toCpu index left moved).runqueues.map (·.cpuId) =
      kernel.runqueues.map (·.cpuId) := by
  rw [afterMoves, List.map_map]
  refine List.map_congr_left fun runqueue _ => ?_
  simp only [Function.comp_apply, CpuRunQueue.afterMoves]
  split_ifs <;> rfl

/-- The queue of a processor after moves. -/
theorem afterMoves_getRunqueue (kernel : Kernel) (fromCpu toCpu index : Nat) (left moved : List Nat)
    (cpuId : Nat) : (kernel.afterMoves fromCpu toCpu index left moved).getRunqueue cpuId =
      (kernel.getRunqueue cpuId).map (CpuRunQueue.afterMoves fromCpu toCpu index left moved) := by
  rw [getRunqueue, afterMoves, List.find?_map]
  have same : ((fun runqueue : CpuRunQueue => runqueue.cpuId == cpuId) ∘
      CpuRunQueue.afterMoves fromCpu toCpu index left moved) = fun runqueue => runqueue.cpuId == cpuId := by
    funext runqueue
    simp only [Function.comp_apply, CpuRunQueue.afterMoves]
    split_ifs <;> rfl
  rw [same]
  rfl

/-- Moves after others are moves of them all. -/
theorem afterMoves_afterMoves (apart : fromCpu ≠ toCpu) (index index' : Nat)
    (left left' moved moved' : List Nat) :
    (kernel.afterMoves fromCpu toCpu index left moved).afterMoves fromCpu toCpu index' left' moved' =
      kernel.afterMoves fromCpu toCpu index' left' (moved ++ moved') := by
  simp only [afterMoves, List.map_map]
  congr 1
  refine List.map_congr_left fun runqueue _ => ?_
  simp only [Function.comp_apply, CpuRunQueue.afterMoves]
  -- The two queues are different ones, so each gets what is meant for it.
  by_cases first : runqueue.cpuId = fromCpu
  · simp [first]
  · by_cases second : runqueue.cpuId = toCpu
    · simp [second, Ne.symm apart]
    · simp [first, second]

/-- Where nothing moves, nothing changes. -/
theorem afterMoves_nothing (numbers : (kernel.runqueues.map (·.cpuId)).Nodup)
    (found : kernel.getRunqueue fromCpu = some source) :
    kernel.afterMoves fromCpu toCpu source.currentIndex source.processQueue [] = kernel := by
  have same : kernel.runqueues.map (CpuRunQueue.afterMoves fromCpu toCpu source.currentIndex
      source.processQueue []) = kernel.runqueues := by
    conv_rhs => rw [← List.map_id kernel.runqueues]
    refine List.map_congr_left fun runqueue member => ?_
    have mine : source.cpuId = fromCpu := by simpa using List.find?_some found
    rw [CpuRunQueue.afterMoves]
    split_ifs with first second
    · -- It is the only queue with its number.
      obtain rfl : runqueue = source := List.inj_on_of_nodup_map numbers member
        (List.mem_of_find?_eq_some found) (first.trans mine.symm)
      rfl
    · rw [List.append_nil]
      rfl
    · rfl
  rw [afterMoves, same]

/-- Moving the first movable process of a queue. -/
theorem migrateProcess_eq (numbers : (kernel.runqueues.map (·.cpuId)).Nodup) (apart : fromCpu ≠ toCpu)
    (found : kernel.getRunqueue fromCpu = some source) (target : (kernel.getRunqueue toCpu).isSome)
    {done rest : List Nat} {process : Nat} (split : source.processQueue = done ++ process :: rest)
    (pinned : ∀ other ∈ done, kernel.movable other = false) (moves : kernel.movable process = true) :
    kernel.migrateProcess process fromCpu toCpu =
      kernel.afterMoves fromCpu toCpu (source.dequeue process).currentIndex (done ++ rest) [process] := by
  have nonzero : process ≠ 0 := by
    simp only [movable, decide_eq_true_eq] at moves
    exact moves.1
  obtain ⟨other, there⟩ := Option.isSome_iff_exists.mp target
  -- The process may move and those before it may not, so it is none of them.
  have fresh : process ∉ done := fun member => by
    rw [pinned process member] at moves
    cases moves
  have held : process ∈ source.processQueue := by
    rw [split]
    exact List.mem_append_right _ List.mem_cons_self
  have queue : (source.dequeue process).processQueue = done ++ rest := by
    rw [dequeue_processQueue held, split, List.erase_append_right _ fresh, List.erase_cons_head]
  have mine : source.cpuId = fromCpu := by simpa using List.find?_some found
  have numbers' : ((kernel.modifyRunqueue fromCpu fun runqueue =>
      if process ∈ runqueue.processQueue then runqueue.dequeue process
      else runqueue).runqueues.map (·.cpuId)).Nodup := by
    rw [modifyRunqueue_numbers _ _ _ (by intros; split <;> rfl)]
    exact numbers
  rw [migrateProcess, if_neg (by simp [nonzero, apart]), found, there]
  dsimp only
  -- Leaving one queue and joining the other are one change of all queues.
  have both := modifyRunqueue_eq_map numbers' toCpu (·.enqueue process)
  rw [modifyRunqueue_eq_map numbers, List.map_map] at both
  rw [afterMoves]
  have queues : (((kernel.modifyRunqueue fromCpu fun runqueue =>
      if process ∈ runqueue.processQueue then runqueue.dequeue process
      else runqueue).modifyRunqueue toCpu (·.enqueue process)).runqueues =
        kernel.runqueues.map (CpuRunQueue.afterMoves fromCpu toCpu
          (source.dequeue process).currentIndex (done ++ rest) [process])) := by
    rw [both]
    refine List.map_congr_left fun runqueue member => ?_
    rw [Function.comp_apply, CpuRunQueue.afterMoves]
    by_cases first : runqueue.cpuId = fromCpu
    · obtain rfl : runqueue = source := List.inj_on_of_nodup_map numbers member
        (List.mem_of_find?_eq_some found) (first.trans mine.symm)
      rw [if_pos first, if_pos held, if_pos first, if_neg]
      · rw [← queue]
        rfl
      · show runqueue.cpuId ≠ toCpu
        rw [first]
        exact apart
    · rw [if_neg first, if_neg first]
      rfl
  rw [← queues]
  rfl

/--
The rounds from an index on, when no process before it may move.

They take the first processes that may move out of the rest, up to a number.
-/
theorem moveRounds_eq {done rest : List Nat} (numbers : (kernel.runqueues.map (·.cpuId)).Nodup)
    (apart : fromCpu ≠ toCpu) (found : kernel.getRunqueue fromCpu = some source)
    (target : (kernel.getRunqueue toCpu).isSome) (split : source.processQueue = done ++ rest)
    (pinned : ∀ other ∈ done, kernel.movable other = false) (limit : Nat) :
    ∃ index, ∀ fuel, rest.length ≤ fuel →
      kernel.moveRounds fromCpu toCpu (fuel + 1) done.length limit =
          .ok (kernel.afterMoves fromCpu toCpu index
            (done ++ (takeFirst kernel.movable rest limit).2) (takeFirst kernel.movable rest limit).1) ∧
        kernel.moveProcesses fromCpu toCpu (fuel + 1) done.length limit =
          kernel.afterMoves fromCpu toCpu index
            (done ++ (takeFirst kernel.movable rest limit).2)
            (takeFirst kernel.movable rest limit).1 := by
  -- By induction on the processes not yet seen.
  induction rest generalizing kernel source done limit with
  | nil =>
    refine ⟨source.currentIndex, fun fuel _ => ?_⟩
    -- Every process has been seen.
    have ended : source.processQueue.length ≤ done.length ∨ limit = 0 := by
      rw [split, List.append_nil]
      exact .inl le_rfl
    have nothing : takeFirst kernel.movable [] limit = ([], []) := by cases limit <;> rfl
    rw [nothing, ← split, afterMoves_nothing numbers found, moveRounds, moveProcesses, found]
    dsimp only
    rw [if_pos ended, if_pos ended]
    exact ⟨rfl, rfl⟩
  | cons process rest ih =>
    cases limit with
    | zero =>
      refine ⟨source.currentIndex, fun fuel _ => ?_⟩
      -- As many as were to move have moved.
      have ended : source.processQueue.length ≤ done.length ∨ 0 = 0 := .inr rfl
      rw [takeFirst, ← split, afterMoves_nothing numbers found, moveRounds, moveProcesses, found]
      dsimp only
      rw [if_pos ended, if_pos ended]
      exact ⟨rfl, rfl⟩
    | succ limit =>
      have going : ¬(source.processQueue.length ≤ done.length ∨ limit + 1 = 0) := by
        rw [split, List.length_append, List.length_cons]
        omega
      have next : source.processAt done.length = process := by
        rw [CpuRunQueue.processAt, split, List.getD_append_right _ _ _ _ le_rfl, Nat.sub_self]
        rfl
      -- The target exists, so the source's test is about the process alone.
      have test : kernel.canMigrateProcess process toCpu = kernel.movable process := by
        simp [canMigrateProcess, movable, target]
      by_cases moves : kernel.movable process = true
      · -- The next process takes the place of the one moved.
        have after := migrateProcess_eq numbers apart found target split pinned moves
        -- The kernel after this move meets the same assumptions, with one process less to see.
        set moved := kernel.afterMoves fromCpu toCpu (source.dequeue process).currentIndex
          (done ++ rest) [process] with movedIs
        have mine : source.cpuId = fromCpu := by simpa using List.find?_some found
        have there : moved.getRunqueue fromCpu = some (CpuRunQueue.afterMoves fromCpu toCpu
            (source.dequeue process).currentIndex (done ++ rest) [process] source) := by
          rw [movedIs, afterMoves_getRunqueue, found, Option.map_some]
        have numbers' : (moved.runqueues.map (·.cpuId)).Nodup := by
          rw [movedIs, afterMoves_numbers]
          exact numbers
        have target' : (moved.getRunqueue toCpu).isSome := by
          rw [movedIs, afterMoves_getRunqueue, Option.isSome_map]
          exact target
        have queue : (CpuRunQueue.afterMoves fromCpu toCpu (source.dequeue process).currentIndex
            (done ++ rest) [process] source).processQueue = done ++ rest := by
          rw [CpuRunQueue.afterMoves, if_pos mine]
        obtain ⟨index, rounds⟩ := ih numbers' there target' queue pinned limit
        refine ⟨index, fun fuel enough => ?_⟩
        obtain ⟨fuel, rfl⟩ : ∃ less, fuel = less + 1 :=
          ⟨fuel - 1, by rw [List.length_cons] at enough; omega⟩
        obtain ⟨bounded, plain⟩ := rounds fuel (by rw [List.length_cons] at enough; omega)
        have same : moved.movable = kernel.movable := rfl
        rw [same, movedIs, afterMoves_afterMoves apart, ← movedIs] at bounded plain
        rw [takeFirst, if_pos moves, moveRounds, moveProcesses, found]
        dsimp only
        rw [if_neg going, if_neg going, next, test, if_pos moves, if_pos moves, after,
          Nat.add_sub_cancel]
        exact ⟨bounded, plain⟩
      · -- The process stays, before the next index.
        have stays : kernel.movable process = false := by simpa using moves
        have split' : source.processQueue = (done ++ [process]) ++ rest := by
          rw [split, List.append_assoc]
          rfl
        obtain ⟨index, rounds⟩ := ih numbers found target split'
          (fun other member => by
            rcases List.mem_append.mp member with old | new
            · exact pinned other old
            · rw [List.mem_singleton.mp new]
              exact stays) (limit + 1)
        refine ⟨index, fun fuel enough => ?_⟩
        obtain ⟨fuel, rfl⟩ : ∃ less, fuel = less + 1 :=
          ⟨fuel - 1, by rw [List.length_cons] at enough; omega⟩
        obtain ⟨bounded, plain⟩ := rounds fuel (by rw [List.length_cons] at enough; omega)
        rw [List.length_append, List.length_singleton, List.append_assoc] at bounded plain
        rw [takeFirst, if_neg moves, moveRounds, moveProcesses, found]
        dsimp only
        rw [if_neg going, if_neg going, next, test, if_neg moves, if_neg moves]
        exact ⟨bounded, plain⟩

end Moves

end Kernel

section Extremes

variable {runqueues : List CpuRunQueue} {runqueue : CpuRunQueue}

/-- The longest queues have the greatest length. -/
theorem firstLongest_iff {longest : CpuRunQueue} : FirstLongest runqueues longest ↔
    FirstGreatest (fun runqueue => runqueue.processQueue.length) runqueues longest := Iff.rfl

/-- The shortest queues have the greatest length in the order that is turned around. -/
theorem firstShortest_iff {shortest : CpuRunQueue} : FirstShortest runqueues shortest ↔
    FirstGreatest (fun runqueue => OrderDual.toDual runqueue.processQueue.length) runqueues
      shortest := Iff.rfl

/-- One more queue for the search of the longest and the shortest. -/
theorem extremes_snoc (runqueues : List CpuRunQueue) (runqueue : CpuRunQueue) :
    Kernel.extremes (runqueues ++ [runqueue]) =
      (if (Kernel.extremes runqueues).1.1 < runqueue.processQueue.length then
          (runqueue.processQueue.length, runqueue.cpuId)
        else (Kernel.extremes runqueues).1,
        if runqueue.processQueue.length < (Kernel.extremes runqueues).2.1 then
          (runqueue.processQueue.length, runqueue.cpuId)
        else (Kernel.extremes runqueues).2) := by
  rw [Kernel.extremes, List.foldl_append]
  rfl

/-- The search answers the first longest queue, unless all are empty. -/
theorem extremes_longest (runqueues : List CpuRunQueue) :
    (∀ runqueue ∈ runqueues, runqueue.processQueue.length ≤ 0) ∧
        (Kernel.extremes runqueues).1 = (0, 0) ∨
      ∃ longest, FirstLongest runqueues longest ∧
        (Kernel.extremes runqueues).1 = (longest.processQueue.length, longest.cpuId) :=
  @FirstGreatest.of_search _ _ _ _ (fun runqueue => runqueue.processQueue.length)
    CpuRunQueue.cpuId (fun items => (Kernel.extremes items).1)
    (fun items item => by rw [extremes_snoc]) runqueues

/-- The search answers the first shortest queue, unless all are as long as a queue can be. -/
theorem extremes_shortest (runqueues : List CpuRunQueue) :
    (∀ runqueue ∈ runqueues, sizeMax ≤ runqueue.processQueue.length) ∧
        (Kernel.extremes runqueues).2 = (sizeMax, 0) ∨
      ∃ shortest, FirstShortest runqueues shortest ∧
        (Kernel.extremes runqueues).2 = (shortest.processQueue.length, shortest.cpuId) :=
  @FirstGreatest.of_search _ ℕᵒᵈ _ _ (fun runqueue => OrderDual.toDual runqueue.processQueue.length)
    CpuRunQueue.cpuId (fun items => (Kernel.extremes items).2)
    (fun items item => by rw [extremes_snoc]; rfl) runqueues

/-- Of queues that are not none, one is the first longest; the search finds it or the length zero. -/
theorem extremes_firstLongest (some : runqueues ≠ []) :
    ∃ longest, FirstLongest runqueues longest ∧
      (Kernel.extremes runqueues).1.1 = longest.processQueue.length ∧
      ((Kernel.extremes runqueues).1.2 = longest.cpuId ∨ longest.processQueue.length = 0) := by
  rcases extremes_longest runqueues with ⟨empty, start⟩ | ⟨longest, first, found⟩
  · obtain ⟨head, rest, rfl⟩ := List.exists_cons_of_ne_nil some
    have none := Nat.le_zero.mp (empty head List.mem_cons_self)
    refine ⟨head, firstLongest_iff.mpr (.head fun other member => ?_), by rw [start, none], .inr none⟩
    exact (empty other (List.mem_cons_of_mem _ member)).trans (Nat.zero_le _)
  · exact ⟨longest, first, by rw [found], .inl (by rw [found])⟩

/-- Of queues that are not none, one is the first shortest; the search finds it or the greatest length. -/
theorem extremes_firstShortest (some : runqueues ≠ [])
    (fits : ∀ runqueue ∈ runqueues, runqueue.processQueue.length < 2 ^ 64) :
    ∃ shortest, FirstShortest runqueues shortest ∧
      (Kernel.extremes runqueues).2.1 = shortest.processQueue.length ∧
      ((Kernel.extremes runqueues).2.2 = shortest.cpuId ∨
        shortest.processQueue.length = sizeMax) := by
  rcases extremes_shortest runqueues with ⟨full, start⟩ | ⟨shortest, first, found⟩
  · obtain ⟨head, rest, rfl⟩ := List.exists_cons_of_ne_nil some
    have most : head.processQueue.length = sizeMax :=
      (Nat.le_sub_one_of_lt (fits head List.mem_cons_self)).antisymm (full head List.mem_cons_self)
    refine ⟨head, firstShortest_iff.mpr (.head fun other member => ?_), by rw [start, most], .inr most⟩
    exact most.le.trans (full other (List.mem_cons_of_mem _ member))
  · exact ⟨shortest, first, by rw [found], .inl (by rw [found])⟩

end Extremes

/-- What balancing does: some processes move from the longest queue to the shortest. -/
structure Balanced (kernel after : Kernel) (longest shortest : CpuRunQueue) (index : Nat)
    (left moved : List Nat) : Prop where
  /-- Only these two queues change, and nothing else in the kernel. -/
  queues : after = kernel.afterMoves longest.cpuId shortest.cpuId index left moved
  /-- The number that moves: half of the difference, or all that may move. -/
  number : moved.length =
    min ((longest.processQueue.length - shortest.processQueue.length) / 2)
      (longest.processQueue.filter kernel.movable).length
  /-- They are the first ones that may move. -/
  firsts : moved = (longest.processQueue.filter kernel.movable).take
    ((longest.processQueue.length - shortest.processQueue.length) / 2)
  /-- Neither a running process nor one of priority eight or more moves. -/
  moving : ∀ process ∈ moved, (kernel.processes process).state ≠ .running ∧
    (kernel.records process).priority < 8
  /-- Those that may not move stay, in order. -/
  pinned : left.filter (fun process => !kernel.movable process) =
    longest.processQueue.filter fun process => !kernel.movable process
  /-- Those that stay keep their order. -/
  order : left.Sublist longest.processQueue
  /-- The longest queue is split in two parts. -/
  parts : (moved ++ left).Perm longest.processQueue
  /-- The longest queue does not become shorter than the shortest. -/
  longer : (shortest.processQueue ++ moved).length ≤ left.length
  /-- Over all queues, each process occurs as often as before. -/
  work : ∀ process, (after.runqueues.flatMap (·.processQueue)).count process =
    (kernel.runqueues.flatMap (·.processQueue)).count process

namespace Kernel

section Balancing

variable {kernel : Kernel}

/-- The number of processes a change of one queue adds or takes, summed over all queues. -/
theorem sum_at_number (numbers : (kernel.runqueues.map (·.cpuId)).Nodup) {runqueue : CpuRunQueue}
    (member : runqueue ∈ kernel.runqueues) (amount : Nat) :
    (kernel.runqueues.map fun other => if other.cpuId = runqueue.cpuId then amount else 0).sum =
      amount := by
  have sum := List.sum_toFinset (fun cpuId => if cpuId = runqueue.cpuId then amount else 0) numbers
  rw [List.map_map] at sum
  refine sum.symm.trans ?_
  rw [Finset.sum_ite_eq', if_pos]
  exact List.mem_toFinset.mpr (List.mem_map_of_mem member)

/-- Moving a part of one queue to another keeps how often each process occurs. -/
theorem afterMoves_work (numbers : (kernel.runqueues.map (·.cpuId)).Nodup)
    {longest shortest : CpuRunQueue} (long : longest ∈ kernel.runqueues)
    (short : shortest ∈ kernel.runqueues) (apart : longest.cpuId ≠ shortest.cpuId) {index : Nat}
    {left moved : List Nat} (parts : (moved ++ left).Perm longest.processQueue) (process : Nat) :
    ((kernel.afterMoves longest.cpuId shortest.cpuId index left moved).runqueues.flatMap
        (·.processQueue)).count process =
      (kernel.runqueues.flatMap (·.processQueue)).count process := by
  -- What one queue loses the other gains, queue by queue.
  have each : ∀ runqueue ∈ kernel.runqueues,
      ((runqueue.afterMoves longest.cpuId shortest.cpuId index left moved).processQueue.count process +
          if runqueue.cpuId = longest.cpuId then moved.count process else 0) =
        runqueue.processQueue.count process +
          if runqueue.cpuId = shortest.cpuId then moved.count process else 0 := by
    intro runqueue member
    rw [CpuRunQueue.afterMoves]
    by_cases first : runqueue.cpuId = longest.cpuId
    · obtain rfl : runqueue = longest := List.inj_on_of_nodup_map numbers member long first
      rw [if_pos first, if_pos first, if_neg apart, ← parts.count_eq, List.count_append]
      exact Nat.add_comm _ _
    · rw [if_neg first, if_neg first]
      split_ifs
      · rw [List.count_append]
        rfl
      · rfl
  -- Summed over all queues, both changes are the same number.
  have total := congrArg List.sum (List.map_congr_left each)
  rw [List.sum_map_add, List.sum_map_add, sum_at_number numbers long,
    sum_at_number numbers short] at total
  rw [List.count_flatMap, List.count_flatMap, afterMoves, List.map_map]
  exact Nat.add_right_cancel total

/-- The queue found under a number is the one with that number. -/
theorem getRunqueue_of_mem (numbers : (kernel.runqueues.map (·.cpuId)).Nodup)
    {runqueue : CpuRunQueue} (member : runqueue ∈ kernel.runqueues) :
    kernel.getRunqueue runqueue.cpuId = some runqueue := by
  cases found : kernel.getRunqueue runqueue.cpuId with
  | none => simpa using List.find?_eq_none.mp found runqueue member
  | some other =>
    have same : other.cpuId = runqueue.cpuId := by simpa using List.find?_some found
    rw [List.inj_on_of_nodup_map numbers (List.mem_of_find?_eq_some found) member same]

end Balancing

/--
Balancing ends and loses no work, with numbers of their own for the queues.

Half of the difference between the first longest and the first shortest queue moves, or all that may.
-/
theorem loadBalance_balanced (kernel : Kernel) (some : kernel.runqueues ≠ [])
    (numbers : (kernel.runqueues.map (·.cpuId)).Nodup)
    (fits : ∀ runqueue ∈ kernel.runqueues, runqueue.processQueue.length < 2 ^ 64) :
    kernel.loadBalanceRounds = .ok kernel.loadBalance ∧
      ∃ longest shortest index left moved, FirstLongest kernel.runqueues longest ∧
        FirstShortest kernel.runqueues shortest ∧
        Balanced kernel kernel.loadBalance longest shortest index left moved := by
  obtain ⟨longest, first, most, longCpu⟩ := extremes_firstLongest some
  obtain ⟨shortest, least, fewest, shortCpu⟩ := extremes_firstShortest some fits
  have long : longest ∈ kernel.runqueues := (firstLongest_iff.mp first).mem
  have short : shortest ∈ kernel.runqueues := (firstShortest_iff.mp least).mem
  have bounded := fits longest long
  have below : shortest.processQueue.length ≤ longest.processQueue.length :=
    (firstShortest_iff.mp least).le longest long
  -- The longest queue is not shorter, so the difference does not wrap around.
  have difference : wordSub longest.processQueue.length shortest.processQueue.length =
      longest.processQueue.length - shortest.processQueue.length := by
    unfold wordSub
    omega
  have found := getRunqueue_of_mem numbers long
  have there := getRunqueue_of_mem numbers short
  rw [loadBalanceRounds, loadBalance]
  dsimp only
  rw [most, fewest, difference]
  by_cases close : longest.processQueue.length - shortest.processQueue.length ≤ 1
  · -- The queues are balanced already.
    have half : (longest.processQueue.length - shortest.processQueue.length) / 2 = 0 := by omega
    rw [if_pos close, if_pos close]
    refine ⟨rfl, longest, shortest, longest.currentIndex, longest.processQueue, [], first, least, ?_⟩
    exact {
      queues := (afterMoves_nothing numbers found).symm
      number := by rw [half, Nat.zero_min]; rfl
      firsts := by rw [half, List.take_zero]
      moving := fun _ member => absurd member List.not_mem_nil
      pinned := rfl
      order := List.Sublist.refl _
      parts := List.Perm.refl _
      longer := by rw [List.append_nil]; exact below
      work := fun _ => rfl }
  · -- Half of the difference moves.
    rw [if_neg close, if_neg close, longCpu.resolve_right (by omega),
      shortCpu.resolve_right (by simp only [sizeMax]; omega), found, there]
    dsimp only
    -- Queues whose lengths differ are two queues.
    have apart : longest.cpuId ≠ shortest.cpuId := fun same => by
      obtain rfl := List.inj_on_of_nodup_map numbers long short same
      omega
    set half := (longest.processQueue.length - shortest.processQueue.length) / 2 with halfIs
    have whole : longest.processQueue = [] ++ longest.processQueue := rfl
    obtain ⟨index, rounds⟩ := moveRounds_eq numbers apart found (by rw [there]; rfl) whole
      (fun _ member => absurd member List.not_mem_nil) half
    -- The bound on the rounds and the fuel of the loop are both enough for the whole queue.
    obtain ⟨bounded, -⟩ := rounds longest.processQueue.length le_rfl
    obtain ⟨-, plain⟩ := rounds (longest.processQueue.length + (half - 1)) (Nat.le_add_right _ _)
    rw [show longest.processQueue.length + (half - 1) + 1 = longest.processQueue.length + half by
      omega] at plain
    rw [List.length_nil, List.nil_append] at bounded plain
    rw [bounded, plain]
    -- What moved and what stayed are the two parts of the queue.
    have taken := takeFirst_taken kernel.movable longest.processQueue half
    have split := takeFirst_perm kernel.movable longest.processQueue half
    set moved := (takeFirst kernel.movable longest.processQueue half).1
    set left := (takeFirst kernel.movable longest.processQueue half).2
    have atMost : moved.length ≤ half := by rw [taken]; exact List.length_take_le _ _
    have lengths := split.length_eq
    rw [List.length_append] at lengths
    refine ⟨rfl, longest, shortest, index, left, moved, first, least, ?_⟩
    exact {
      queues := rfl
      number := by rw [taken, List.length_take]
      firsts := taken
      moving := fun process member => by
        rw [taken] at member
        have moves := (List.mem_filter.mp (List.mem_of_mem_take member)).2
        simp only [movable, decide_eq_true_eq] at moves
        exact moves.2
      pinned := takeFirst_failing kernel.movable longest.processQueue half
      order := takeFirst_left kernel.movable longest.processQueue half
      parts := split
      longer := by rw [List.length_append]; omega
      work := afterMoves_work numbers long short apart split }

/-- A processor with three ready processes beside an idle one. -/
def uneven : Kernel :=
  { smallKernel 2 with
    processes := fun _ => ⟨.ready, 0⟩
    runqueues := [⟨[16, 32, 48], 0, 5, 0, 0, false⟩, ⟨[], 0, 5, 0, 1, false⟩] }

/-- Balancing that kernel. -/
theorem loadBalance_balanced_uneven :
    uneven.loadBalanceRounds = .ok uneven.loadBalance ∧
      ∃ longest shortest index left moved, FirstLongest uneven.runqueues longest ∧
        FirstShortest uneven.runqueues shortest ∧
        Balanced uneven uneven.loadBalance longest shortest index left moved :=
  uneven.loadBalance_balanced (by decide) (by decide) fun runqueue member => by
    simp only [uneven, List.mem_cons, List.not_mem_nil, or_false] at member
    rcases member with rfl | rfl
    · exact show 3 < 2 ^ 64 by decide
    · exact show 0 < 2 ^ 64 by decide

example : (uneven.loadBalance.runqueues.map (·.processQueue)) = [[32, 48], [16]] := by decide

end Kernel

end Pocky
