import Pocky.Core.FailedSetUp
import Pocky.Core.StackWindows

/-! A program's stack starts with its arguments, in a page that has not been mapped for it. -/

namespace Pocky

open PagedMemory

/-- The words a stack starts with: the number of arguments, and both lists with null at their ends. -/
def stackWords (argv envp : Option (List (BitVec 64))) : List (BitVec 64) :=
  BitVec.ofNat 64 (argv.getD []).length :: argv.getD [] ++ [0#64] ++
    (envp.map (· ++ [0#64])).getD []

/-- The bytes of these words. -/
def stackSpace (argv envp : Option (List (BitVec 64))) : Nat := 8 * (stackWords argv envp).length

/-- Where the stack pointer is at first. -/
def initialPointer (argv envp : Option (List (BitVec 64))) : BitVec 64 :=
  userStackTop - BitVec.ofNat 64 (stackSpace argv envp)

/-- The address of a byte of one of the words. -/
def stackByte (argv envp : Option (List (BitVec 64))) (index byte : Nat) : BitVec 64 :=
  initialPointer argv envp + BitVec.ofNat 64 (8 * index + byte)

/-- The call that sets up the stack maps the page of an address. -/
def Kernel.MapsPageOf (kernel : Kernel) (virtualAddr : BitVec 64) : Prop :=
  ∃ pair ∈ (kernel.memory.backAll true userStackPages).handed,
    pageNumber pair.1 = pageNumber virtualAddr

/-- The words of a stack lie one behind the other up to its end, in pages that the call maps. -/
structure Kernel.StackMapped (kernel : Kernel) (argv envp : Option (List (BitVec 64))) : Prop where
  /-- Every byte of the words lies in such a page. -/
  words : ∀ index < (stackWords argv envp).length, ∀ byte < 8,
    kernel.MapsPageOf (stackByte argv envp index byte)
  /-- So does every address from the stack pointer to the end. -/
  span : ∀ virtualAddr, initialPointer argv envp ≤ virtualAddr → virtualAddr < userStackTop →
    kernel.MapsPageOf virtualAddr
  /-- The words lie one behind the other. -/
  contiguous : ∀ index < (stackWords argv envp).length,
    (stackByte argv envp index 0).toNat = (initialPointer argv envp).toNat + 8 * index
  /-- None of them reaches the end. -/
  below : ∀ index < (stackWords argv envp).length,
    (stackByte argv envp index 0).toNat + 8 ≤ userStackTop.toNat

section Layout

variable {argv envp : Option (List (BitVec 64))}

/-- There is at least one word. -/
theorem stackWords_positive : 0 < (stackWords argv envp).length := by
  simp only [stackWords, List.cons_append, List.length_cons]
  omega

/-- The stack pointer, as a number. -/
theorem toNat_initialPointer (fits : stackSpace argv envp ≤ userStackSize) :
    (initialPointer argv envp).toNat + stackSpace argv envp = userStackTop.toNat := by
  have small : stackSpace argv envp ≤ 8388608 := fits
  rw [initialPointer, BitVec.toNat_sub, BitVec.toNat_ofNat, show userStackTop.toNat = 0x7FFFFFFFFFFF from rfl]
  omega

/-- The address of a byte of a word, as a number. -/
theorem toNat_stackByte (fits : stackSpace argv envp ≤ userStackSize) {index byte : Nat}
    (inside : index < (stackWords argv envp).length) (within : byte < 8) :
    (stackByte argv envp index byte).toNat =
      (initialPointer argv envp).toNat + 8 * index + byte := by
  have start := toNat_initialPointer fits
  have small : stackSpace argv envp ≤ 8388608 := fits
  have top : userStackTop.toNat = 0x7FFFFFFFFFFF := rfl
  have space : stackSpace argv envp = 8 * (stackWords argv envp).length := rfl
  rw [stackByte, BitVec.toNat_add, BitVec.toNat_ofNat]
  omega

/-- The pages mapped for a stack end below the one that its end lies in. -/
theorem pageNumber_userStackPages {page : BitVec 64} (member : page ∈ userStackPages) :
    pageNumber page < 0x7FFFFFFFF := by
  obtain ⟨index, inside, rfl⟩ := List.mem_map.mp member
  have few : index < 2048 := List.mem_range.mp inside
  -- The first page starts one byte before a boundary, and there are 2048 of them.
  -- So the last of them ends a page before the top does.
  have start : (userStackTop - BitVec.ofNat 64 userStackSize).toNat = 0x7FFFFF7FFFFF := by decide
  rw [pageNumber, pageAt, BitVec.toNat_add, start, BitVec.toNat_ofNat]
  omega

/-- An address in the last page before the end lies in none of them. -/
theorem not_mapsPageOf (kernel : Kernel) {virtualAddr : BitVec 64}
    (low : 0x7FFFFFFFF000 ≤ virtualAddr.toNat) (high : virtualAddr.toNat < 0x800000000000) :
    ¬ kernel.MapsPageOf virtualAddr := by
  -- The pages that are mapped all lie below this one.
  rintro ⟨pair, member, same⟩
  have below := pageNumber_userStackPages (handed_mem _ _ _ member)
  rw [same, pageNumber] at below
  omega

end Layout

namespace Kernel

variable {kernel : Kernel} {program : ProgramState} {process : Nat}
  {argv envp : Option (List (BitVec 64))}

/-- A call that sets up a stack stores the bytes of its words from the stack pointer on. -/
theorem setupProcessStack_told {setUp : SetUp}
    (done : kernel.setupProcessStack program process argv envp = .ok (some setUp))
    (told : setUp.told = true) :
    setUp.handed = (kernel.memory.backAll true userStackPages).handed ∧
      setUp.program.rsp = initialPointer argv envp ∧
      (kernel.memory.backAll true userStackPages).memory.storeBytes (initialPointer argv envp)
        (fun index => byteOf ((stackWords argv envp).getD (index / 8) 0#64).toNat (index % 8))
        (stackSpace argv envp) = some setUp.kernel.memory := by
  rw [setupProcessStack] at done
  generalize kernel.memory.backAll true userStackPages = backing at done ⊢
  dsimp only at done
  split at done
  · obtain ⟨failed, abandoned, answer⟩ := Run.bind_eq_ok.mp done
    obtain ⟨cleaned, -, rest⟩ := Run.bind_eq_ok.mp abandoned
    cases rest
    cases answer
    cases told
  · split at done
    · obtain ⟨failed, abandoned, answer⟩ := Run.bind_eq_ok.mp done
      obtain ⟨cleaned, -, rest⟩ := Run.bind_eq_ok.mp abandoned
      cases rest
      cases answer
      cases told
    · split at done
      · cases done
      · rename_i memory stored
        cases done
        exact ⟨rfl, rfl, stored⟩

/--
The page that a stack ends in is not mapped for it, so its last word lies in no page of the stack.

The words do lie one behind the other and end where the stack does.
-/
theorem initialStack_unmapped (kernel : Kernel) (argv envp : Option (List (BitVec 64)))
    (fits : stackSpace argv envp ≤ userStackSize) :
    ¬ kernel.StackMapped argv envp ∧
      (∀ byte < 8, ¬ kernel.MapsPageOf
        (stackByte argv envp ((stackWords argv envp).length - 1) byte)) ∧
      (∀ index < (stackWords argv envp).length,
        (stackByte argv envp index 0).toNat = (initialPointer argv envp).toNat + 8 * index) ∧
      (initialPointer argv envp).toNat + 8 * (stackWords argv envp).length = userStackTop.toNat := by
  have start := toNat_initialPointer fits
  have some := @stackWords_positive argv envp
  have space : stackSpace argv envp = 8 * (stackWords argv envp).length := rfl
  have top : userStackTop.toNat = 0x7FFFFFFFFFFF := rfl
  -- The last eight bytes below the top lie in its page.
  have last : ∀ byte < 8, ¬ kernel.MapsPageOf
      (stackByte argv envp ((stackWords argv envp).length - 1) byte) := fun byte within => by
    have place := toNat_stackByte fits (show (stackWords argv envp).length - 1 < _ by omega) within
    exact not_mapsPageOf kernel (by omega) (by omega)
  refine ⟨fun mapped => ?_, last, fun index inside => ?_, by omega⟩
  · exact last 0 (by decide) (mapped.words _ (by omega) 0 (by decide))
  · rw [toNat_stackByte fits inside (by decide), Nat.add_zero]

/-- After boot there are frames for all pages of a stack. -/
theorem emptyKernel_supplies : (emptyKernel.memory.backAll true userStackPages).short = false := by
  obtain ⟨table, stacked⟩ := emptyKernel_idle.stacked
  have available := stacked.freeFrames_of_idle
  have done := backPages_done (backPages_available stacked.backed.manages emptyKernel_idle.given
    (userStackTop - BitVec.ofNat 64 userStackSize)
    (show 4 * 2048 ≤ emptyKernel.memory.pmm.freeFrames by omega)).2.1
  exact (backPages_eq_backAll _ _ 2048).2.mp done

/-- A stack with neither arguments nor environment, after boot. -/
theorem initialStack_unmapped_alone :
    stackSpace none none ≤ userStackSize ∧ ¬ emptyKernel.StackMapped none none ∧
      (initialPointer none none).toNat = 0x7FFFFFFFFFEF := by
  obtain ⟨unmapped, -, -, ends⟩ := initialStack_unmapped emptyKernel none none (by decide)
  have length : (stackWords none none).length = 2 := rfl
  have top : userStackTop.toNat = 0x7FFFFFFFFFFF := rfl
  exact ⟨by decide, unmapped, by omega⟩

/-- Though there are frames, the last address of that stack is not mapped. -/
theorem last_stackByte_unmapped :
    stackSpace none none ≤ userStackSize ∧
      (emptyKernel.memory.backAll true userStackPages).short = false ∧
      initialPointer none none ≤ userStackTop - 1#64 ∧ userStackTop - 1#64 < userStackTop ∧
      ¬ emptyKernel.MapsPageOf (userStackTop - 1#64) :=
  ⟨by decide, emptyKernel_supplies, by decide, by decide, not_mapsPageOf _ (by decide) (by decide)⟩

/--
Setting up a stack stops for good, where its last page has not been mapped by another call.

The pages below are mapped as they should be, and the bytes below may be stored.
-/
theorem setupProcessStack_faults {table : Nat → Nat → Option Nat} {broken : List Nat}
    (settled : Settled kernel.memory table broken)
    (supplies : Supplies kernel.memory table broken userStackPages)
    (enough : (kernel.memory.backAll true userStackPages).short = false)
    (fits : stackSpace argv envp ≤ userStackSize)
    (unmapped : kernel.memory.vmm.shown table 0x7FFFFFFFF = none) :
    kernel.setupProcessStack program process argv envp = .ok none := by
  have start := toNat_initialPointer fits
  have some := @stackWords_positive argv envp
  have space : stackSpace argv envp = 8 * (stackWords argv envp).length := rfl
  have small : stackSpace argv envp ≤ 8388608 := fits
  have top : userStackTop.toNat = 0x7FFFFFFFFFFF := rfl
  have place : ∀ index < stackSpace argv envp,
      (initialPointer argv envp + BitVec.ofNat 64 index).toNat =
        (initialPointer argv envp).toNat + index := fun index inside => by
    rw [BitVec.toNat_add, BitVec.toNat_ofNat]
    omega
  have ordinary : ∀ index < stackSpace argv envp,
      4096 ≤ pageNumber (initialPointer argv envp + BitVec.ofNat 64 index) := fun index inside => by
    rw [pageNumber, place index inside]
    omega
  -- The pages below have been mapped, and the last one has not.
  have shown : ∃ table', Settled (kernel.memory.backAll true userStackPages).memory table' broken ∧
      (kernel.memory.backAll true userStackPages).memory.vmm.shown table' 0x7FFFFFFFF = none := by
    obtain ⟨table', supplied⟩ := backAll_supplied settled userStackPages_ordinary supplies true
    refine ⟨table', supplied.settled, (supplied.others _ fun member => ?_).trans unmapped⟩
    obtain ⟨pair, handed, same⟩ := List.mem_map.mp member
    exact (pageNumber_userStackPages (handed_mem _ _ _ handed)).ne same
  obtain ⟨table', settled', shown'⟩ := shown
  have stops : ∀ data, (kernel.memory.backAll true userStackPages).memory.storeBytes
      (initialPointer argv envp) data (stackSpace argv envp) = none := by
    intro data
    obtain ⟨count, counted⟩ : ∃ count, stackSpace argv envp = count + 1 :=
      ⟨stackSpace argv envp - 1, by omega⟩
    rw [counted] at place ordinary ⊢
    by_contra stored
    obtain ⟨after, stored⟩ := Option.ne_none_iff_exists'.mp stored
    obtain ⟨middle, before, last⟩ := Option.bind_eq_some_iff.mp stored
    have stores := settled'.storeBytes
      (fun index inside => ordinary index (Nat.lt_succ_of_lt inside)) before
    -- The last byte lies in the page that is not mapped.
    have page : pageNumber (initialPointer argv envp + BitVec.ofNat 64 count) = 0x7FFFFFFFF := by
      rw [pageNumber, place count (Nat.lt_succ_self count)]
      omega
    have absent : middle.vmm.translate (initialPointer argv envp + BitVec.ofNat 64 count) = none := by
      rw [stores.settled.tables.translate_eq_none_iff (ordinary count (Nat.lt_succ_self count)), page,
        stores.shown, shown']
    rw [PagedMemory.storeByte, absent] at last
    split at last
    · cases last
    · cases last
  rw [setupProcessStack]
  generalize kernel.memory.backAll true userStackPages = backing at enough stops
  dsimp only
  -- The words fit the stack, so the call goes on to store them.
  have within : ¬ 8 * (stackWords argv envp).length > userStackSize := Nat.not_lt.mpr fits
  have stop := stops fun index =>
    byteOf ((stackWords argv envp).getD (index / 8) 0#64).toNat (index % 8)
  simp only [stackSpace, initialPointer, stackWords] at within stop
  rw [enough, if_neg Bool.false_ne_true, if_neg within, stop]
  rfl

end Kernel

end Pocky
