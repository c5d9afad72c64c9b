import Mathlib.Data.List.Basic
import Mathlib.Logic.Function.Basic
import Pocky.Lib.Simulation

/-!
A memory of allocated blocks whose slots hold a value or nothing.

Every access is checked, so that a computation over the memory is undefined as soon as it reads a
slot that holds nothing, or touches a block that has been given back.
-/

namespace Pocky

/-- Why a computation over blocks has no result. -/
inductive Stop where
  /-- The memory did not grant a block. -/
  | refused
  /-- An access that means nothing. -/
  | undefined
  /-- A value that is never destroyed has lost its place. -/
  | lost
  deriving Repr, DecidableEq

/-- A block: what it takes, how many slots it has, and what they hold. -/
@[ext]
structure Block (α : Type) where
  /-- The bytes it takes. -/
  bytes : Nat
  /-- The number of slots. -/
  size : Nat
  /-- What a slot holds. -/
  slot : Nat → Option α

/-- A block with another value in a slot, or with none. -/
def Block.set {α : Type} (held : Block α) (slot : Nat) (value : Option α) : Block α :=
  { held with slot := Function.update held.slot slot value }

/-- A block with other values in a row of slots. -/
def Block.fill {α : Type} (held : Block α) (first count : Nat) (values : Nat → Option α) : Block α :=
  { held with slot := fun slot =>
      if first ≤ slot ∧ slot < first + count then values slot else held.slot slot }

/-- A block in which a row of slots has been moved down by one. -/
def Block.shift {α : Type} (held : Block α) (first count : Nat) : Block α :=
  { held with slot := fun slot =>
      if slot < first ∨ first + count < slot then held.slot slot
      else if slot = first + count then none else held.slot (slot + 1) }

section Slots

variable {α : Type} {held : Block α} {slot : Nat} {value : Option α}

@[simp] theorem Block.set_bytes : (held.set slot value).bytes = held.bytes := rfl

@[simp] theorem Block.set_size : (held.set slot value).size = held.size := rfl

@[simp] theorem Block.set_self : (held.set slot value).slot slot = value := Function.update_self ..

/-- The other slots hold what they held. -/
theorem Block.set_of_ne {other : Nat} (apart : other ≠ slot) :
    (held.set slot value).slot other = held.slot other := Function.update_of_ne apart ..

/-- No slot is another one. -/
theorem Block.fill_zero (first : Nat) (values : Nat → Option α) : held.fill first 0 values = held := by
  refine Block.ext rfl rfl ?_
  funext other
  exact if_neg (by omega)

/-- The first slot of a row, and then the others. -/
theorem Block.set_fill (first count : Nat) (values : Nat → Option α) :
    (held.set first (values first)).fill (first + 1) count values =
      held.fill first (count + 1) values := by
  simp only [fill, set_bytes, set_size, mk.injEq, true_and]
  funext other
  by_cases equal : other = first
  · subst equal
    rw [if_neg (by omega), set_self, if_pos (by omega)]
  · rw [set_of_ne equal]
    exact if_congr (by omega) rfl rfl

/-- Nothing has been moved to an empty slot. -/
theorem Block.shift_zero (raw : held.slot slot = none) : held.shift slot 0 = held := by
  refine Block.ext rfl rfl ?_
  funext other
  show (if other < slot ∨ slot + 0 < other then held.slot other
    else if other = slot + 0 then none else held.slot (other + 1)) = held.slot other
  split
  · rfl
  · rw [if_pos (by omega), show other = slot by omega, raw]

/-- The first slot of a row is moved down, and then the others. -/
theorem Block.set_shift (count : Nat) (holds : held.slot (slot + 1) = value) :
    ((held.set slot value).set (slot + 1) none).shift (slot + 1) count = held.shift slot (count + 1) := by
  simp only [shift, set_bytes, set_size, mk.injEq, true_and]
  funext other
  rcases Nat.lt_trichotomy other slot with before | rfl | behind
  · rw [if_pos (Or.inl (by omega)), if_pos (Or.inl before), set_of_ne (by omega), set_of_ne (by omega)]
  · rw [if_pos (Or.inl (by omega)), set_of_ne (by omega), set_self, if_neg (by omega),
      if_neg (by omega), holds]
  · by_cases past : slot + 1 + count < other
    · rw [if_pos (Or.inr past), if_pos (Or.inr (by omega)), set_of_ne (by omega), set_of_ne (by omega)]
    · have apart : ¬ (other < slot + 1 ∨ slot + 1 + count < other) := by omega
      have apart' : ¬ (other < slot ∨ slot + (count + 1) < other) := by omega
      rw [if_neg apart, if_neg apart', set_of_ne (by omega), set_of_ne (by omega)]
      exact if_congr (by omega) rfl rfl

end Slots

/-- BlockMemory by number; a number is never given out twice. -/
structure BlockMemory (α : Type) where
  /-- The blocks that have not been given back. -/
  block : Nat → Option (Block α)
  /-- The number of the next block. -/
  next : Nat
  /-- How many bytes the blocks take. -/
  used : Nat
  /-- How many bytes they may take. -/
  limit : Nat

namespace BlockMemory

variable {α : Type}

/-- A memory without a block. -/
def empty (limit : Nat) : BlockMemory α := ⟨fun _ => none, 0, 0, limit⟩

section Accesses

variable (memory : BlockMemory α)

/-- A memory in which one block is another. -/
def put (block : Nat) (held : Block α) : BlockMemory α :=
  { memory with block := Function.update memory.block block (some held) }

/-- A memory without one of its blocks. -/
def drop (block : Nat) (held : Block α) : BlockMemory α :=
  { memory with block := Function.update memory.block block none, used := memory.used - held.bytes }

/-- Taking a block of some bytes that has room for some slots. -/
def allocate (bytes slots : Nat) : Except Stop (Nat × BlockMemory α) :=
  if memory.limit < memory.used + bytes then .error .refused
  else .ok (memory.next, { memory with
    block := Function.update memory.block memory.next (some ⟨bytes, slots, fun _ => none⟩)
    next := memory.next + 1
    used := memory.used + bytes })

/-- Giving a block back. -/
def release (pointer : Nat) : Except Stop (BlockMemory α) :=
  match memory.block pointer with
  | none => .error .undefined
  | some held => .ok (memory.drop pointer held)

/-- The block and the slot that an access means, if it means one. -/
def place (pointer : Option Nat) (slot : Nat) : Except Stop (Nat × Block α) :=
  match pointer with
  | none => .error .undefined
  | some block =>
    match memory.block block with
    | none => .error .undefined
    | some held => if held.size ≤ slot then .error .undefined else .ok (block, held)

/-- Reading a slot. -/
def read (pointer : Option Nat) (slot : Nat) : Except Stop α := do
  let (_, held) ← memory.place pointer slot
  match held.slot slot with
  | none => .error .undefined
  | some value => .ok value

/-- Putting a new value into a slot that holds none. -/
def construct (pointer : Option Nat) (slot : Nat) (value : α) : Except Stop (BlockMemory α) := do
  let (block, held) ← memory.place pointer slot
  match held.slot slot with
  | some _ => .error .lost
  | none => .ok (memory.put block (held.set slot (some value)))

/-- Destroying the value of a slot. -/
def destroy (pointer : Option Nat) (slot : Nat) : Except Stop (BlockMemory α) := do
  let (block, held) ← memory.place pointer slot
  match held.slot slot with
  | none => .error .undefined
  | some _ => .ok (memory.put block (held.set slot none))

/-- Writing over whatever a slot holds. -/
def write (pointer : Option Nat) (slot : Nat) (value : α) : Except Stop (BlockMemory α) := do
  let (block, held) ← memory.place pointer slot
  return memory.put block (held.set slot (some value))

end Accesses

variable {memory : BlockMemory α} {block : Nat} {held : Block α} {slot : Nat} {value : α}

@[simp] theorem put_block : (memory.put block held).block =
    Function.update memory.block block (some held) := rfl

@[simp] theorem put_next : (memory.put block held).next = memory.next := rfl

@[simp] theorem put_limit : (memory.put block held).limit = memory.limit := rfl

/-- The block that has been put is there. -/
theorem put_live (memory : BlockMemory α) (block : Nat) (held : Block α) :
    (memory.put block held).block block = some held := Function.update_self ..

/-- Putting a block twice is putting it the second time. -/
@[simp] theorem put_put (other : Block α) : (memory.put block held).put block other =
    memory.put block other := by
  simp only [put, Function.update_idem]

/-- Putting a block where it is already. -/
theorem put_self (live : memory.block block = some held) : memory.put block held = memory := by
  rw [put, ← live, Function.update_eq_self]

/-- Two blocks may be put in either order. -/
theorem put_comm {other : Nat} (apart : other ≠ block) (held' : Block α) :
    (memory.put block held).put other held' = (memory.put other held').put block held := by
  simp only [put, Function.update_comm apart]

/-- An access inside a live block means that block. -/
theorem place_eq (live : memory.block block = some held) (inside : slot < held.size) :
    memory.place (some block) slot = .ok (block, held) := by
  simp only [place, live, if_neg (Nat.not_le.mpr inside)]

/-- Reading a slot that holds a value. -/
theorem read_eq (live : memory.block block = some held) (inside : slot < held.size)
    (holds : held.slot slot = some value) : memory.read (some block) slot = .ok value := by
  rw [read, place_eq live inside]
  simp only [bind, Except.bind, holds]

/-- Filling a slot that holds nothing. -/
theorem construct_eq (live : memory.block block = some held) (inside : slot < held.size)
    (raw : held.slot slot = none) :
    memory.construct (some block) slot value =
      .ok (memory.put block (held.set slot (some value))) := by
  rw [construct, place_eq live inside]
  simp only [bind, Except.bind, raw]

/-- Emptying a slot that holds a value. -/
theorem destroy_eq (live : memory.block block = some held) (inside : slot < held.size)
    (holds : held.slot slot = some value) :
    memory.destroy (some block) slot = .ok (memory.put block (held.set slot none)) := by
  rw [destroy, place_eq live inside]
  simp only [bind, Except.bind, holds]

/-- Writing inside a live block. -/
theorem write_eq (live : memory.block block = some held) (inside : slot < held.size) :
    memory.write (some block) slot value = .ok (memory.put block (held.set slot (some value))) := by
  rw [write, place_eq live inside]
  rfl

/-- Giving a live block back. -/
theorem release_eq (live : memory.block block = some held) :
    memory.release block = .ok (memory.drop block held) := by
  simp only [release, live]

/-- Reading from a block that has been given back means nothing. -/
theorem read_released (gone : memory.block block = none) :
    memory.read (some block) slot = .error .undefined := by
  simp only [read, place, gone, bind, Except.bind]

/-- Numbers from the next one on are not in use. -/
def Fresh (memory : BlockMemory α) : Prop := ∀ block, memory.next ≤ block → memory.block block = none

/-- A memory in which a block has become another one, or a new one, and nothing else has changed. -/
structure Changes (before after : BlockMemory α) (old new : Option Nat) : Prop where
  /-- The numbers are those of the blocks there have been. -/
  next : before.next ≤ after.next
  /-- There are no others. -/
  fresh : after.Fresh
  /-- As much may be taken as before. -/
  limit : after.limit = before.limit
  /-- Any other block is what it was, and the old one is gone if it is not the new one. -/
  others : ∀ block, new ≠ some block →
    after.block block = if old = some block then none else before.block block
  /-- The new block is the old one, or had not been given out before. -/
  new : ∀ block, new = some block → old = some block ∨ before.next ≤ block

/-- Nothing has changed. -/
theorem Changes.refl (fresh : memory.Fresh) (pointer : Option Nat) :
    memory.Changes memory pointer pointer := by
  refine ⟨Nat.le_refl _, fresh, rfl, fun block other => ?_, fun block same => Or.inl same⟩
  rw [if_neg other]

/-- Two changes of one block, one after the other. -/
theorem Changes.trans {before middle after : BlockMemory α} {old between new : Option Nat}
    (fresh : before.Fresh) (first : before.Changes middle old between)
    (second : middle.Changes after between new) : before.Changes after old new := by
  refine ⟨Nat.le_trans first.next second.next, second.fresh, second.limit.trans first.limit, ?_, ?_⟩
  · intro block other
    rw [second.others block other]
    by_cases held : between = some block
    · -- The block in between is gone; it was the old one or had not been given out.
      rw [if_pos held]
      rcases first.new block held with same | late
      · rw [if_pos same]
      · split
        · rfl
        · exact (fresh block late).symm
    · rw [if_neg held, first.others block held]
  · intro block same
    rcases second.new block same with held | late
    · exact first.new block held
    · exact Or.inr (Nat.le_trans first.next late)

/-- A new block, and then an old one that is given back. -/
theorem Changes.replace {before middle after : BlockMemory α} {old new : Option Nat}
    (first : before.Changes middle none new) (second : middle.Changes after old none) :
    before.Changes after old new := by
  refine ⟨Nat.le_trans first.next second.next, second.fresh, second.limit.trans first.limit, ?_, ?_⟩
  · intro block other
    rw [second.others block nofun, first.others block other, if_neg (show ¬ none = some block by nofun)]
  · intro block same
    exact Or.inr ((first.new block same).resolve_left nofun)

/-- A block in use has a number that has been given out. -/
theorem Fresh.lt (fresh : memory.Fresh) (live : memory.block block = some held) :
    block < memory.next := by
  by_contra late
  rw [fresh block (Nat.le_of_not_lt late)] at live
  cases live

/-- Putting a live block changes it. -/
theorem Changes.put (fresh : memory.Fresh) {old : Block α} (live : memory.block block = some old)
    (held : Block α) : memory.Changes (memory.put block held) (some block) (some block) := by
  have below := fresh.lt live
  refine ⟨Nat.le_refl _, ?_, rfl, ?_, fun _ same => Or.inl same⟩
  · intro other late
    have apart : other ≠ block := by
      rintro rfl
      exact absurd late (Nat.not_le.mpr below)
    rw [put_block, Function.update_of_ne apart]
    exact fresh other late
  · intro other apart
    rw [if_neg apart, put_block, Function.update_of_ne fun same => apart (congrArg some same.symm)]

/-- Giving a block back leaves none in its place. -/
theorem Changes.drop (fresh : memory.Fresh) (block : Nat) (held : Block α) :
    memory.Changes (memory.drop block held) (some block) none := by
  have blocks : (memory.drop block held).block = Function.update memory.block block none := rfl
  refine ⟨Nat.le_refl _, ?_, rfl, ?_, ?_⟩
  · intro other late
    rw [blocks, Function.update_apply]
    split
    · rfl
    · exact fresh other late
  · intro other _
    simp only [blocks, Function.update_apply, Option.some.injEq, eq_comm]
  · rintro other ⟨⟩

/-- Taking a block either is refused or gives an empty one with a new number. -/
theorem allocate_ends (fresh : memory.Fresh) (bytes slots : Nat) :
    Simulation.EndsWell (· = .refused) (fun result =>
      memory.Changes result.2 none (some result.1) ∧ memory.next ≤ result.1 ∧
        bytes ≤ memory.limit ∧ result.2.block result.1 = some ⟨bytes, slots, fun _ => none⟩)
      (memory.allocate bytes slots) := by
  rw [allocate]
  split
  · rfl
  · rename_i granted
    refine ⟨⟨Nat.le_succ _, ?_, rfl, ?_, ?_⟩, Nat.le_refl _, by omega, Function.update_self ..⟩
    · intro other late
      have apart : other ≠ memory.next := Nat.ne_of_gt late
      show Function.update memory.block memory.next _ other = none
      rw [Function.update_of_ne apart]
      exact fresh other (Nat.le_of_succ_le late)
    · intro other apart
      rw [if_neg nofun]
      exact Function.update_of_ne (fun same => apart (congrArg some same.symm)) ..
    · intro other same
      exact Or.inr (Nat.le_of_eq (Option.some.inj same))

end BlockMemory

end Pocky
