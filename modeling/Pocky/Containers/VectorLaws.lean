import Mathlib.Data.List.Basic
import Pocky.Containers.Vector

/-! Vectors behave as lists, and keep their storage and their elements in order. -/

namespace Pocky

namespace VectorObject

variable {α : Type} {block : Nat}

section Loops

/-- Destroying a row of elements empties their slots. -/
theorem destroyFrom_eq (remaining : Nat) :
    ∀ {memory : BlockMemory α} {held : Block α} (index : Nat), memory.block block = some held →
      index + remaining ≤ held.size →
      (∀ slot, index ≤ slot → slot < index + remaining → (held.slot slot).isSome) →
      destroyFrom memory (some block) remaining index =
        .ok (memory.put block (held.fill index remaining fun _ => none)) := by
  -- By induction on the number of elements that are left.
  induction remaining with
  | zero =>
    intro memory held index live _ _
    rw [Block.fill_zero, BlockMemory.put_self live]
    rfl
  | succ remaining ih =>
    intro memory held index live inside full
    obtain ⟨value, holds⟩ := Option.isSome_iff_exists.mp (full index (Nat.le_refl _) (by omega))
    rw [destroyFrom, BlockMemory.destroy_eq live (by omega) holds]
    show destroyFrom _ _ _ _ = _
    rw [ih (index + 1) (BlockMemory.put_live _ _ (held.set index none))
      (by rw [Block.set_size]; omega), BlockMemory.put_put, Block.set_fill index remaining fun _ => none]
    intro slot behind before
    rw [Block.set_of_ne (by omega)]
    exact full slot (by omega) (by omega)

/-- Constructing a row of elements fills slots that were empty. -/
theorem constructFrom_eq (default : α) (remaining : Nat) :
    ∀ {memory : BlockMemory α} {held : Block α} (index : Nat), memory.block block = some held →
      index + remaining ≤ held.size →
      (∀ slot, index ≤ slot → slot < index + remaining → held.slot slot = none) →
      constructFrom memory (some block) default remaining index =
        .ok (memory.put block (held.fill index remaining fun _ => some default)) := by
  -- By induction on the number of elements that are left.
  induction remaining with
  | zero =>
    intro memory held index live _ _
    rw [Block.fill_zero, BlockMemory.put_self live]
    rfl
  | succ remaining ih =>
    intro memory held index live inside raw
    rw [constructFrom, BlockMemory.construct_eq live (by omega) (raw index (Nat.le_refl _) (by omega))]
    show constructFrom _ _ _ _ _ = _
    rw [ih (index + 1) (BlockMemory.put_live _ _ (held.set index (some default)))
      (by rw [Block.set_size]; omega), BlockMemory.put_put,
      Block.set_fill index remaining fun _ => some default]
    intro slot behind before
    rw [Block.set_of_ne (by omega)]
    exact raw slot (by omega) (by omega)

variable {source : Nat} (apart : source ≠ block)
include apart

/-- Copying a row of elements fills slots that were empty with those of the source. -/
theorem copyFrom_eq {origin : Block α} (remaining : Nat) :
    ∀ {memory : BlockMemory α} {held : Block α} (index : Nat), memory.block block = some held →
      memory.block source = some origin → index + remaining ≤ held.size →
      index + remaining ≤ origin.size →
      (∀ slot, index ≤ slot → slot < index + remaining →
        held.slot slot = none ∧ (origin.slot slot).isSome) →
      copyFrom memory (some block) (some source) remaining index =
        .ok (memory.put block (held.fill index remaining origin.slot)) := by
  -- By induction on the number of elements that are left.
  induction remaining with
  | zero =>
    intro memory held index live _ _ _ _
    rw [Block.fill_zero, BlockMemory.put_self live]
    rfl
  | succ remaining ih =>
    intro memory held index live other inside inside' rows
    obtain ⟨raw, full⟩ := rows index (Nat.le_refl _) (by omega)
    obtain ⟨value, holds⟩ := Option.isSome_iff_exists.mp full
    rw [copyFrom, BlockMemory.read_eq other (by omega) holds]
    show (memory.construct (some block) index value >>= fun memory =>
      copyFrom memory (some block) (some source) remaining (index + 1)) = _
    rw [BlockMemory.construct_eq live (by omega) raw, ← holds]
    show copyFrom _ _ _ _ _ = _
    rw [ih (index + 1) (BlockMemory.put_live _ _ (held.set index (origin.slot index)))
      (by rw [BlockMemory.put_block, Function.update_of_ne apart, other])
      (by rw [Block.set_size]; omega) (by omega), BlockMemory.put_put, Block.set_fill]
    intro slot behind before
    rw [Block.set_of_ne (by omega)]
    exact rows slot (by omega) (by omega)

/-- Moving a row of elements fills slots that were empty and empties those of the source. -/
theorem moveFrom_eq (values : Nat → Option α) (remaining : Nat) :
    ∀ {memory : BlockMemory α} {held origin : Block α} (index : Nat), memory.block block = some held →
      memory.block source = some origin → index + remaining ≤ held.size →
      index + remaining ≤ origin.size →
      (∀ slot, index ≤ slot → slot < index + remaining →
        held.slot slot = none ∧ origin.slot slot = values slot ∧ (values slot).isSome) →
      moveFrom memory (some block) (some source) remaining index =
        .ok ((memory.put block (held.fill index remaining values)).put source
          (origin.fill index remaining fun _ => none)) := by
  -- By induction on the number of elements that are left.
  induction remaining with
  | zero =>
    intro memory held origin index live other _ _ _
    rw [Block.fill_zero, Block.fill_zero, BlockMemory.put_self live, BlockMemory.put_self other]
    rfl
  | succ remaining ih =>
    intro memory held origin index live other inside inside' rows
    obtain ⟨raw, same, full⟩ := rows index (Nat.le_refl _) (by omega)
    obtain ⟨value, holds⟩ := Option.isSome_iff_exists.mp full
    have other' : (memory.put block (held.set index (values index))).block source = some origin := by
      rw [BlockMemory.put_block, Function.update_of_ne apart, other]
    have filled : ((memory.put block (held.set index (values index))).put source
        (origin.set index none)).block block = some (held.set index (values index)) := by
      rw [BlockMemory.put_block, Function.update_of_ne (Ne.symm apart), BlockMemory.put_live]
    rw [moveFrom, BlockMemory.read_eq other (by omega) (same.trans holds)]
    show (memory.construct (some block) index value >>= fun memory =>
      memory.destroy (some source) index >>= fun memory =>
        moveFrom memory (some block) (some source) remaining (index + 1)) = _
    rw [BlockMemory.construct_eq live (by omega) raw, ← holds]
    show (BlockMemory.destroy _ (some source) index >>= fun memory =>
        moveFrom memory (some block) (some source) remaining (index + 1)) = _
    rw [BlockMemory.destroy_eq other' (by omega) (same.trans holds)]
    show moveFrom _ _ _ _ _ = _
    rw [ih (index + 1) filled (BlockMemory.put_live _ _ (origin.set index none))
      (by rw [Block.set_size]; omega) (by rw [Block.set_size]; omega),
      BlockMemory.put_comm (Ne.symm apart), BlockMemory.put_put, BlockMemory.put_put, Block.set_fill,
      Block.set_fill index remaining fun _ => none]
    intro slot behind before
    rw [Block.set_of_ne (by omega), Block.set_of_ne (by omega)]
    exact rows slot (by omega) (by omega)

end Loops

/-- Moving a row of elements down by one closes the gap in front of it and leaves one behind it. -/
theorem shiftFrom_eq (remaining : Nat) :
    ∀ {memory : BlockMemory α} {held : Block α} (index : Nat), memory.block block = some held →
      index + remaining < held.size → held.slot index = none →
      (∀ slot, index < slot → slot ≤ index + remaining → (held.slot slot).isSome) →
      shiftFrom memory (some block) remaining index =
        .ok (memory.put block (held.shift index remaining)) := by
  -- By induction on the number of elements that are left.
  induction remaining with
  | zero =>
    intro memory held index live _ raw _
    rw [Block.shift_zero raw, BlockMemory.put_self live]
    rfl
  | succ remaining ih =>
    intro memory held index live inside raw full
    obtain ⟨value, holds⟩ := Option.isSome_iff_exists.mp (full (index + 1) (by omega) (by omega))
    rw [shiftFrom, BlockMemory.read_eq live (by omega) holds]
    show (memory.construct (some block) index value >>= fun memory =>
      memory.destroy (some block) (index + 1) >>= fun memory =>
        shiftFrom memory (some block) remaining (index + 1)) = _
    rw [BlockMemory.construct_eq live (by omega) raw]
    show (BlockMemory.destroy _ (some block) (index + 1) >>= fun memory =>
        shiftFrom memory (some block) remaining (index + 1)) = _
    rw [BlockMemory.destroy_eq (BlockMemory.put_live _ _ (held.set index (some value)))
      (by rw [Block.set_size]; omega) ((Block.set_of_ne (by omega)).trans holds), BlockMemory.put_put]
    show shiftFrom _ _ _ _ = _
    rw [ih (index + 1)
      (BlockMemory.put_live _ _ ((held.set index (some value)).set (index + 1) none))
      (by rw [Block.set_size, Block.set_size]; omega) Block.set_self,
      BlockMemory.put_put, Block.set_shift remaining holds]
    intro slot behind before
    rw [Block.set_of_ne (by omega), Block.set_of_ne (by omega)]
    exact full slot (by omega) (by omega)

end VectorObject

/-- What a vector stands for: its elements in order, and how many its storage has room for. -/
structure Shelf (α : Type) where
  /-- The elements. -/
  items : List α
  /-- The room. -/
  capacity : Nat
  deriving Repr, DecidableEq

/-- The storage of a vector: its elements, and nothing in the slots behind them. -/
def Shelf.block {α : Type} (width : Nat) (shelf : Shelf α) : Block α :=
  ⟨width * shelf.capacity, shelf.capacity, fun slot => shelf.items[slot]?⟩

/-- The room of a vector after it has been made sure that another element fits. -/
def Shelf.grown {α : Type} (shelf : Shelf α) : Nat :=
  if shelf.capacity ≤ shelf.items.length then
    if shelf.capacity = 0 then 1 else shelf.capacity * 2
  else shelf.capacity

namespace VectorObject

open Simulation

variable {α : Type} {width : Nat} {memory : BlockMemory α} {this : VectorObject} {shelf : Shelf α}

/-- A vector whose members and storage are those of a shelf. -/
structure Holds (width : Nat) (memory : BlockMemory α) (this : VectorObject) (shelf : Shelf α) :
    Prop where
  /-- It counts its elements. -/
  size : this.size = shelf.items.length
  /-- It knows how many its storage is for, -/
  capacity : this.capacity = shelf.capacity
  /-- and has no more elements than that. -/
  fits : shelf.items.length ≤ shelf.capacity
  /-- Without storage there is no room. -/
  null : this.data = none → shelf.capacity = 0
  /-- The storage holds the elements, -/
  storage : ∀ block, this.data = some block → memory.block block = some (shelf.block width)
  /-- and is no more than the heap can give. -/
  bounded : width * shelf.capacity ≤ memory.limit

/-- A call either is refused memory or leaves a given shelf, and touches no other storage. -/
def Leaves (width : Nat) (memory : BlockMemory α) (data : Option Nat) (shelf : Shelf α)
    (result : Except Stop (BlockMemory α × VectorObject)) : Prop :=
  EndsWell (· = .refused) (fun after => Holds width after.1 after.2 shelf ∧
    memory.Changes after.1 data after.2.data) result

/-- A slot of the storage. -/
@[simp] theorem block_slot (slot : Nat) : (shelf.block width).slot slot = shelf.items[slot]? := rfl

@[simp] theorem block_size : (shelf.block width).size = shelf.capacity := rfl

/-- Storage from which all elements have been taken. -/
theorem emptied_block : (shelf.block width).fill 0 shelf.items.length (fun _ => none) =
    Shelf.block width ⟨[], shelf.capacity⟩ := by
  refine Block.ext rfl rfl (funext fun slot => ?_)
  simp only [Block.fill, Shelf.block, List.getElem?_nil]
  split
  · rfl
  · exact List.getElem?_eq_none (by omega)

/-- Storage into which the elements of a vector have been put. -/
theorem fill_block (capacity : Nat) :
    (Shelf.block width ⟨[], capacity⟩).fill 0 shelf.items.length (shelf.block width).slot =
      Shelf.block width ⟨shelf.items, capacity⟩ := by
  refine Block.ext rfl rfl (funext fun slot => ?_)
  simp only [Block.fill, Shelf.block, List.getElem?_nil]
  split
  · rfl
  · exact (List.getElem?_eq_none (by omega)).symm

/-- Without storage there are no elements. -/
theorem Holds.items_nil (holds : Holds width memory this shelf) (null : this.data = none) :
    shelf.items = [] ∧ this.size = 0 := by
  have none : shelf.items.length = 0 := Nat.le_zero.mp (holds.null null ▸ holds.fits)
  exact ⟨List.length_eq_zero_iff.mp none, holds.size.trans none⟩

/-- With an element there is storage. -/
theorem Holds.exists_block (holds : Holds width memory this shelf) (room : 0 < shelf.capacity) :
    ∃ block, this.data = some block := by
  cases place : this.data with
  | none => exact absurd (holds.null place) (by omega)
  | some block => exact ⟨block, rfl⟩

/-- Storage that holds other elements of the same number of slots. -/
theorem Holds.put (fresh : memory.Fresh) (holds : Holds width memory this shelf) {block : Nat}
    (place : this.data = some block) (items : List α) (fits : items.length ≤ shelf.capacity) :
    Holds width (memory.put block (Shelf.block width ⟨items, shelf.capacity⟩))
        { this with size := items.length } ⟨items, shelf.capacity⟩ ∧
      memory.Changes (memory.put block (Shelf.block width ⟨items, shelf.capacity⟩)) this.data
        this.data := by
  refine ⟨⟨rfl, holds.capacity, fits, holds.null, ?_, holds.bounded⟩, ?_⟩
  · intro other place'
    cases place.symm.trans place'
    exact Function.update_self ..
  · rw [place]
    exact BlockMemory.Changes.put fresh (holds.storage block place) _

/-- Whatever a vector's storage becomes, it is not that of another vector. -/
theorem Holds.apart {after : BlockMemory α} {old new : Option Nat} (fresh : memory.Fresh)
    (holds : Holds width memory this shelf) (changes : memory.Changes after old new)
    (away : ∀ block, this.data = some block → old ≠ some block) (block : Nat)
    (place : this.data = some block) : new ≠ some block := by
  intro same
  rcases changes.new block same with was | late
  · exact away block place was
  · exact absurd (fresh.lt (holds.storage block place)) (Nat.not_lt.mpr late)

/-- A vector stays what it is when another block changes. -/
theorem Holds.frame {after : BlockMemory α} {old new : Option Nat} (fresh : memory.Fresh)
    (holds : Holds width memory this shelf) (changes : memory.Changes after old new)
    (apart : ∀ block, this.data = some block → old ≠ some block) : Holds width after this shelf := by
  refine ⟨holds.size, holds.capacity, holds.fits, holds.null, ?_, changes.limit ▸ holds.bounded⟩
  intro block place
  rw [changes.others block (holds.apart fresh changes apart block place),
    if_neg (apart block place), holds.storage block place]

section Storage

variable (positive : 0 < width)
include positive

/-- New storage is empty. -/
theorem operatorNew_ends (fresh : memory.Fresh) {count : Nat} (small : width * count < 2 ^ 64) :
    EndsWell (· = .refused) (fun result => memory.Changes result.2 none (some result.1) ∧
      memory.next ≤ result.1 ∧ width * count ≤ memory.limit ∧
      result.2.block result.1 = some (Shelf.block width ⟨[], count⟩))
      (operatorNew memory width count) := by
  rw [operatorNew, Nat.mod_eq_of_lt small]
  split
  · rfl
  · rw [Nat.mul_div_cancel_left count positive]
    refine (BlockMemory.allocate_ends fresh (width * count) count).mono ?_
    rintro ⟨block, after⟩ ⟨changes, late, enough, held⟩
    exact ⟨changes, late, enough, held⟩

omit positive in
/-- Storage without elements may be given back. -/
theorem operatorDelete_ends (fresh : memory.Fresh)
    (holds : Holds width memory this ⟨[], shelf.capacity⟩) :
    EndsWell (· = .refused) (fun after => memory.Changes after this.data none)
      (operatorDelete memory this.data) := by
  cases place : this.data with
  | none => exact BlockMemory.Changes.refl fresh none
  | some block =>
    have live := holds.storage block place
    have raw : ((List.range (Shelf.block width ⟨[], shelf.capacity⟩ : Block α).size).all fun slot =>
        ((Shelf.block width ⟨[], shelf.capacity⟩ : Block α).slot slot).isNone) = true := by
      simp
    simp only [operatorDelete, live]
    rw [if_pos raw, BlockMemory.release_eq live]
    exact BlockMemory.Changes.drop fresh block _

omit positive in
/-- All elements are destroyed. -/
theorem clear_leaves (fresh : memory.Fresh) (holds : Holds width memory this shelf) :
    Leaves width memory this.data ⟨[], shelf.capacity⟩ (clear memory this) := by
  cases place : this.data with
  | none =>
    obtain ⟨nil, size⟩ := holds.items_nil place
    rw [clear, size]
    refine ⟨⟨rfl, holds.capacity, Nat.zero_le _, holds.null, ?_, holds.bounded⟩, ?_⟩
    · intro block some
      rw [place] at some
      cases some
    · rw [place]
      exact BlockMemory.Changes.refl fresh none
  | some block =>
    rw [clear, place, holds.size, destroyFrom_eq shelf.items.length 0 (holds.storage block place)
      (by rw [block_size, Nat.zero_add]; exact holds.fits) (by
        intro slot _ inside
        rw [block_slot, List.getElem?_eq_getElem (by omega), Option.isSome_some]), emptied_block]
    have stored := holds.put fresh place [] (Nat.zero_le _)
    rw [place] at stored
    exact ⟨place ▸ stored.1, place ▸ stored.2⟩

/-- More room has been made, with the same elements. -/
theorem reserve_leaves (fresh : memory.Fresh) (holds : Holds width memory this shelf)
    {newCapacity : Nat} (small : width * newCapacity < 2 ^ 64) :
    Leaves width memory this.data ⟨shelf.items, max shelf.capacity newCapacity⟩
      (reserve memory this width newCapacity) := by
  rw [reserve, holds.capacity]
  split
  · rename_i enough
    rw [Nat.max_eq_left enough]
    exact ⟨holds, BlockMemory.Changes.refl fresh _⟩
  · rename_i more
    rw [Nat.max_eq_right (by omega)]
    refine (operatorNew_ends positive fresh small).bind ?_
    rintro ⟨fresher, memory'⟩ ⟨changes, late, enough, held⟩
    dsimp only at changes late held
    have holds' : Holds width memory' this shelf := holds.frame fresh changes nofun
    dsimp only
    cases place : this.data with
    | none =>
      -- There is nothing to move.
      obtain ⟨nil, size⟩ := holds.items_nil place
      rw [size]
      refine ⟨⟨?_, rfl, ?_, nofun, ?_, ?_⟩, changes⟩
      · rw [nil]
        rfl
      · rw [nil]
        exact Nat.zero_le _
      · rintro block same
        cases same
        rw [held, nil]
      · exact changes.limit ▸ enough
    | some block =>
      have live := holds'.storage block place
      have apart : block ≠ fresher := by
        rintro rfl
        exact absurd (fresh.lt (holds.storage block place)) (Nat.not_lt.mpr late)
      have fits := holds.fits
      rw [holds.size, moveFrom_eq apart (shelf.block width).slot shelf.items.length 0 held live
        (by show 0 + _ ≤ newCapacity; omega) (by rw [block_size]; omega) (by
          intro slot _ inside
          refine ⟨rfl, rfl, ?_⟩
          rw [block_slot, List.getElem?_eq_getElem (by omega), Option.isSome_some]),
        fill_block, emptied_block]
      -- The new storage has been filled; the old one is empty and can be given back.
      have filled := BlockMemory.Changes.put changes.fresh held
        (Shelf.block width ⟨shelf.items, newCapacity⟩)
      obtain ⟨rest, emptied⟩ := (holds'.frame changes.fresh filled (by
        intro other same
        cases place.symm.trans same
        exact fun equal => apart (Option.some.inj equal).symm)).put filled.fresh place []
          (Nat.zero_le _)
      have deleted := operatorDelete_ends emptied.fresh rest
      dsimp only at deleted
      rw [place] at deleted emptied
      refine EndsWell.ok_bind (EndsWell.bind deleted ?_)
      intro after released
      have whole := (changes.trans fresh filled).replace (emptied.trans filled.fresh released)
      refine ⟨⟨rfl, rfl, by show shelf.items.length ≤ newCapacity; omega, nofun, ?_,
        whole.limit ▸ enough⟩, whole⟩
      rintro other same
      cases same
      rw [released.others fresher nofun, if_neg fun same => apart (Option.some.inj same),
        BlockMemory.put_block, Function.update_of_ne (Ne.symm apart), BlockMemory.put_block,
        Function.update_self]

/-- Another element fits. -/
theorem grow_leaves (fresh : memory.Fresh) (small : memory.limit < 2 ^ 63) (narrow : width < 2 ^ 63)
    (holds : Holds width memory this shelf) :
    Leaves width memory this.data ⟨shelf.items, shelf.grown⟩ (grow memory this width) ∧
      shelf.items.length < shelf.grown := by
  have fits := holds.fits
  have bounded := holds.bounded
  have more : shelf.capacity ≤ width * shelf.capacity := Nat.le_mul_of_pos_left _ positive
  rw [grow, holds.capacity, holds.size, Shelf.grown]
  by_cases full : shelf.capacity ≤ shelf.items.length
  · rw [if_pos full, if_pos full]
    by_cases none : shelf.capacity = 0
    · rw [if_pos none, if_pos none]
      have made := reserve_leaves positive fresh holds (show width * 1 < 2 ^ 64 by omega)
      rw [none, Nat.max_eq_right (by decide)] at made
      exact ⟨made, by omega⟩
    · rw [if_neg none, if_neg none, Nat.mod_eq_of_lt (by omega)]
      have made := reserve_leaves positive fresh holds
        (show width * (shelf.capacity * 2) < 2 ^ 64 by rw [← Nat.mul_assoc]; omega)
      rw [Nat.max_eq_right (by omega)] at made
      exact ⟨made, by omega⟩
  · rw [if_neg full, if_neg full]
    exact ⟨⟨holds, BlockMemory.Changes.refl fresh _⟩, by omega⟩

omit positive in
/-- A new element is put behind the others, where there is room. -/
theorem construct_leaves (fresh : memory.Fresh) (holds : Holds width memory this shelf)
    (room : shelf.items.length < shelf.capacity) (value : α) :
    Leaves width memory this.data ⟨shelf.items ++ [value], shelf.capacity⟩ (do
      let memory ← memory.construct this.data this.size value
      return (memory, { this with size := this.size + 1 })) := by
  obtain ⟨block, place⟩ := holds.exists_block (by omega)
  have appended : (shelf.block width).set shelf.items.length (some value) =
      Shelf.block width ⟨shelf.items ++ [value], shelf.capacity⟩ := by
    refine Block.ext rfl rfl (funext fun slot => ?_)
    simp only [Block.set, Shelf.block, Function.update_apply]
    grind
  have stored := holds.put fresh place (shelf.items ++ [value])
    (by rw [List.length_append, List.length_singleton]; omega)
  rw [List.length_append, List.length_singleton] at stored
  rw [place, holds.size, BlockMemory.construct_eq (holds.storage block place) room
    (List.getElem?_eq_none (Nat.le_refl _)), appended]
  rw [← place]
  exact stored

/-- A value from elsewhere is appended. -/
theorem pushBack_leaves (fresh : memory.Fresh) (small : memory.limit < 2 ^ 63)
    (narrow : width < 2 ^ 63) (holds : Holds width memory this shelf) (value : α) :
    Leaves width memory this.data ⟨shelf.items ++ [value], shelf.grown⟩
      (pushBack memory this width value) := by
  obtain ⟨grown, room⟩ := grow_leaves positive fresh small narrow holds
  refine EndsWell.bind grown ?_
  rintro ⟨memory', this'⟩ ⟨holds', changes⟩
  refine (construct_leaves changes.fresh holds' room value).mono ?_
  rintro after ⟨held, changes'⟩
  exact ⟨held, changes.trans fresh changes'⟩

/-- An element is appended if it can still be read when the room has been made. -/
theorem pushElement_leaves (fresh : memory.Fresh) (small : memory.limit < 2 ^ 63)
    (narrow : width < 2 ^ 63) (holds : Holds width memory this shelf) {source : Option Nat}
    {index : Nat} {value : α}
    (read : ∀ after, Holds width after.1 after.2 ⟨shelf.items, shelf.grown⟩ →
      memory.Changes after.1 this.data after.2.data → grow memory this width = .ok after →
      after.1.read source index = .ok value) :
    Leaves width memory this.data ⟨shelf.items ++ [value], shelf.grown⟩
      (pushElement memory this width source index) := by
  obtain ⟨grown, room⟩ := grow_leaves positive fresh small narrow holds
  rw [pushElement]
  cases grew : grow memory this width with
  | error stop =>
    rw [grew] at grown
    exact grown
  | ok after =>
    rw [grew] at grown
    obtain ⟨holds', changes⟩ := grown
    refine EndsWell.ok_bind ?_
    dsimp only
    rw [read after holds' changes grew]
    refine (construct_leaves changes.fresh holds' room value).mono ?_
    rintro last ⟨held, changes'⟩
    exact ⟨held, changes.trans fresh changes'⟩

omit positive in
/-- More room is storage with a new number. -/
theorem reserve_data {newCapacity : Nat} {after : BlockMemory α × VectorObject}
    (more : this.capacity < newCapacity) (returned : reserve memory this width newCapacity = .ok after) :
    after.2.data = some memory.next := by
  rw [reserve, if_neg (Nat.not_le.mpr more)] at returned
  obtain ⟨⟨block, memory'⟩, taken, returned⟩ := returned_first returned
  obtain ⟨_, -, returned⟩ := returned_first returned
  obtain ⟨_, -, returned⟩ := returned_first returned
  cases returned
  rw [operatorNew] at taken
  split at taken
  · cases taken
  · rw [BlockMemory.allocate] at taken
    split at taken
    · cases taken
    · cases taken
      rfl

/-- An element of a full vector is gone before it can be appended to that vector. -/
theorem pushElement_full (fresh : memory.Fresh) (small : memory.limit < 2 ^ 63)
    (narrow : width < 2 ^ 63) (holds : Holds width memory this shelf)
    (full : shelf.capacity ≤ shelf.items.length) {block : Nat} (place : this.data = some block)
    (index : Nat) (result : BlockMemory α × VectorObject) :
    pushElement memory this width this.data index ≠ .ok result := by
  intro returned
  obtain ⟨after, grew, returned⟩ := returned_first returned
  obtain ⟨grown, room⟩ := grow_leaves positive fresh small narrow holds
  obtain ⟨-, changes⟩ := grown.ok grew
  have replaced : after.2.data = some memory.next := by
    rw [grow, holds.capacity, holds.size, if_pos full] at grew
    refine reserve_data ?_ grew
    have bounded := holds.bounded
    have more : shelf.capacity ≤ width * shelf.capacity := Nat.le_mul_of_pos_left _ positive
    rw [holds.capacity]
    split
    · omega
    · rw [Nat.mod_eq_of_lt (by omega)]
      omega
  have gone : after.1.block block = none := by
    rw [changes.others block, if_pos place]
    rw [replaced]
    have below := fresh.lt (holds.storage block place)
    exact fun same => absurd (Option.some.inj same) (Nat.ne_of_gt below)
  dsimp only at returned
  rw [place, BlockMemory.read_released gone] at returned
  cases returned

omit positive in
/-- The last element is gone. -/
theorem popBack_leaves (fresh : memory.Fresh) (holds : Holds width memory this shelf) :
    Leaves width memory this.data ⟨shelf.items.dropLast, shelf.capacity⟩ (popBack memory this) := by
  have fits := holds.fits
  rw [popBack]
  split
  · rename_i some
    rw [holds.size] at some
    obtain ⟨block, place⟩ := holds.exists_block (by omega)
    have shorter : (shelf.block width).set (shelf.items.length - 1) none =
        Shelf.block width ⟨shelf.items.dropLast, shelf.capacity⟩ := by
      refine Block.ext rfl rfl (funext fun slot => ?_)
      simp only [Block.set, Shelf.block, Function.update_apply]
      grind
    have stored := holds.put fresh place shelf.items.dropLast
      (by rw [List.length_dropLast]; omega)
    rw [List.length_dropLast] at stored
    rw [holds.size, place, BlockMemory.destroy_eq (holds.storage block place)
      (by rw [block_size]; omega) (List.getElem?_eq_getElem (by omega)), shorter, ← place]
    exact stored
  · rename_i nothing
    rw [holds.size] at nothing
    rw [List.length_eq_zero_iff.mp (show shelf.items.length = 0 by omega), List.dropLast_nil]
    have same : (⟨[], shelf.capacity⟩ : Shelf α) = shelf := by
      rw [← List.length_eq_zero_iff.mp (show shelf.items.length = 0 by omega)]
    rw [same]
    exact ⟨holds, BlockMemory.Changes.refl fresh _⟩

omit positive in
/-- One element is gone, and those behind it have moved up. -/
theorem erase_leaves (fresh : memory.Fresh) (holds : Holds width memory this shelf) (index : Nat) :
    Leaves width memory this.data ⟨shelf.items.eraseIdx index, shelf.capacity⟩
      (erase memory this index) := by
  have fits := holds.fits
  rw [erase, holds.size]
  split
  · rename_i outside
    rw [List.eraseIdx_of_length_le outside]
    exact ⟨holds, BlockMemory.Changes.refl fresh _⟩
  · rename_i inside
    obtain ⟨block, place⟩ := holds.exists_block (by omega)
    have closed : ((shelf.block width).set index none).shift index (shelf.items.length - 1 - index) =
        Shelf.block width ⟨shelf.items.eraseIdx index, shelf.capacity⟩ := by
      refine Block.ext rfl rfl (funext fun slot => ?_)
      simp only [Block.set, Block.shift, Shelf.block, Function.update_apply]
      grind
    have stored := holds.put fresh place (shelf.items.eraseIdx index)
      (by rw [List.length_eraseIdx_of_lt (by omega)]; omega)
    rw [List.length_eraseIdx_of_lt (by omega)] at stored
    rw [place, BlockMemory.destroy_eq (holds.storage block place) (by rw [block_size]; omega)
      (List.getElem?_eq_getElem (by omega))]
    refine EndsWell.ok_bind ?_
    rw [shiftFrom_eq (shelf.items.length - 1 - index) index
      (BlockMemory.put_live _ _ ((shelf.block width).set index none))
      (by rw [Block.set_size, block_size]; omega) Block.set_self (by
        intro slot behind before
        rw [Block.set_of_ne (by omega), block_slot, List.getElem?_eq_getElem (by omega),
          Option.isSome_some]), BlockMemory.put_put, closed, ← place]
    exact stored

/-- The elements are as many as asked for: the first ones, and then default ones. -/
theorem resize_leaves (fresh : memory.Fresh) (holds : Holds width memory this shelf) (default : α)
    {newSize : Nat} (small : width * newSize < 2 ^ 64) :
    Leaves width memory this.data ⟨shelf.items.take newSize ++
        List.replicate (newSize - shelf.items.length) default, max shelf.capacity newSize⟩
      (resize memory this width default newSize) := by
  have made : Leaves width memory this.data ⟨shelf.items, max shelf.capacity newSize⟩
      (reserveMore memory this width newSize) := by
    rw [reserveMore]
    have grown := reserve_leaves positive fresh holds small
    split
    · exact grown
    · rename_i enough
      rw [reserve, if_pos (Nat.le_of_not_lt enough)] at grown
      exact grown
  refine EndsWell.bind made ?_
  rintro ⟨memory', this'⟩ ⟨holds', changes⟩
  dsimp only at holds' changes ⊢
  have fits := holds'.fits
  dsimp only at fits
  rw [holds'.size]
  dsimp only
  cases place : this'.data with
  | none =>
    -- Without room there is nothing to construct and nothing to destroy.
    have null := holds'.null place
    obtain ⟨nil, -⟩ := holds'.items_nil place
    dsimp only at null nil
    have zero : newSize = 0 := by omega
    subst zero
    rw [nil, null]
    refine ⟨⟨rfl, holds'.capacity.trans null, Nat.le_refl _, fun _ => rfl, ?_, ?_⟩, place ▸ changes⟩
    · rintro block ⟨⟩
    · rw [Nat.mul_zero]
      exact Nat.zero_le _
  | some block =>
    have live := holds'.storage block place
    have filled : ((Shelf.block width ⟨shelf.items, max shelf.capacity newSize⟩).fill shelf.items.length
        (newSize - shelf.items.length) fun _ => some default).fill newSize
          (shelf.items.length - newSize) (fun _ => none) =
        Shelf.block width ⟨shelf.items.take newSize ++
          List.replicate (newSize - shelf.items.length) default, max shelf.capacity newSize⟩ := by
      refine Block.ext rfl rfl (funext fun slot => ?_)
      simp only [Block.fill, Shelf.block]
      grind
    have length : (shelf.items.take newSize ++
        List.replicate (newSize - shelf.items.length) default).length = newSize := by
      rw [List.length_append, List.length_take, List.length_replicate]
      omega
    have stored := holds'.put changes.fresh place (shelf.items.take newSize ++
      List.replicate (newSize - shelf.items.length) default)
      (by rw [length]; exact Nat.le_max_right _ _)
    rw [length] at stored
    rw [constructFrom_eq default (newSize - shelf.items.length) shelf.items.length live
      (by show _ ≤ max shelf.capacity newSize; omega)
      (fun slot behind _ => List.getElem?_eq_none behind)]
    refine EndsWell.ok_bind ?_
    rw [destroyFrom_eq (shelf.items.length - newSize) newSize (BlockMemory.put_live _ _ _)
      (by show _ ≤ max shelf.capacity newSize; omega) (by
        intro slot behind before
        simp only [Block.fill, Shelf.block]
        rw [if_neg (by omega), List.getElem?_eq_getElem (by omega), Option.isSome_some]),
      BlockMemory.put_put, filled, ← place]
    exact ⟨stored.1, changes.trans fresh stored.2⟩

omit positive in
/-- Elements of another vector are copied into storage that has room for them and holds none. -/
theorem copyFrom_leaves {capacity : Nat} (fresh : memory.Fresh)
    (holds : Holds width memory this ⟨[], capacity⟩) {other : VectorObject}
    (source : Holds width memory other shelf)
    (apart : ∀ block, other.data = some block → this.data ≠ some block)
    (room : shelf.items.length ≤ capacity) :
    Leaves width memory this.data ⟨shelf.items, capacity⟩ (do
      let memory ← copyFrom memory this.data other.data other.size 0
      return (memory, { this with size := other.size })) := by
  rw [source.size]
  cases place : other.data with
  | none =>
    -- There is nothing to copy.
    obtain ⟨nil, -⟩ := source.items_nil place
    rw [nil]
    refine ⟨⟨rfl, holds.capacity, Nat.zero_le _, holds.null, holds.storage, holds.bounded⟩, ?_⟩
    exact BlockMemory.Changes.refl fresh _
  | some origin =>
    have fits := source.fits
    cases place' : this.data with
    | none =>
      have null : capacity = 0 := holds.null place'
      have nil : shelf.items = [] := List.length_eq_zero_iff.mp (by omega)
      rw [nil]
      refine ⟨⟨rfl, holds.capacity, Nat.zero_le _, fun _ => null, ?_, holds.bounded⟩, ?_⟩
      · rintro block ⟨⟩
      · exact place' ▸ BlockMemory.Changes.refl fresh _
    | some block =>
      have away : origin ≠ block := by
        rintro rfl
        exact apart origin place place'
      have stored := holds.put fresh place' shelf.items room
      rw [copyFrom_eq away shelf.items.length 0 (holds.storage block place')
        (source.storage origin place) (by show _ ≤ capacity; omega) (by rw [block_size]; omega) (by
          intro slot _ inside
          refine ⟨List.getElem?_nil, ?_⟩
          rw [block_slot, List.getElem?_eq_getElem (by omega), Option.isSome_some]), fill_block,
        ← place']
      exact stored

/-- A new vector is empty. -/
theorem create_leaves (fresh : memory.Fresh) {initialCapacity : Nat}
    (small : width * initialCapacity < 2 ^ 64) :
    Leaves width memory none ⟨[], initialCapacity⟩ (create memory width initialCapacity) := by
  rw [create]
  split
  · refine (operatorNew_ends positive fresh small).bind ?_
    rintro ⟨block, memory'⟩ ⟨changes, -, enough, held⟩
    refine ⟨⟨rfl, rfl, Nat.zero_le _, nofun, ?_, changes.limit ▸ enough⟩, changes⟩
    rintro other same
    cases same
    exact held
  · rename_i none
    have zero : initialCapacity = 0 := by omega
    subst zero
    exact ⟨⟨rfl, rfl, Nat.le_refl _, fun _ => rfl, nofun, Nat.zero_le _⟩,
      BlockMemory.Changes.refl fresh _⟩

/-- A copy has the elements and the room of the original. -/
theorem copy_leaves (fresh : memory.Fresh) (small : memory.limit < 2 ^ 63) {other : VectorObject}
    (source : Holds width memory other shelf) :
    Leaves width memory none shelf (copy memory width other) := by
  have bounded := source.bounded
  have made := create_leaves positive fresh (show width * shelf.capacity < 2 ^ 64 by omega)
  rw [create] at made
  rw [copy, source.capacity]
  split
  · rename_i some
    rw [if_pos some] at made
    refine (operatorNew_ends positive fresh (show width * shelf.capacity < 2 ^ 64 by omega)).bind ?_
    rintro ⟨block, memory'⟩ ⟨changes, late, enough, held⟩
    have holds : Holds width memory' ⟨.some block, 0, shelf.capacity⟩ ⟨[], shelf.capacity⟩ := by
      refine ⟨rfl, rfl, Nat.zero_le _, nofun, ?_, changes.limit ▸ enough⟩
      rintro other same
      cases same
      exact held
    refine (copyFrom_leaves changes.fresh holds (source.frame fresh changes nofun)
      (source.apart fresh changes nofun) source.fits).mono ?_
    rintro after ⟨held', changes'⟩
    exact ⟨held', changes.trans fresh changes'⟩
  · rename_i none
    have zero : shelf.capacity = 0 := by omega
    have fits := source.fits
    refine ⟨⟨source.size, rfl, source.fits, fun _ => zero, nofun, source.bounded⟩, ?_⟩
    exact BlockMemory.Changes.refl fresh _

omit positive in
/-- The storage of a vector ends with it. -/
theorem destruct_ends (fresh : memory.Fresh) (holds : Holds width memory this shelf) :
    EndsWell (· = .refused) (fun after => memory.Changes after this.data none)
      (destruct memory this) := by
  refine (clear_leaves fresh holds).bind ?_
  rintro ⟨memory', this'⟩ ⟨holds', changes⟩
  refine (operatorDelete_ends changes.fresh holds').mono ?_
  intro after changes'
  exact changes.trans fresh changes'

/-- There is room for a copy of another vector. -/
theorem replaceStorage_leaves (fresh : memory.Fresh) (small : memory.limit < 2 ^ 63)
    {other : VectorObject} {origin : Shelf α} (holds : Holds width memory this ⟨[], shelf.capacity⟩)
    (source : Holds width memory other origin) :
    Leaves width memory this.data ⟨[],
      if shelf.capacity < origin.items.length then origin.capacity else shelf.capacity⟩
      (replaceStorage memory this width other) := by
  have bounded := source.bounded
  rw [replaceStorage, holds.capacity, source.size, source.capacity]
  split
  · refine (operatorDelete_ends fresh holds).bind ?_
    intro memory' released
    refine (operatorNew_ends positive released.fresh
      (show width * origin.capacity < 2 ^ 64 by omega)).bind ?_
    rintro ⟨block, memory''⟩ ⟨changes, -, enough, held⟩
    have whole := released.trans fresh changes
    refine ⟨⟨holds.size, rfl, Nat.zero_le _, nofun, ?_, whole.limit ▸ bounded⟩, whole⟩
    rintro block' same
    cases same
    exact held
  · exact ⟨holds, BlockMemory.Changes.refl fresh _⟩

/-- An assigned copy has the elements of the original, and its room if there had to be more. -/
theorem assign_leaves (fresh : memory.Fresh) (small : memory.limit < 2 ^ 63) {other : VectorObject}
    {origin : Shelf α} (holds : Holds width memory this shelf) (source : Holds width memory other origin)
    (apart : ∀ block, other.data = some block → this.data ≠ some block) :
    Leaves width memory this.data ⟨origin.items,
      if shelf.capacity < origin.items.length then origin.capacity else shelf.capacity⟩
      (assign memory this width other) := by
  refine (clear_leaves fresh holds).bind ?_
  rintro ⟨memory', this'⟩ ⟨cleared, changes⟩
  refine EndsWell.bind (replaceStorage_leaves positive changes.fresh (changes.limit ▸ small) cleared
    (source.frame fresh changes apart)) ?_
  rintro ⟨memory'', this''⟩ ⟨empty, changes'⟩
  have whole := changes.trans fresh changes'
  refine (copyFrom_leaves whole.fresh empty (source.frame fresh whole apart)
    (source.apart fresh whole apart) ?_).mono ?_
  · have fits := source.fits
    split <;> omega
  · rintro after ⟨held, changes''⟩
    exact ⟨held, whole.trans fresh changes''⟩

end Storage

end VectorObject

end Pocky
