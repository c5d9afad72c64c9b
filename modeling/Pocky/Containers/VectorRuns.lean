import Pocky.Containers.VectorLaws

/-! Any number of vectors over one heap behave as lists, however they are called. -/

namespace Pocky

open Simulation

namespace Vectors

variable {α : Type}

/-- What each vector that exists stands for. -/
abbrev Shelves (α : Type) := Nat → Option (Shelf α)

/-- What a vector stands for, and nothing if it does not exist. -/
def shelf (shelves : Shelves α) (this : Nat) : Shelf α := (shelves this).getD ⟨[], 0⟩

/-- Shelves of which one has been replaced. -/
def put (shelves : Shelves α) (this : Nat) (shelf : Shelf α) : Shelves α :=
  Function.update shelves this (some shelf)

/-- What a call means for lists. -/
def specPerform (default : α) (shelves : Shelves α) : VectorCall α → VectorAnswer α × Shelves α
  | .create this initialCapacity => (.done, put shelves this ⟨[], initialCapacity⟩)
  | .copy this other => (.done, put shelves this (shelf shelves other))
  | .move this other => (.done, put (put shelves other ⟨[], 0⟩) this (shelf shelves other))
  | .destruct this => (.done, Function.update shelves this none)
  | .assign this other =>
    if this = other then (.done, shelves)
    else (.done, put shelves this ⟨(shelf shelves other).items,
      if (shelf shelves this).capacity < (shelf shelves other).items.length then
        (shelf shelves other).capacity else (shelf shelves this).capacity⟩)
  | .assignMoved this other =>
    if this = other then (.done, shelves)
    else (.done, put (put shelves other ⟨[], 0⟩) this (shelf shelves other))
  | .pushBack this value => (.done, put shelves this
      ⟨(shelf shelves this).items ++ [value], (shelf shelves this).grown⟩)
  | .pushElement this other index => (.done, put shelves this
      ⟨(shelf shelves this).items ++ ((shelf shelves other).items[index]?).toList,
        (shelf shelves this).grown⟩)
  | .popBack this => (.done, put shelves this
      ⟨(shelf shelves this).items.dropLast, (shelf shelves this).capacity⟩)
  | .reserve this newCapacity => (.done, put shelves this
      ⟨(shelf shelves this).items, max (shelf shelves this).capacity newCapacity⟩)
  | .resize this newSize => (.done, put shelves this
      ⟨(shelf shelves this).items.take newSize ++
        List.replicate (newSize - (shelf shelves this).items.length) default,
        max (shelf shelves this).capacity newSize⟩)
  | .clear this => (.done, put shelves this ⟨[], (shelf shelves this).capacity⟩)
  | .erase this index => (.done, put shelves this
      ⟨(shelf shelves this).items.eraseIdx index, (shelf shelves this).capacity⟩)
  | .at this index => (((shelf shelves this).items[index]?).elim .done .element, shelves)
  | .size this => (.count (shelf shelves this).items.length, shelves)

/-- A vector exists. -/
def Exists (shelves : Shelves α) (this : Nat) : Prop := (shelves this).isSome

/--
The calls that the language permits.

Constructors are for vectors that do not exist and the others for those that do, an element that is
named is there, and the sizes of storage fit in a word.
-/
def Proper (width : Nat) (shelves : Shelves α) : VectorCall α → Prop
  | .create this initialCapacity => shelves this = none ∧ width * initialCapacity < 2 ^ 64
  | .copy this other => shelves this = none ∧ Exists shelves other
  | .move this other => shelves this = none ∧ Exists shelves other
  | .destruct this => Exists shelves this
  | .assign this other => Exists shelves this ∧ Exists shelves other
  | .assignMoved this other => Exists shelves this ∧ Exists shelves other
  | .pushBack this _ => Exists shelves this
  | .pushElement this other index => Exists shelves this ∧ Exists shelves other ∧
      index < (shelf shelves other).items.length
  | .popBack this => Exists shelves this
  | .reserve this newCapacity => Exists shelves this ∧ width * newCapacity < 2 ^ 64
  | .resize this newSize => Exists shelves this ∧ width * newSize < 2 ^ 64
  | .clear this => Exists shelves this
  | .erase this _ => Exists shelves this
  | .at this index => Exists shelves this ∧ index < (shelf shelves this).items.length
  | .size this => Exists shelves this

/-- A call does not append an element of a full vector to that vector itself. -/
def KeepsElement (shelves : Shelves α) : VectorCall α → Prop
  | .pushElement this other _ =>
    this = other → (shelf shelves this).items.length < (shelf shelves this).capacity
  | _ => True

/-- Vectors that hold what they stand for, each in storage of its own, and no other storage. -/
structure Related (width : Nat) (state : Vectors α) (shelves : Shelves α) : Prop where
  /-- New blocks have new numbers. -/
  fresh : state.memory.Fresh
  /-- The heap is less than half of what can be addressed. -/
  small : state.memory.limit < 2 ^ 63
  /-- What does not exist stands for nothing, -/
  exist : ∀ this, state.object this = none → shelves this = none
  /-- and what exists holds what it stands for. -/
  holds : ∀ this object, state.object this = some object →
    ∃ held, shelves this = some held ∧ VectorObject.Holds width state.memory object held
  /-- No two vectors share storage. -/
  apart : ∀ this other, this ≠ other → ∀ object object' block, state.object this = some object →
    state.object other = some object' → object.data = some block → object'.data ≠ some block
  /-- Every block that has not been given back is the storage of a vector. -/
  owned : ∀ block, state.memory.block block ≠ none →
    ∃ this object, state.object this = some object ∧ object.data = some block

/-- A call either is refused memory or gives an answer and leaves vectors that stand for shelves. -/
def Agrees (width : Nat) (answer : VectorAnswer α) (shelves : Shelves α)
    (result : Except Stop (VectorAnswer α × Vectors α)) : Prop :=
  EndsWell (· = .refused) (fun after => after.1 = answer ∧ Related width after.2 shelves) result

variable {width : Nat} {state : Vectors α} {shelves : Shelves α}

/-- A vector that exists holds its shelf. -/
theorem Related.get (related : Related width state shelves) {this : Nat}
    (some : Exists shelves this) : ∃ object, state.object this = .some object ∧
      state.get this = .ok object ∧ shelves this = .some (shelf shelves this) ∧
      VectorObject.Holds width state.memory object (shelf shelves this) := by
  obtain ⟨held, place⟩ := Option.isSome_iff_exists.mp some
  cases place' : state.object this with
  | none =>
    rw [related.exist this place'] at place
    cases place
  | some object =>
    obtain ⟨held', same, holds⟩ := related.holds this object place'
    have shown : shelf shelves this = held' := by
      rw [shelf, same]
      rfl
    rw [shown]
    refine ⟨object, rfl, ?_, same, holds⟩
    rw [Vectors.get, place']

/-- What stands for nothing does not exist. -/
theorem Related.absent (related : Related width state shelves) {this : Nat}
    (none : shelves this = none) : state.object this = .none := by
  cases place : state.object this with
  | none => rfl
  | some object =>
    obtain ⟨held, some, -⟩ := related.holds this object place
    rw [none] at some
    cases some

/-- Two different vectors that exist have different storage. -/
theorem Related.away (related : Related width state shelves) {this other : Nat} (differ : this ≠ other)
    {object object' : VectorObject} (place : state.object this = some object)
    (place' : state.object other = some object') (block : Nat) (data : object'.data = some block) :
    object.data ≠ some block :=
  fun same => related.apart this other differ object object' block place place' same data

/-- A vector becomes another one, a new one or none, and all others stay what they are. -/
theorem Related.replace (related : Related width state shelves) (this : Nat) {after : BlockMemory α}
    {object : Option VectorObject} {held : Option (Shelf α)} (exist : object = none → held = none)
    (holds : ∀ object', object = some object' →
      ∃ held', held = some held' ∧ VectorObject.Holds width after object' held')
    (changes : state.memory.Changes after ((state.object this).bind (·.data)) (object.bind (·.data))) :
    Related width ⟨after, Function.update state.object this object⟩
      (Function.update shelves this held) := by
  -- Another vector has other storage than the one that changes, before and after.
  have before : ∀ other, other ≠ this → ∀ object', state.object other = some object' →
      ∀ block, object'.data = some block → (state.object this).bind (·.data) ≠ some block := by
    intro other differ object' place' block data same
    obtain ⟨old, place, data'⟩ := Option.bind_eq_some_iff.mp same
    exact related.apart this other (Ne.symm differ) old object' block place place' data' data
  have behind : ∀ other, other ≠ this → ∀ object', state.object other = some object' →
      ∀ block, object'.data = some block → object.bind (·.data) ≠ some block := by
    intro other differ object' place' block data
    obtain ⟨held', -, holds'⟩ := related.holds other object' place'
    exact holds'.apart related.fresh changes (before other differ object' place') block data
  refine ⟨changes.fresh, changes.limit ▸ related.small, ?_, ?_, ?_, ?_⟩
  · intro other place
    dsimp only at place
    by_cases equal : other = this
    · subst equal
      rw [Function.update_self] at place ⊢
      exact exist place
    · rw [Function.update_of_ne equal] at place ⊢
      exact related.exist other place
  · intro other object' place
    dsimp only at place
    by_cases equal : other = this
    · subst equal
      rw [Function.update_self] at place ⊢
      exact holds object' place
    · rw [Function.update_of_ne equal] at place ⊢
      obtain ⟨held', same, holds'⟩ := related.holds other object' place
      exact ⟨held', same, holds'.frame related.fresh changes (before other equal object' place)⟩
  · intro first second differ object' object'' block place place' data data'
    dsimp only at place place'
    by_cases equal : first = this
    · subst equal
      rw [Function.update_self] at place
      rw [Function.update_of_ne (Ne.symm differ)] at place'
      exact behind second (Ne.symm differ) object'' place' block data' (place ▸ data)
    · rw [Function.update_of_ne equal] at place
      by_cases equal' : second = this
      · subst equal'
        rw [Function.update_self] at place'
        exact behind first equal object' place block data (place' ▸ data')
      · rw [Function.update_of_ne equal'] at place'
        exact related.apart first second differ object' object'' block place place' data data'
  · intro block live
    by_cases mine : object.bind (·.data) = some block
    · obtain ⟨object', same, data⟩ := Option.bind_eq_some_iff.mp mine
      exact ⟨this, object', same ▸ Function.update_self .., data⟩
    · dsimp only at live
      rw [changes.others block mine] at live
      split at live
      · exact absurd rfl live
      · rename_i kept
        obtain ⟨other, object', place, data⟩ := related.owned block live
        refine ⟨other, object', ?_, data⟩
        dsimp only
        rw [Function.update_of_ne, place]
        rintro rfl
        exact kept (Option.bind_eq_some_iff.mpr ⟨object', place, data⟩)

/-- A vector that has been left with a shelf stands for it. -/
theorem Related.left (related : Related width state shelves) (this : Nat) {data : Option Nat}
    (place : (state.object this).bind (·.data) = data) {held : Shelf α}
    {result : Except Stop (BlockMemory α × VectorObject)}
    (leaves : VectorObject.Leaves width state.memory data held result) :
    Agrees width .done (put shelves this held) (do
      let after ← result
      return (.done, state.set this after)) := by
  subst place
  refine EndsWell.bind leaves ?_
  rintro ⟨after, object⟩ ⟨holds, changes⟩
  refine ⟨rfl, related.replace this nofun ?_ changes⟩
  rintro object' same
  cases same
  exact ⟨held, rfl, holds⟩

/-- A change of a vector that exists. -/
theorem Related.change (related : Related width state shelves) {this : Nat} (some : Exists shelves this)
    {body : BlockMemory α → VectorObject → Except Stop (BlockMemory α × VectorObject)} {held : Shelf α}
    (leaves : ∀ object, state.object this = .some object →
      VectorObject.Holds width state.memory object (shelf shelves this) →
      VectorObject.Leaves width state.memory object.data held (body state.memory object)) :
    Agrees width .done (put shelves this held) (state.change this body) := by
  obtain ⟨object, place, got, -, holds⟩ := related.get some
  rw [Vectors.change, got]
  refine EndsWell.ok_bind ?_
  exact related.left this (by rw [place]; rfl) (leaves object place holds)

/-- The storage of a vector that exists ends with it. -/
theorem Related.destruct (related : Related width state shelves) {this : Nat} {object : VectorObject}
    (place : state.object this = some object) :
    EndsWell (· = .refused) (fun after => Related width ⟨after, Function.update state.object this none⟩
      (Function.update shelves this none)) (object.destruct state.memory) := by
  obtain ⟨held, -, holds⟩ := related.holds this object place
  refine (VectorObject.destruct_ends related.fresh holds).mono ?_
  intro after changes
  refine related.replace this (fun _ => rfl) nofun ?_
  rw [place]
  exact changes

/-- A vector that does not exist takes over the storage of one that does. -/
theorem Related.transfer (related : Related width state shelves) {this other : Nat}
    {object : VectorObject} (absent : state.object this = none)
    (place : state.object other = some object) :
    Related width ((state.set other (state.memory, .empty)).set this (state.memory, object))
      (put (put shelves other ⟨[], 0⟩) this (shelf shelves other)) := by
  have differ : this ≠ other := by
    rintro rfl
    rw [absent] at place
    cases place
  obtain ⟨held, stands, holds⟩ := related.holds other object place
  have shown : shelf shelves other = held := by
    rw [shelf, stands]
    rfl
  rw [shown]
  -- Who a vector of the new state was before.
  have was : ∀ name object', ((state.set other (state.memory, VectorObject.empty)).set this
      (state.memory, object)).object name = some object' →
      (name = this ∧ object' = object) ∨ (name ≠ this ∧ name = other ∧ object' = .empty) ∨
        (name ≠ this ∧ name ≠ other ∧ state.object name = some object') := by
    intro name object' place'
    simp only [Vectors.set, Function.update_apply] at place'
    grind
  refine ⟨related.fresh, related.small, ?_, ?_, ?_, ?_⟩
  · intro name none
    simp only [Vectors.set, Function.update_apply] at none
    simp only [put, Function.update_apply]
    have same := related.exist name
    grind
  · intro name object' place'
    rcases was name object' place' with ⟨rfl, rfl⟩ | ⟨away, rfl, rfl⟩ | ⟨away, away', place''⟩
    · exact ⟨held, Function.update_self .., holds⟩
    · refine ⟨⟨[], 0⟩, ?_, ⟨rfl, rfl, Nat.le_refl _, fun _ => rfl, nofun, Nat.zero_le _⟩⟩
      rw [put, Function.update_of_ne away, put, Function.update_self]
    · obtain ⟨held', same, holds'⟩ := related.holds name object' place''
      refine ⟨held', ?_, holds'⟩
      rw [put, Function.update_of_ne away, put, Function.update_of_ne away', same]
  · intro first second differ' object' object'' block place' place'' data data'
    rcases was first object' place' with ⟨rfl, rfl⟩ | ⟨-, -, rfl⟩ | ⟨away, away', old⟩
    · rcases was second object'' place'' with ⟨same, -⟩ | ⟨-, -, rfl⟩ | ⟨-, away, old⟩
      · exact differ' same.symm
      · cases data'
      · exact related.apart other second (Ne.symm away) _ _ block place old data data'
    · cases data
    · rcases was second object'' place'' with ⟨rfl, rfl⟩ | ⟨-, -, rfl⟩ | ⟨-, -, old'⟩
      · exact related.apart first other away' _ _ block old place data data'
      · cases data'
      · exact related.apart first second differ' _ _ block old old' data data'
  · intro block live
    obtain ⟨name, object', place', data⟩ := related.owned block live
    by_cases mine : name = other
    · subst mine
      obtain rfl := Option.some.inj (place.symm.trans place')
      exact ⟨this, object, Function.update_self .., data⟩
    · refine ⟨name, object', ?_, data⟩
      have away : name ≠ this := by
        rintro rfl
        rw [absent] at place'
        cases place'
      show Function.update (Function.update state.object other _) this _ name = _
      rw [Function.update_of_ne away, Function.update_of_ne mine, place']

section Calls

variable (positive : 0 < width) (narrow : width < 2 ^ 63)
include positive narrow

/-- An element of a vector that is not full, or of another one, can be appended. -/
theorem Related.pushElement (related : Related width state shelves) {this other index : Nat}
    (some : Exists shelves this) (some' : Exists shelves other)
    (inside : index < (shelf shelves other).items.length)
    (keeps : this = other → (shelf shelves this).items.length < (shelf shelves this).capacity)
    {object source : VectorObject} (place : state.object this = .some object)
    (place' : state.object other = .some source) :
    VectorObject.Leaves width state.memory object.data
      ⟨(shelf shelves this).items ++ ((shelf shelves other).items[index]?).toList,
        (shelf shelves this).grown⟩
      (object.pushElement state.memory width source.data index) := by
  obtain ⟨object', same, -, -, holds⟩ := related.get some
  obtain ⟨source', same', -, -, holds'⟩ := related.get some'
  obtain rfl := Option.some.inj (place.symm.trans same)
  obtain rfl := Option.some.inj (place'.symm.trans same')
  rw [List.getElem?_eq_getElem inside]
  refine VectorObject.pushElement_leaves positive related.fresh related.small narrow holds ?_
  intro after _ changes grew
  have room := holds'.fits
  obtain ⟨block, data⟩ := holds'.exists_block (by omega)
  have live := holds'.storage block data
  rw [data]
  have still : after.1.block block = .some ((shelf shelves other).block width) := by
    by_cases equal : this = other
    · -- The storage is not replaced, since there is room.
      subst equal
      have free := keeps rfl
      rw [VectorObject.grow, holds.capacity, holds.size, if_neg (by omega)] at grew
      cases grew
      exact live
    · have away := related.away equal place place'
      rw [changes.others block (holds'.apart related.fresh changes away block data),
        if_neg (away block data), live]
  exact BlockMemory.read_eq still (by rw [VectorObject.block_size]; omega)
    (List.getElem?_eq_getElem inside)

/-- One call on vectors does what it does on lists. -/
theorem perform_agrees (default : α) (related : Related width state shelves) (call : VectorCall α)
    (proper : Proper width shelves call) (keeps : KeepsElement shelves call) :
    Agrees width (specPerform default shelves call).1 (specPerform default shelves call).2
      (state.perform width default call) := by
  have fresh := related.fresh
  have small := related.small
  cases call with
  | create this initialCapacity =>
    exact related.left this (by rw [related.absent proper.1]; rfl)
      (VectorObject.create_leaves positive fresh proper.2)
  | copy this other =>
    obtain ⟨object, place, got, -, holds⟩ := related.get proper.2
    rw [perform, got]
    exact related.left this (by rw [related.absent proper.1]; rfl)
      (VectorObject.copy_leaves positive fresh small holds)
  | move this other =>
    obtain ⟨object, place, got, -, -⟩ := related.get proper.2
    rw [perform, got]
    exact ⟨rfl, related.transfer (related.absent proper.1) place⟩
  | destruct this =>
    obtain ⟨object, place, got, -, -⟩ := related.get proper
    rw [perform, got]
    refine EndsWell.ok_bind (EndsWell.bind (related.destruct place) ?_)
    exact fun after related' => ⟨rfl, related'⟩
  | assign this other =>
    rw [perform, specPerform]
    by_cases equal : this = other
    · rw [if_pos equal, if_pos equal]
      exact ⟨rfl, related⟩
    · rw [if_neg equal, if_neg equal]
      obtain ⟨source, place', got', -, holds'⟩ := related.get proper.2
      rw [got']
      refine EndsWell.ok_bind (related.change proper.1 ?_)
      intro object place holds
      exact VectorObject.assign_leaves positive fresh small holds holds'
        (related.away equal place place')
  | assignMoved this other =>
    rw [perform, specPerform]
    by_cases equal : this = other
    · rw [if_pos equal, if_pos equal]
      exact ⟨rfl, related⟩
    · rw [if_neg equal, if_neg equal]
      obtain ⟨source, place', got', stands', -⟩ := related.get proper.2
      obtain ⟨object, place, got, -, -⟩ := related.get proper.1
      rw [got', got]
      refine EndsWell.ok_bind (EndsWell.ok_bind (EndsWell.bind (related.destruct place) ?_))
      intro after related'
      have moved := related'.transfer (Function.update_self ..)
        (show Function.update state.object this none other = some source by
          rw [Function.update_of_ne (Ne.symm equal), place'])
      -- What this vector was in between has been written over.
      have objects : Function.update (Function.update (Function.update state.object this none) other
          (some .empty)) this (some source) =
          Function.update (Function.update state.object other (some .empty)) this (some source) := by
        rw [Function.update_comm equal, Function.update_idem]
      have stands : Function.update (Function.update (Function.update shelves this none) other
          (some ⟨[], 0⟩)) this (some (shelf shelves other)) =
          Function.update (Function.update shelves other (some ⟨[], 0⟩)) this
            (some (shelf shelves other)) := by
        rw [Function.update_comm equal, Function.update_idem]
      have kept : shelf (Function.update shelves this none) other = shelf shelves other := by
        rw [shelf, Function.update_of_ne (Ne.symm equal), shelf]
      simp only [Vectors.set, put, kept, objects, stands] at moved ⊢
      exact ⟨rfl, moved⟩
  | pushBack this value =>
    rw [perform, specPerform]
    refine related.change proper ?_
    exact fun object place holds =>
      VectorObject.pushBack_leaves positive fresh small narrow holds value
  | pushElement this other index =>
    obtain ⟨some, some', inside⟩ := proper
    obtain ⟨source, place', got', -, -⟩ := related.get some'
    rw [perform, got']
    refine EndsWell.ok_bind (related.change some ?_)
    exact fun object place _ =>
      related.pushElement positive narrow some some' inside keeps place place'
  | popBack this =>
    rw [perform, specPerform]
    refine related.change proper ?_
    exact fun object place holds => VectorObject.popBack_leaves fresh holds
  | reserve this newCapacity =>
    rw [perform, specPerform]
    refine related.change proper.1 ?_
    exact fun object place holds =>
      VectorObject.reserve_leaves positive fresh holds proper.2
  | resize this newSize =>
    rw [perform, specPerform]
    refine related.change proper.1 ?_
    exact fun object place holds =>
      VectorObject.resize_leaves positive fresh holds default proper.2
  | clear this =>
    rw [perform, specPerform]
    refine related.change proper ?_
    exact fun object place holds => VectorObject.clear_leaves fresh holds
  | erase this index =>
    rw [perform, specPerform]
    refine related.change proper ?_
    exact fun object place holds => VectorObject.erase_leaves fresh holds index
  | «at» this index =>
    obtain ⟨some, inside⟩ := proper
    obtain ⟨object, place, got, -, holds⟩ := related.get some
    have room := holds.fits
    obtain ⟨block, data⟩ := holds.exists_block (by omega)
    rw [perform, got, specPerform, List.getElem?_eq_getElem inside]
    refine EndsWell.ok_bind ?_
    rw [data, BlockMemory.read_eq (holds.storage block data) (by rw [VectorObject.block_size]; omega)
      (List.getElem?_eq_getElem inside)]
    exact ⟨rfl, related⟩
  | size this =>
    obtain ⟨object, place, got, -, holds⟩ := related.get proper
    rw [perform, got, specPerform, ← holds.size]
    exact ⟨rfl, related⟩

/-- An element of a full vector cannot be appended to that vector: making room destroys it. -/
theorem perform_broken (default : α) (related : Related width state shelves) (call : VectorCall α)
    (proper : Proper width shelves call) (breaks : ¬ KeepsElement shelves call)
    (result : VectorAnswer α × Vectors α) : state.perform width default call ≠ .ok result := by
  cases call with
  | pushElement this other index =>
    obtain ⟨rfl, full⟩ : this = other ∧
        (shelf shelves this).capacity ≤ (shelf shelves this).items.length := by
      simp only [KeepsElement, Classical.not_imp, Nat.not_lt] at breaks
      exact breaks
    obtain ⟨some, -, inside⟩ := proper
    obtain ⟨object, place, got, -, holds⟩ := related.get some
    have fits := holds.fits
    obtain ⟨block, data⟩ := holds.exists_block (by omega)
    intro returned
    rw [perform, got] at returned
    obtain ⟨source, same, returned⟩ := returned_first returned
    cases same
    rw [change, got] at returned
    obtain ⟨target, same, returned⟩ := returned_first returned
    cases same
    obtain ⟨after, pushed, -⟩ := returned_first returned
    exact VectorObject.pushElement_full positive related.fresh related.small narrow holds full data
      index after pushed
  | _ => exact absurd trivial breaks

end Calls

/-- Without vectors there is no storage. -/
theorem start_related {limit : Nat} (small : limit < 2 ^ 63) :
    Related width (start limit : Vectors α) fun _ => none :=
  ⟨fun _ _ => rfl, small, fun _ _ => rfl, nofun, nofun, fun _ live => absurd rfl live⟩

/--
Any number of vectors, however they are created, copied, moved, changed and destroyed, behave as
lists, unless an element of a full vector is appended to that vector itself.

Without such a call a run can only be stopped by the heap, it gives the answers of lists, and then
each vector holds its list, in storage of its own, and no other storage is in use.
With such a call no run returns.
-/
theorem run_behaves_as_lists {limit : Nat} (default : α) (positive : 0 < width)
    (narrow : width < 2 ^ 63) (small : limit < 2 ^ 63) (calls : List (VectorCall α))
    (proper : AllMeet (specPerform default) (Proper width) (fun _ => none) calls) :
    (AllMeet (specPerform default) KeepsElement (fun _ => none) calls →
      EndsWell (· = .refused) (fun result =>
        result.1 = (specRun (specPerform default) (fun _ => none) calls).1 ∧
          Related width result.2 (specRun (specPerform default) (fun _ => none) calls).2)
        (run (perform width default) (start limit) calls)) ∧
    ∀ result, run (perform width default) (start limit) calls = .ok result →
      AllMeet (specPerform default) KeepsElement (fun _ => none) calls := by
  have step : Step (perform width default) (specPerform default)
      (fun shelves call => Proper width shelves call ∧ KeepsElement shelves call) (· = .refused)
      (Related width) :=
    fun state shelves call related meets =>
      perform_agrees positive narrow default related call meets.1 meets.2
  refine ⟨fun keeps => ?_, fun result returned => ?_⟩
  · exact run_simulates step calls _ _ (start_related small) (allMeet_and proper keeps)
  · exact (run_returned step (fun state shelves call result related proper breaks =>
      perform_broken positive narrow default related call proper breaks result) calls _ _ result
      (start_related small) proper returned).1

/-- A vector is filled, copied and destroyed, and the copy outlives it. -/
def copyCalls : List (VectorCall Nat) :=
  [.create 0 0, .pushBack 0 5, .pushBack 0 7, .copy 1 0, .erase 0 0, .pushElement 1 0 0, .destruct 0,
    .at 1 2, .size 1]

/-- The copy keeps the element that was erased from the original. -/
theorem run_behaves_as_lists_copy : ∃ result,
    run (perform 8 0) (start 4096) copyCalls = .ok result ∧
      result.1 = [.done, .done, .done, .done, .done, .done, .done, .element 7, .count 3] ∧
      Related 8 result.2 (specRun (specPerform 0) (fun _ => none) copyCalls).2 := by
  have proper : AllMeet (specPerform 0) (Proper 8) (fun _ => none) copyCalls := by
    simp [AllMeet, copyCalls, Proper, specPerform, put, shelf, Exists]
  have keeps : AllMeet (specPerform 0) KeepsElement (fun _ => none) copyCalls := by
    simp [AllMeet, copyCalls, KeepsElement]
  obtain ⟨result, returned⟩ : ∃ result,
      run (perform 8 0) (start 4096) copyCalls = .ok result := ⟨_, rfl⟩
  obtain ⟨answers, related⟩ := ((run_behaves_as_lists 0 (by decide) (by decide) (by decide) copyCalls
    proper).1 keeps).ok returned
  exact ⟨result, returned, answers, related⟩

end Vectors

end Pocky
