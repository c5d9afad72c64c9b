import Pocky.Lib.Blocks

/-! Growable arrays as objects over the kernel's heap, with the lifetimes of their elements. -/

namespace Pocky

/-- The members of a vector. -/
structure VectorObject where
  /-- Its storage, or the null pointer. -/
  data : Option Nat
  /-- How many elements it has. -/
  size : Nat
  /-- How many elements the storage is meant for. -/
  capacity : Nat
  deriving Repr, DecidableEq

namespace VectorObject

variable {α : Type}

/-- A vector without storage. -/
def empty : VectorObject := ⟨none, 0, 0⟩

/-- Storage for some elements of a given width; the product is taken on 64-bit words. -/
def operatorNew (memory : BlockMemory α) (width count : Nat) : Except Stop (Nat × BlockMemory α) :=
  let bytes := width * count % 2 ^ 64
  if bytes = 0 then .error .refused else memory.allocate bytes (bytes / width)

/-- Giving storage back; elements that are still in it would never be destroyed. -/
def operatorDelete (memory : BlockMemory α) : Option Nat → Except Stop (BlockMemory α)
  | none => .ok memory
  | some block =>
    match memory.block block with
    | some held =>
      if (List.range held.size).all fun slot => (held.slot slot).isNone then memory.release block
      else .error .lost
    | none => .error .undefined

/-- The loop that destroys elements. -/
def destroyFrom (memory : BlockMemory α) (data : Option Nat) : Nat → Nat → Except Stop (BlockMemory α)
  | 0, _ => .ok memory
  | remaining + 1, index => do
    let memory ← memory.destroy data index
    destroyFrom memory data remaining (index + 1)

/-- The loop that constructs default elements. -/
def constructFrom (memory : BlockMemory α) (data : Option Nat) (default : α) :
    Nat → Nat → Except Stop (BlockMemory α)
  | 0, _ => .ok memory
  | remaining + 1, index => do
    let memory ← memory.construct data index default
    constructFrom memory data default remaining (index + 1)

/-- The loop that constructs copies of another vector's elements. -/
def copyFrom (memory : BlockMemory α) (data source : Option Nat) :
    Nat → Nat → Except Stop (BlockMemory α)
  | 0, _ => .ok memory
  | remaining + 1, index => do
    let value ← memory.read source index
    let memory ← memory.construct data index value
    copyFrom memory data source remaining (index + 1)

/-- The loop that moves elements to new storage. -/
def moveFrom (memory : BlockMemory α) (data source : Option Nat) :
    Nat → Nat → Except Stop (BlockMemory α)
  | 0, _ => .ok memory
  | remaining + 1, index => do
    let value ← memory.read source index
    let memory ← memory.construct data index value
    let memory ← memory.destroy source index
    moveFrom memory data source remaining (index + 1)

/-- The loop that moves the elements behind a gap down by one. -/
def shiftFrom (memory : BlockMemory α) (data : Option Nat) : Nat → Nat → Except Stop (BlockMemory α)
  | 0, _ => .ok memory
  | remaining + 1, index => do
    let value ← memory.read data (index + 1)
    let memory ← memory.construct data index value
    let memory ← memory.destroy data (index + 1)
    shiftFrom memory data remaining (index + 1)

variable (memory : BlockMemory α) (this : VectorObject)

/-- A vector with room for some elements. -/
def create (width initialCapacity : Nat) : Except Stop (BlockMemory α × VectorObject) :=
  if 0 < initialCapacity then do
    let (data, memory) ← operatorNew memory width initialCapacity
    return (memory, ⟨some data, 0, initialCapacity⟩)
  else .ok (memory, ⟨none, 0, initialCapacity⟩)

/-- A copy of another vector. -/
def copy (width : Nat) (other : VectorObject) : Except Stop (BlockMemory α × VectorObject) :=
  if 0 < other.capacity then do
    let (data, memory) ← operatorNew memory width other.capacity
    let memory ← copyFrom memory (some data) other.data other.size 0
    return (memory, ⟨some data, other.size, other.capacity⟩)
  else .ok (memory, ⟨none, other.size, other.capacity⟩)

/-- Removing all elements. -/
def clear : Except Stop (BlockMemory α × VectorObject) := do
  let memory ← destroyFrom memory this.data this.size 0
  return (memory, { this with size := 0 })

/-- The end of a vector. -/
def destruct : Except Stop (BlockMemory α) := do
  let (memory, this) ← clear memory this
  operatorDelete memory this.data

/-- Room for at least some number of elements. -/
def reserve (width newCapacity : Nat) : Except Stop (BlockMemory α × VectorObject) :=
  if newCapacity ≤ this.capacity then .ok (memory, this)
  else do
    let (newData, memory) ← operatorNew memory width newCapacity
    let memory ← moveFrom memory (some newData) this.data this.size 0
    let memory ← operatorDelete memory this.data
    return (memory, { this with data := some newData, capacity := newCapacity })

/-- Room for one more element; the capacity is doubled on 64-bit words. -/
def grow (width : Nat) : Except Stop (BlockMemory α × VectorObject) :=
  if this.capacity ≤ this.size then
    reserve memory this width (if this.capacity = 0 then 1 else this.capacity * 2 % 2 ^ 64)
  else .ok (memory, this)

/-- Appending a value that lies outside every vector. -/
def pushBack (width : Nat) (value : α) : Except Stop (BlockMemory α × VectorObject) := do
  let (memory, this) ← grow memory this width
  let memory ← memory.construct this.data this.size value
  return (memory, { this with size := this.size + 1 })

/-- Appending an element of a vector; the reference is followed when the room has been made. -/
def pushElement (width : Nat) (source : Option Nat) (index : Nat) :
    Except Stop (BlockMemory α × VectorObject) := do
  let (memory, this) ← grow memory this width
  let value ← memory.read source index
  let memory ← memory.construct this.data this.size value
  return (memory, { this with size := this.size + 1 })

/-- Removing the last element, if there is one. -/
def popBack : Except Stop (BlockMemory α × VectorObject) :=
  if 0 < this.size then do
    let memory ← memory.destroy this.data (this.size - 1)
    return (memory, { this with size := this.size - 1 })
  else .ok (memory, this)

/-- Room for a new number of elements, if there is less. -/
def reserveMore (width newSize : Nat) : Except Stop (BlockMemory α × VectorObject) :=
  if this.capacity < newSize then reserve memory this width newSize else .ok (memory, this)

/-- A new number of elements. -/
def resize (width : Nat) (default : α) (newSize : Nat) :
    Except Stop (BlockMemory α × VectorObject) := do
  let (memory, this) ← reserveMore memory this width newSize
  let memory ← constructFrom memory this.data default (newSize - this.size) this.size
  let memory ← destroyFrom memory this.data (this.size - newSize) newSize
  return (memory, { this with size := newSize })

/-- Removing the element at a position, if there is one. -/
def erase (index : Nat) : Except Stop (BlockMemory α × VectorObject) :=
  if this.size ≤ index then .ok (memory, this)
  else do
    let memory ← memory.destroy this.data index
    let memory ← shiftFrom memory this.data (this.size - 1 - index) index
    return (memory, { this with size := this.size - 1 })

/-- Other storage for a copy of another vector, if its elements do not fit. -/
def replaceStorage (width : Nat) (other : VectorObject) : Except Stop (BlockMemory α × VectorObject) :=
  if this.capacity < other.size then do
    let memory ← operatorDelete memory this.data
    let (data, memory) ← operatorNew memory width other.capacity
    return (memory, { this with data := some data, capacity := other.capacity })
  else .ok (memory, this)

/-- Assigning a copy of another vector. -/
def assign (width : Nat) (other : VectorObject) : Except Stop (BlockMemory α × VectorObject) := do
  let (memory, this) ← clear memory this
  let (memory, this) ← replaceStorage memory this width other
  let memory ← copyFrom memory this.data other.data other.size 0
  return (memory, { this with size := other.size })

end VectorObject

/-- A call on one of the vectors. -/
inductive VectorCall (α : Type) where
  /-- A new vector with room for some elements; without an argument the source asks for none. -/
  | create (this initialCapacity : Nat)
  /-- A new vector that is a copy. -/
  | copy (this other : Nat)
  /-- A new vector that takes over the storage of another one. -/
  | move (this other : Nat)
  /-- The end of a vector. -/
  | destruct (this : Nat)
  /-- Assigning a copy. -/
  | assign (this other : Nat)
  /-- Assigning the storage of another vector. -/
  | assignMoved (this other : Nat)
  /-- Appending a value. -/
  | pushBack (this : Nat) (value : α)
  /-- Appending an element of a vector. -/
  | pushElement (this other index : Nat)
  /-- Removing the last element. -/
  | popBack (this : Nat)
  /-- Making room. -/
  | reserve (this newCapacity : Nat)
  /-- Changing the number of elements. -/
  | resize (this newSize : Nat)
  /-- Removing all elements. -/
  | clear (this : Nat)
  /-- Removing one element. -/
  | erase (this index : Nat)
  /-- Reading one element. -/
  | at (this index : Nat)
  /-- Asking for the number of elements. -/
  | size (this : Nat)
  deriving Repr, DecidableEq

/-- What a call answers. -/
inductive VectorAnswer (α : Type) where
  /-- Nothing. -/
  | done
  /-- An element. -/
  | element (value : α)
  /-- A number of elements. -/
  | count (size : Nat)
  deriving Repr, DecidableEq

/-- The vectors of a program, by number, and the heap. -/
structure Vectors (α : Type) where
  /-- The heap. -/
  memory : BlockMemory α
  /-- The vectors that exist. -/
  object : Nat → Option VectorObject

namespace Vectors

variable {α : Type} (width : Nat) (default : α)

/-- No vector, and a heap of some bytes. -/
def start (limit : Nat) : Vectors α := ⟨BlockMemory.empty limit, fun _ => none⟩

/-- A vector that exists. -/
def get (state : Vectors α) (this : Nat) : Except Stop VectorObject :=
  match state.object this with
  | none => .error .undefined
  | some object => .ok object

/-- Putting the result of a call in the place of a vector. -/
def set (state : Vectors α) (this : Nat) (result : BlockMemory α × VectorObject) : Vectors α :=
  ⟨result.1, Function.update state.object this (some result.2)⟩

/-- A change of one vector that answers nothing. -/
def change (state : Vectors α) (this : Nat)
    (body : BlockMemory α → VectorObject → Except Stop (BlockMemory α × VectorObject)) :
    Except Stop (VectorAnswer α × Vectors α) := do
  let object ← state.get this
  let result ← body state.memory object
  return (.done, state.set this result)

/-- A call. -/
def perform (state : Vectors α) : VectorCall α → Except Stop (VectorAnswer α × Vectors α)
  | .create this initialCapacity => do
    let result ← VectorObject.create state.memory width initialCapacity
    return (.done, state.set this result)
  | .copy this other => do
    let result ← VectorObject.copy state.memory width (← state.get other)
    return (.done, state.set this result)
  | .move this other => do
    let object ← state.get other
    return (.done, (state.set other (state.memory, .empty)).set this (state.memory, object))
  | .destruct this => do
    let memory ← VectorObject.destruct state.memory (← state.get this)
    return (.done, ⟨memory, Function.update state.object this none⟩)
  | .assign this other =>
    if this = other then .ok (.done, state)
    else do
      let source ← state.get other
      state.change this fun memory object => object.assign memory width source
  | .assignMoved this other =>
    if this = other then .ok (.done, state)
    else do
      let source ← state.get other
      let memory ← VectorObject.destruct state.memory (← state.get this)
      return (.done, (state.set other (memory, .empty)).set this (memory, source))
  | .pushBack this value => state.change this fun memory object => object.pushBack memory width value
  | .pushElement this other index => do
    let source ← state.get other
    state.change this fun memory object => object.pushElement memory width source.data index
  | .popBack this => state.change this fun memory object => object.popBack memory
  | .reserve this newCapacity =>
    state.change this fun memory object => object.reserve memory width newCapacity
  | .resize this newSize =>
    state.change this fun memory object => object.resize memory width default newSize
  | .clear this => state.change this fun memory object => object.clear memory
  | .erase this index => state.change this fun memory object => object.erase memory index
  | .at this index => do
    let object ← state.get this
    let value ← state.memory.read object.data index
    return (.element value, state)
  | .size this => do
    let object ← state.get this
    return (.count object.size, state)

end Vectors

end Pocky
