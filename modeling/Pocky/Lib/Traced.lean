import Mathlib.Algebra.Order.Ring.Int
import Mathlib.Data.List.Basic

/-! Computations that keep a record of the bytes they read. -/

namespace Pocky

/-- A value, and the offset and size of every read it took, the first one first. -/
structure Traced (α : Type) where
  /-- The reads. -/
  reads : List (Nat × Nat)
  /-- The value. -/
  value : α

namespace Traced

variable {α β : Type}

instance : Monad Traced where
  pure value := ⟨[], value⟩
  bind first second := ⟨first.reads ++ (second first.value).reads, (second first.value).value⟩

/-- Reading some bytes. -/
def read (offset size : Nat) (value : α) : Traced α := ⟨[(offset, size)], value⟩

/-- All reads lie below a limit. -/
def Inside (limit : Nat) (traced : Traced α) : Prop :=
  ∀ place ∈ traced.reads, place.1 + place.2 ≤ limit

/-- Nothing is read for a value at hand. -/
@[simp] theorem value_pure (value : α) : (pure value : Traced α).value = value := rfl

/-- The second part goes on with the value of the first. -/
@[simp] theorem value_bind (first : Traced α) (second : α → Traced β) :
    (first >>= second).value = (second first.value).value := rfl

/-- What has been read is the value. -/
@[simp] theorem value_read (offset size : Nat) (value : α) : (read offset size value).value = value := rfl

/-- No read lies anywhere. -/
@[simp] theorem inside_pure (limit : Nat) (value : α) : (pure value : Traced α).Inside limit :=
  fun _ member => absurd member List.not_mem_nil

/-- Both parts have to stay below the limit. -/
@[simp] theorem inside_bind {limit : Nat} {first : Traced α} {second : α → Traced β} :
    (first >>= second).Inside limit ↔ first.Inside limit ∧ (second first.value).Inside limit :=
  List.forall_mem_append

/-- One read stays below the limit if it ends there. -/
@[simp] theorem inside_read {limit offset size : Nat} {value : α} :
    (read offset size value).Inside limit ↔ offset + size ≤ limit :=
  List.forall_mem_singleton

end Traced

end Pocky
