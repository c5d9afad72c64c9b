import Mathlib.Algebra.Order.Ring.Int
import Mathlib.Logic.Function.Basic

/-! Moving a stretch of an array to an offset that may overlap it. -/

namespace Pocky.Moves

variable {α : Type}

/-- The loop that copies upwards. -/
def copyUp (dest src : Nat) : Nat → (Nat → α) → Nat → α
  | 0, items => items
  | count + 1, items => copyUp (dest + 1) (src + 1) count (Function.update items dest (items src))

/-- The loop that copies downwards. -/
def copyDown (dest src : Nat) : Nat → (Nat → α) → Nat → α
  | 0, items => items
  | count + 1, items =>
    copyDown dest src count (Function.update items (dest + count) (items (src + count)))

/-- A stretch is copied upwards to a lower offset and downwards to any other. -/
def memmove (dest src count : Nat) (items : Nat → α) : Nat → α :=
  if dest < src then copyUp dest src count items else copyDown dest src count items

/-- Copying upwards to a lower offset reads no item that it has written. -/
theorem copyUp_apply {dest src : Nat} (lower : dest < src) (count : Nat) (items : Nat → α)
    (index : Nat) :
    copyUp dest src count items index =
      if dest ≤ index ∧ index < dest + count then items (src + (index - dest))
      else items index := by
  -- By induction on the length; the first item is written before the others are read.
  induction count generalizing dest src items with
  | zero =>
    rw [copyUp, if_neg (by omega)]
  | succ count ih =>
    rw [copyUp, ih (by omega)]
    by_cases here : index = dest
    · rw [if_neg (by omega), if_pos (by omega), here, Function.update_self, Nat.sub_self,
        Nat.add_zero]
    · by_cases inside : dest ≤ index ∧ index < dest + (count + 1)
      · -- A later item is read above everything written so far.
        have offset : src + 1 + (index - (dest + 1)) = src + (index - dest) := by omega
        rw [if_pos (by omega), if_pos inside, offset, Function.update_of_ne (by omega)]
      · rw [if_neg (by omega), if_neg inside, Function.update_of_ne here]

/-- Copying downwards to the same or a higher offset reads no item that it has written. -/
theorem copyDown_apply {dest src : Nat} (higher : src ≤ dest) (count : Nat) (items : Nat → α)
    (index : Nat) :
    copyDown dest src count items index =
      if dest ≤ index ∧ index < dest + count then items (src + (index - dest))
      else items index := by
  -- By induction on the length; the last item is written before the others are read.
  induction count generalizing items with
  | zero =>
    rw [copyDown, if_neg (by omega)]
  | succ count ih =>
    rw [copyDown, ih]
    by_cases last : index = dest + count
    · have offset : src + (index - dest) = src + count := by omega
      rw [if_neg (by omega), if_pos (by omega), offset, last, Function.update_self]
    · by_cases inside : dest ≤ index ∧ index < dest + (count + 1)
      · -- An earlier item is read below everything written so far.
        rw [if_pos (by omega), if_pos inside, Function.update_of_ne (by omega)]
      · rw [if_neg (by omega), if_neg inside, Function.update_of_ne last]

/-- Either way the stretch arrives as it was, and nothing else changes. -/
theorem memmove_apply (dest src count : Nat) (items : Nat → α) (index : Nat) :
    memmove dest src count items index =
      if dest ≤ index ∧ index < dest + count then items (src + (index - dest))
      else items index := by
  rw [memmove]
  by_cases lower : dest < src
  · rw [if_pos lower, copyUp_apply lower]
  · rw [if_neg lower, copyDown_apply (Nat.le_of_not_lt lower)]

/-- Nothing below the destination changes. -/
theorem memmove_below {dest src count : Nat} {items : Nat → α} {index : Nat}
    (below : index < dest) : memmove dest src count items index = items index := by
  rw [memmove_apply, if_neg (by omega)]

/-- Inside the destination stands what the source had. -/
theorem memmove_inside {dest src count : Nat} {items : Nat → α} {index : Nat}
    (start : dest ≤ index) (stop : index < dest + count) :
    memmove dest src count items index = items (src + (index - dest)) := by
  rw [memmove_apply, if_pos ⟨start, stop⟩]

/-- Moving items does not depend on what they are. -/
theorem memmove_map {β : Type} (convert : α → β) (dest src count : Nat) (items : Nat → α) (index : Nat) :
    memmove dest src count (fun place => convert (items place)) index =
      convert (memmove dest src count items index) := by
  rw [memmove_apply, memmove_apply, apply_ite convert]

end Pocky.Moves
