import Mathlib.Algebra.Order.Ring.Int
import Mathlib.Data.Nat.ModEq

/-! Arcs on a circle of points: runs of numbers that count up and start again at zero. -/

namespace Pocky

/-- The points of an arc, from a start point on. -/
def Arc (size start length point : Nat) : Prop :=
  ∃ step < length, point = (start + step) % size

/-- How far it is from one point of the circle to another. -/
def gap (size start other : Nat) : Nat := (other + size - start % size) % size

/-- The second arc starts behind the first one and ends before it. -/
def ArcsApart (size start length other length' : Nat) : Prop :=
  length ≤ gap size start other ∧ gap size start other + length' ≤ size

/-- The points of an arc lie below a limit. -/
def ArcBelow (size start length limit : Nat) : Prop :=
  size ≤ limit ∨ start % size + length ≤ limit

instance (size start length other length' : Nat) :
    Decidable (ArcsApart size start length other length') := by
  unfold ArcsApart
  exact inferInstance

instance (size start length limit : Nat) : Decidable (ArcBelow size start length limit) := by
  unfold ArcBelow
  exact inferInstance

variable {size start length other length' limit : Nat}

/-- Going on from the first point by the gap leads to the second. -/
theorem add_gap (positive : 0 < size) (start other : Nat) :
    (start + gap size start other) % size = other % size := by
  have small := Nat.mod_lt start positive
  have whole := Nat.div_add_mod start size
  rw [gap, Nat.add_mod_mod]
  -- The start is counted in full and taken off up to full rounds.
  have sum : start + (other + size - start % size) = other + size * (start / size + 1) := by
    rw [Nat.mul_succ]
    omega
  rw [sum, Nat.add_mul_mod_self_left]

/-- Points of the second arc, counted from the start of the first. -/
theorem arc_from_gap (positive : 0 < size) (start other step : Nat) :
    (other + step) % size = (start + (gap size start other + step)) % size := by
  rw [← Nat.add_assoc, Nat.add_mod, ← add_gap positive start other, ← Nat.add_mod]

/-- Steps of less than a round that lead to the same point are the same. -/
theorem step_unique {step step' : Nat} (small : step < size) (small' : step' < size)
    (same : (start + step) % size = (start + step') % size) : step = step' := by
  have equal : step % size = step' % size := Nat.ModEq.add_left_cancel' start same
  rwa [Nat.mod_eq_of_lt small, Nat.mod_eq_of_lt small'] at equal

/-- Two arcs have no point in common exactly if the second lies behind the first. -/
theorem arcs_disjoint_iff (positive : 0 < size) (some : 0 < length) (some' : 0 < length') :
    (∀ point, Arc size start length point → ¬ Arc size other length' point) ↔
      ArcsApart size start length other length' := by
  have round : gap size start other < size := Nat.mod_lt _ positive
  constructor
  · intro disjoint
    refine ⟨Nat.le_of_not_lt fun inside => ?_, Nat.le_of_not_lt fun above => ?_⟩
    · -- The second start would be a point of the first arc.
      exact disjoint _ ⟨_, inside, rfl⟩ ⟨0, some', (add_gap positive start other)⟩
    · -- The second arc would come round to the first start.
      refine disjoint _ ⟨0, some, rfl⟩ ⟨size - gap size start other, by omega, ?_⟩
      rw [arc_from_gap positive start other, Nat.add_sub_cancel' (Nat.le_of_lt round), Nat.add_zero,
        Nat.add_mod_right]
  · rintro ⟨behind, before⟩ point ⟨step, small, rfl⟩ ⟨step', small', same⟩
    rw [arc_from_gap positive start other] at same
    have equal := step_unique (by omega) (by omega) same
    omega

/-- The points of an arc lie below a limit exactly if it does not go beyond it. -/
theorem arc_below_iff (positive : 0 < size) (some : 0 < length) :
    (∀ point, Arc size start length point → point < limit) ↔ ArcBelow size start length limit := by
  have small := Nat.mod_lt start positive
  constructor
  · intro below
    by_cases large : size ≤ limit
    · exact Or.inl large
    · refine Or.inr (Nat.le_of_not_lt fun above => ?_)
      have first := below _ ⟨0, some, rfl⟩
      rw [Nat.add_zero] at first
      -- The point at the limit would be one of the arc.
      have last := below _ ⟨limit - start % size, by omega, rfl⟩
      rw [← Nat.mod_add_mod, Nat.add_sub_cancel' (Nat.le_of_lt first),
        Nat.mod_eq_of_lt (Nat.lt_of_not_le large)] at last
      omega
  · rintro (large | inside) point ⟨step, few, rfl⟩
    · exact Nat.lt_of_lt_of_le (Nat.mod_lt _ positive) large
    · rw [← Nat.mod_add_mod]
      have := Nat.mod_le (start % size + step) size
      omega

/-- Arcs that start at neighbouring points make up one arc. -/
theorem arc_run {count length start point : Nat} (some : 0 < count) (some' : 0 < length) :
    (∃ step < count, Arc size (start + step) length point) ↔
      Arc size start (count - 1 + length) point := by
  constructor
  · rintro ⟨step, few, step', few', rfl⟩
    exact ⟨step + step', by omega, by rw [Nat.add_assoc]⟩
  · rintro ⟨step, few, rfl⟩
    -- The point lies on the arc of its own number, or else on the last one.
    rcases Nat.lt_or_ge step count with early | late
    · exact ⟨step, early, 0, some', rfl⟩
    · refine ⟨count - 1, by omega, step - (count - 1), by omega, ?_⟩
      rw [Nat.add_assoc, Nat.add_sub_cancel' (by omega)]

/-- Arcs that start at neighbouring points have nothing in common if they are single points, and no
more of them than the circle has. -/
theorem arc_run_disjoint_iff (start : Nat) {count length : Nat} (positive : 0 < size) (some : 0 < count)
    (some' : 0 < length) :
    (∀ step < count, ∀ step' < count, step ≠ step' → ∀ point,
      Arc size (start + step) length point → ¬ Arc size (start + step') length point) ↔
      count = 1 ∨ length = 1 ∧ count ≤ size := by
  constructor
  · intro disjoint
    by_cases several : count = 1
    · exact Or.inl several
    · refine Or.inr ⟨?_, Nat.le_of_not_lt fun above => ?_⟩
      · by_contra long
        exact disjoint 0 some 1 (by omega) (by decide) _ ⟨1, by omega, rfl⟩ ⟨0, some', rfl⟩
      · refine disjoint 0 some size above (by omega) _ ⟨0, some', rfl⟩ ⟨0, some', ?_⟩
        simp
  · rintro (rfl | ⟨rfl, few⟩) step small step' small' different point
    · omega
    · rintro ⟨more, few', rfl⟩ ⟨more', few'', same⟩
      obtain rfl : more = 0 := by omega
      obtain rfl : more' = 0 := by omega
      exact different (step_unique (by omega) (by omega) same)

end Pocky
