import Mathlib.Data.Finset.Card
import Mathlib.Data.Finset.Image
import Mathlib.Data.Finset.Range

/-! Walks of a step that may stop: on finitely many places they stop unless a place comes back. -/

namespace Pocky

section Walk

variable {α : Type} {step : α → Option α} {start place : α}

/-- Where a walk is after some steps, unless it has stopped before. -/
def walkFrom (step : α → Option α) (start : α) : Nat → Option α
  | 0 => some start
  | count + 1 => (walkFrom step start count).bind step

/-- A walk stops after some steps. -/
def Stops (step : α → Option α) (start : α) : Prop := ∃ count, walkFrom step start count = none

/-- The walk stops, as the start leads nowhere. -/
theorem walkFrom_one (step : α → Option α) (start : α) : walkFrom step start 1 = step start := rfl

/-- A walk goes on from where it has come. -/
theorem walkFrom_add (step : α → Option α) (start : α) (first second : Nat) :
    walkFrom step start (first + second) =
      (walkFrom step start first).bind fun place => walkFrom step place second := by
  -- By induction on the later steps.
  induction second with
  | zero => cases reached : walkFrom step start first <;> simp [walkFrom]
  | succ second ih =>
    rw [← Nat.add_assoc, walkFrom, ih, Option.bind_assoc]
    rfl

/-- A walk that has come somewhere goes on from there. -/
theorem walkFrom_reached {first : Nat} (reached : walkFrom step start first = some place)
    (second : Nat) : walkFrom step start (first + second) = walkFrom step place second := by
  rw [walkFrom_add, reached]
  rfl

/-- A walk that has stopped does not go on. -/
theorem walkFrom_stopped {first : Nat} (stopped : walkFrom step start first = none)
    (second : Nat) : walkFrom step start (first + second) = none := by
  rw [walkFrom_add, stopped]
  rfl

/-- A walk that has not stopped has not stopped earlier. -/
theorem walkFrom_before {early late : Nat} (order : early ≤ late)
    (reached : walkFrom step start late = some place) :
    ∃ between, walkFrom step start early = some between := by
  cases early_at : walkFrom step start early with
  | some between => exact ⟨between, rfl⟩
  | none =>
    have stopped := walkFrom_stopped early_at (late - early)
    rw [Nat.add_sub_cancel' order, reached] at stopped
    cases stopped

/-- A walk stops exactly if it does so from the places it comes to. -/
theorem stops_iff_of_reached {count : Nat} (reached : walkFrom step start count = some place) :
    Stops step start ↔ Stops step place := by
  constructor
  · rintro ⟨more, stopped⟩
    refine ⟨more, ?_⟩
    rw [← walkFrom_reached reached, Nat.add_comm]
    exact walkFrom_stopped stopped count
  · rintro ⟨more, stopped⟩
    exact ⟨count + more, by rw [walkFrom_reached reached, stopped]⟩

/-- What holds at the start of a walk and is kept by its steps holds everywhere on it. -/
theorem walkFrom_keeps (inv : α → Prop)
    (keeps : ∀ place target, inv place → step place = some target → inv target) (here : inv start)
    {count : Nat} (reached : walkFrom step start count = some place) : inv place := by
  -- By induction on the steps.
  induction count generalizing place with
  | zero =>
    obtain rfl := Option.some.inj reached
    exact here
  | succ count ih =>
    obtain ⟨before, there, leads⟩ := Option.bind_eq_some_iff.mp reached
    exact keeps before place (ih there) leads

/-- Steps that agree as far as a walk comes lead the same way. -/
theorem walkFrom_congr {other : α → Option α} {limit : Nat}
    (agree : ∀ count < limit, ∀ place, walkFrom step start count = some place → other place = step place)
    {count : Nat} (within : count ≤ limit) : walkFrom other start count = walkFrom step start count := by
  -- By induction on the steps.
  induction count with
  | zero => rfl
  | succ count ih =>
    rw [walkFrom, walkFrom, ih (Nat.le_of_succ_le within)]
    cases reached : walkFrom step start count with
    | none => rfl
    | some place => exact agree count within place reached

/-- No two places of a walk look the same. -/
def NeverTwice {β : Type} (view : α → β) (step : α → Option α) (start : α) : Prop :=
  ∀ early late, early < late → ∀ place other, walkFrom step start early = some place →
    walkFrom step start late = some other → view place ≠ view other

/-- A walk that stands still never stops. -/
theorem not_stops_of_loop (loop : step start = some start) : ¬ Stops step start := by
  -- It is at the start after any number of steps.
  have stays : ∀ count, walkFrom step start count = some start := by
    intro count
    induction count with
    | zero => rfl
    | succ count ih =>
      rw [walkFrom, ih]
      exact loop
  rintro ⟨count, stopped⟩
  rw [stays count] at stopped
  cases stopped

section View

variable {β : Type} {view : α → β} {inv : α → Prop}

/-- From places that look the same, a walk comes to places that look the same. -/
theorem walkFrom_view (keeps : ∀ place target, inv place → step place = some target → inv target)
    (alike : ∀ place other, inv place → inv other → view place = view other →
      (step place).map view = (step other).map view) {other : α} (here : inv start) (there : inv other)
    (same : view start = view other) (count : Nat) :
    (walkFrom step start count).map view = (walkFrom step other count).map view := by
  -- By induction on the steps.
  induction count with
  | zero => simp only [walkFrom, Option.map_some, same]
  | succ count ih =>
    rw [walkFrom, walkFrom]
    cases come : walkFrom step start count with
    | none =>
      rw [come] at ih
      rw [Option.map_eq_none_iff.mp ih.symm]
    | some place =>
      rw [come] at ih
      obtain ⟨place', come', equal⟩ := Option.map_eq_some_iff.mp ih.symm
      rw [come']
      exact alike place place' (walkFrom_keeps inv keeps here come)
        (walkFrom_keeps inv keeps there come') equal.symm

/-- A walk that comes back goes round for ever. -/
theorem Stops.neverTwice (keeps : ∀ place target, inv place → step place = some target → inv target)
    (alike : ∀ place other, inv place → inv other → view place = view other →
      (step place).map view = (step other).map view) (here : inv start) (stops : Stops step start) :
    NeverTwice view step start := by
  intro early late order place other reached returned same
  have holds := walkFrom_keeps inv keeps here reached
  -- From the place it comes back to, it comes back again and again, and never stops.
  have round : walkFrom step place (late - early) = some other := by
    rw [← walkFrom_reached reached, Nat.add_sub_cancel' (Nat.le_of_lt order), returned]
  have again : ∀ times, ∃ back, walkFrom step place (times * (late - early)) = some back ∧
      view back = view place := by
    intro times
    induction times with
    | zero => exact ⟨place, by rw [Nat.zero_mul]; rfl, rfl⟩
    | succ times ih =>
      obtain ⟨back, there, equal⟩ := ih
      have further := walkFrom_view keeps alike (walkFrom_keeps inv keeps holds there) holds equal
        (late - early)
      rw [round] at further
      obtain ⟨back', there', equal'⟩ := Option.map_eq_some_iff.mp further
      refine ⟨back', ?_, equal'.trans same.symm⟩
      rw [Nat.succ_mul, walkFrom_reached there, there']
  obtain ⟨count, stopped⟩ := (stops_iff_of_reached reached).mp stops
  obtain ⟨back, there, -⟩ := again (count + 1)
  have far : count ≤ (count + 1) * (late - early) :=
    Nat.le_trans (Nat.le_succ count) (Nat.le_mul_of_pos_right _ (by omega))
  obtain ⟨between, here'⟩ := walkFrom_before far there
  rw [stopped] at here'
  cases here'

/-- A walk that stops comes to no place twice. -/
theorem Stops.neverTwice_id (stops : Stops step start) : NeverTwice id step start := by
  have keeps : ∀ place target, True → step place = some target → True := fun _ _ holds _ => holds
  exact stops.neverTwice keeps (fun place other _ _ same => by rw [show place = other from same]) trivial

/-- If only finitely many views come up, a walk without repetition stops within that many steps. -/
theorem NeverTwice.stopped [DecidableEq β] (never : NeverTwice view step start) (views : Finset β)
    (seen : ∀ count place, walkFrom step start count = some place → view place ∈ views) :
    walkFrom step start views.card = none := by
  -- Otherwise there would be more steps than views, and two of them with the same view.
  cases there : walkFrom step start views.card with
  | none => rfl
  | some last =>
    have reached : ∀ count < views.card + 1, ∃ place, walkFrom step start count = some place :=
      fun count small => walkFrom_before (Nat.le_of_lt_succ small) there
    have few : (views.map ⟨some, Option.some_injective _⟩).card <
        (Finset.range (views.card + 1)).card := by simp
    have within : Set.MapsTo (fun count => (walkFrom step start count).map view)
        (Finset.range (views.card + 1) : Finset Nat) (views.map ⟨some, Option.some_injective _⟩) := by
      intro count member
      obtain ⟨place, here⟩ := reached count (Finset.mem_range.mp member)
      simp only [here, Option.map_some, Finset.mem_coe, Finset.mem_map, Function.Embedding.coeFn_mk]
      exact ⟨view place, seen count place here, rfl⟩
    obtain ⟨early, inside, late, inside', different, same⟩ :=
      Finset.exists_ne_map_eq_of_card_lt_of_maps_to few within
    obtain ⟨place, here⟩ := reached early (Finset.mem_range.mp inside)
    obtain ⟨other, here'⟩ := reached late (Finset.mem_range.mp inside')
    simp only [here, here', Option.map_some, Option.some.injEq] at same
    rcases Nat.lt_or_gt_of_ne different with before | behind
    · exact absurd same (never early late before place other here here')
    · exact absurd same.symm (never late early behind other place here' here)

end View

end Walk

/-- A number below a bound, from which a walk goes on below that bound, is a stop or comes back. -/
theorem NeverTwice.stopped_below {step : Nat → Option Nat} {start bound : Nat}
    (never : NeverTwice id step start) (small : start < bound)
    (inside : ∀ place next, step place = some next → next < bound) :
    walkFrom step start bound = none := by
  have keeps : ∀ place next, place < bound → step place = some next → next < bound :=
    fun place next _ leads => inside place next leads
  have stopped := never.stopped (Finset.range bound) fun count place reached =>
    Finset.mem_range.mpr (walkFrom_keeps (· < bound) keeps small reached)
  rw [Finset.card_range] at stopped
  exact stopped

/-- A walk below a bound stops exactly if it comes to no number twice. -/
theorem stops_iff_neverTwice {step : Nat → Option Nat} {start bound : Nat} (small : start < bound)
    (inside : ∀ place next, step place = some next → next < bound) :
    Stops step start ↔ NeverTwice id step start :=
  ⟨Stops.neverTwice_id, fun never => ⟨bound, never.stopped_below small inside⟩⟩

end Pocky
