import Mathlib.Data.Nat.Find
import Pocky.Lib.Walk

/-! Walks that consume places they leave; a consumed place leads to a sink when it is met again. -/

namespace Pocky

variable {α : Type} [DecidableEq α]

/-- One step of a walk that consumes: the places consumed so far, and where the walk is. -/
def consumingStep (next : α → Option α) (consumed : α → Bool) (sink : α) :
    Finset α × α → Option (Finset α × α)
  | (gone, place) =>
    (if place ∈ gone then some sink else next place).map fun target =>
      (if consumed place then insert place gone else gone, target)

section Consuming

variable {next : α → Option α} {consumed : α → Bool} {sink start place : α} {gone : Finset α}

/-- A walk that consumes is at places of the two walks that do not. -/
theorem consuming_place (next : α → Option α) (consumed : α → Bool) (sink start : α)
    (gone : Finset α) (count : Nat) {gone' : Finset α} {place : α}
    (reached : walkFrom (consumingStep next consumed sink) (gone, start) count = some (gone', place)) :
    ∃ steps, walkFrom next start steps = some place ∨ walkFrom next sink steps = some place := by
  -- By induction on the steps.
  induction count generalizing gone' place with
  | zero =>
    obtain ⟨-, rfl⟩ := Prod.mk.inj (Option.some.inj reached)
    exact ⟨0, Or.inl rfl⟩
  | succ count ih =>
    obtain ⟨⟨between, before⟩, there, moved⟩ := Option.bind_eq_some_iff.mp reached
    obtain ⟨steps, way⟩ := ih there
    obtain ⟨target, leads, pair⟩ := Option.map_eq_some_iff.mp moved
    obtain ⟨-, rfl⟩ := Prod.mk.inj pair
    split at leads
    · obtain rfl := Option.some.inj leads
      exact ⟨0, Or.inr rfl⟩
    · refine ⟨steps + 1, way.imp ?_ ?_⟩
      · intro here
        rw [walkFrom, here]
        exact leads
      · intro here
        rw [walkFrom, here]
        exact leads

/-- As long as no consumed place is met again, the walk goes as if nothing were consumed. -/
theorem consuming_follows (consumed : α → Bool) (sink : α) (gone : Finset α) {count : Nat}
    (apart : ∀ step < count, ∀ place, walkFrom next start step = some place → place ∉ gone)
    (fresh : ∀ early late, early < late → late < count → ∀ place,
      walkFrom next start early = some place → walkFrom next start late = some place →
      consumed place = false)
    (reached : walkFrom next start count = some place) :
    ∃ gone', walkFrom (consumingStep next consumed sink) (gone, start) count = some (gone', place) ∧
      ∀ other, other ∈ gone' ↔ other ∈ gone ∨
        consumed other = true ∧ ∃ step < count, walkFrom next start step = some other := by
  -- By induction on the steps.
  induction count generalizing place with
  | zero =>
    obtain rfl := Option.some.inj reached
    exact ⟨gone, rfl, by simp⟩
  | succ count ih =>
    obtain ⟨before, here, leads⟩ := Option.bind_eq_some_iff.mp reached
    obtain ⟨gone', there, members⟩ := ih (fun step small => apart step (by omega))
      (fun early late order small => fresh early late order (by omega)) here
    have unmet : before ∉ gone' := by
      intro member
      rcases (members before).mp member with old | ⟨eaten, step, small, met⟩
      · exact apart count (Nat.lt_succ_self count) before here old
      · rw [fresh step count small (Nat.lt_succ_self count) before met here] at eaten
        cases eaten
    refine ⟨if consumed before then insert before gone' else gone', ?_, fun other => ?_⟩
    · rw [walkFrom, there]
      simp only [Option.bind_some, consumingStep, if_neg unmet, leads, Option.map_some]
    · -- The place left is consumed or not, and the others are as before.
      have steps : (∃ step < count + 1, walkFrom next start step = some other) ↔
          (∃ step < count, walkFrom next start step = some other) ∨ other = before := by
        constructor
        · rintro ⟨step, small, met⟩
          rcases Nat.lt_succ_iff_lt_or_eq.mp small with earlier | rfl
          · exact Or.inl ⟨step, earlier, met⟩
          · rw [here] at met
            exact Or.inr (Option.some.inj met).symm
        · rintro (⟨step, small, met⟩ | rfl)
          · exact ⟨step, by omega, met⟩
          · exact ⟨count, Nat.lt_succ_self count, here⟩
      rw [steps]
      by_cases eaten : consumed before = true
      · rw [if_pos eaten, Finset.mem_insert, members other]
        constructor
        · rintro (rfl | old | ⟨eaten', met⟩)
          · exact Or.inr ⟨eaten, Or.inr rfl⟩
          · exact Or.inl old
          · exact Or.inr ⟨eaten', Or.inl met⟩
        · rintro (old | ⟨eaten', met | rfl⟩)
          · exact Or.inr (Or.inl old)
          · exact Or.inr (Or.inr ⟨eaten', met⟩)
          · exact Or.inl rfl
      · rw [if_neg eaten, members other]
        constructor
        · exact Or.imp_right (And.imp_right Or.inl)
        · rintro (old | ⟨eaten', met | rfl⟩)
          · exact Or.inl old
          · exact Or.inr ⟨eaten', met⟩
          · exact absurd eaten' eaten

/-- A walk that stops by itself also stops when it consumes, if nothing on it is gone. -/
theorem consuming_stops (stops : Stops next start)
    (apart : ∀ step place, walkFrom next start step = some place → place ∉ gone) :
    Stops (consumingStep next consumed sink) (gone, start) := by
  -- It follows the walk that does not consume to its last place.
  have never := stops.neverTwice_id
  obtain ⟨count, stopped⟩ := stops
  induction count with
  | zero => cases stopped
  | succ count ih =>
    cases here : walkFrom next start count with
    | none => exact ih here
    | some place =>
      obtain ⟨gone', there, members⟩ := consuming_follows consumed sink gone
        (fun step _ => apart step) (fun early late order _ place met again =>
          absurd rfl (never early late order place place met again)) here
      have leads : next place = none := by
        rw [walkFrom, here] at stopped
        exact stopped
      have unmet : place ∉ gone' := by
        intro member
        rcases (members place).mp member with old | ⟨-, step, small, met⟩
        · exact apart count place here old
        · exact never step count small place place met here rfl
      refine ⟨count + 1, ?_⟩
      rw [walkFrom, there]
      simp only [Option.bind_some, consumingStep, if_neg unmet, leads, Option.map_none]

/-- If neither the walk from the start nor that from the sink stops, consuming does not help. -/
theorem not_consuming_stops (goes : ¬ Stops next start) (sinks : ¬ Stops next sink) (gone : Finset α) :
    ¬ Stops (consumingStep next consumed sink) (gone, start) := by
  -- The walk is always at a place from where the walk that does not consume never stops.
  have always : ∀ count, ∃ gone' place,
      walkFrom (consumingStep next consumed sink) (gone, start) count = some (gone', place) ∧
        ¬ Stops next place := by
    intro count
    induction count with
    | zero => exact ⟨gone, start, rfl, goes⟩
    | succ count ih =>
      obtain ⟨gone', place, there, goes'⟩ := ih
      rw [walkFrom, there]
      simp only [Option.bind_some, consumingStep]
      by_cases met : place ∈ gone'
      · rw [if_pos met]
        exact ⟨_, sink, rfl, sinks⟩
      · rw [if_neg met]
        cases leads : next place with
        | none => exact absurd ⟨1, leads⟩ goes'
        | some target =>
          have one : walkFrom next place 1 = some target := leads
          exact ⟨_, target, rfl, fun stops => goes' ((stops_iff_of_reached one).mpr stops)⟩
  rintro ⟨count, stopped⟩
  obtain ⟨gone', place, there, -⟩ := always count
  rw [stopped] at there
  cases there

/-- A walk that comes back to a place that it has consumed. -/
def ConsumedAgain (next : α → Option α) (consumed : α → Bool) (start : α) : Prop :=
  ∃ early late place, early < late ∧ walkFrom next start early = some place ∧
    walkFrom next start late = some place ∧ consumed place = true

/--
A walk that consumes stops if it would stop anyway, or if it comes back to a place it has consumed
and the walk from the sink stops.
-/
theorem consuming_stops_iff (next : α → Option α) (consumed : α → Bool) (sink start : α) :
    Stops (consumingStep next consumed sink) (∅, start) ↔
      Stops next start ∨ Stops next sink ∧ ConsumedAgain next consumed start := by
  classical
  constructor
  · intro stops
    by_cases goes : Stops next start
    · exact Or.inl goes
    · refine Or.inr ⟨by_contra fun sinks => not_consuming_stops goes sinks ∅ stops, ?_⟩
      by_contra fresh
      obtain ⟨count, stopped⟩ := stops
      cases here : walkFrom next start count with
      | none => exact goes ⟨count, here⟩
      | some place =>
        -- Without a consumed place on the way back, the walk goes on as if nothing were consumed.
        obtain ⟨gone', there, -⟩ := consuming_follows consumed sink ∅
          (fun _ _ _ _ => Finset.notMem_empty _) (fun early late order _ place met again => by
            by_contra eaten
            exact fresh ⟨early, late, place, order, met, again, by simpa using eaten⟩) here
        rw [stopped] at there
        cases there
  · rintro (stops | ⟨sinks, again⟩)
    · exact consuming_stops stops fun _ _ _ => Finset.notMem_empty _
    · by_cases goes : Stops next start
      · exact consuming_stops goes fun _ _ _ => Finset.notMem_empty _
      · -- At the first consumed place that is met again the walk turns to the sink.
        have some_late : ∃ late, ∃ early place, early < late ∧ walkFrom next start early = some place ∧
            walkFrom next start late = some place ∧ consumed place = true := by
          obtain ⟨early, late, place, rest⟩ := again
          exact ⟨late, early, place, rest⟩
        obtain ⟨early, place, order, met, back, eaten⟩ := Nat.find_spec some_late
        have earliest := fun {late : Nat} => Nat.find_min some_late (m := late)
        generalize Nat.find some_late = late at order back earliest
        obtain ⟨gone', there, members⟩ := consuming_follows consumed sink ∅
          (fun _ _ _ _ => Finset.notMem_empty _)
          (fun early' late' order' small place' met' again' => by
            by_contra eaten'
            exact earliest small ⟨early', place', order', met', again', by simpa using eaten'⟩) back
        have gone_place : place ∈ gone' := (members place).mpr (Or.inr ⟨eaten, early, order, met⟩)
        have turned : walkFrom (consumingStep next consumed sink) (∅, start) (late + 1) =
            some (gone', sink) := by
          rw [walkFrom, there]
          simp only [Option.bind_some, consumingStep, if_pos gone_place, Option.map_some, if_pos eaten,
            Finset.insert_eq_of_mem gone_place]
        refine (stops_iff_of_reached turned).mpr (consuming_stops sinks fun step other way member => ?_)
        -- What has been consumed lies on a walk that does not stop.
        rcases (members other).mp member with old | ⟨-, step', -, way'⟩
        · exact Finset.notMem_empty _ old
        · exact goes ((stops_iff_of_reached way').mpr ((stops_iff_of_reached way).mp sinks))

end Consuming

end Pocky
