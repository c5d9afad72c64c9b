import Mathlib.Algebra.Order.Ring.Int
import Mathlib.Logic.Basic

/-! Machines that take calls one after another, and what holds along all of their runs. -/

namespace Pocky.Calls

variable {σ κ : Type}

/-- The state after a sequence of calls, if every one of them has a result. -/
def run (perform : σ → κ → Option σ) (state : σ) : List κ → Option σ
  | [] => some state
  | call :: calls => (perform state call).bind fun next => run perform next calls

/-- Every call of a sequence meets a condition when its turn comes. -/
def AllMeet (perform : σ → κ → Option σ) (condition : σ → κ → Prop) (state : σ) : List κ → Prop
  | [] => True
  | call :: calls => condition state call ∧
    ∀ next, perform state call = some next → AllMeet perform condition next calls

variable {perform : σ → κ → Option σ}

/-- A run of several calls is its first call and then the others. -/
theorem run_cons {state last : σ} {call : κ} {calls : List κ} :
    run perform state (call :: calls) = some last ↔
      ∃ next, perform state call = some next ∧ run perform next calls = some last :=
  Option.bind_eq_some_iff

/-- A run of two sequences is a run of the first and then of the second. -/
theorem run_append {calls others : List κ} {state last : σ} :
    run perform state (calls ++ others) = some last ↔
      ∃ between, run perform state calls = some between ∧ run perform between others = some last := by
  -- By induction on the first sequence.
  induction calls generalizing state with
  | nil => simp [run]
  | cons call calls ih =>
    rw [List.cons_append, run_cons]
    simp only [ih, run_cons]
    constructor
    · rintro ⟨next, performed, between, ran, rest⟩
      exact ⟨between, ⟨next, performed, ran⟩, rest⟩
    · rintro ⟨between, ⟨next, performed, ran⟩, rest⟩
      exact ⟨next, performed, between, ran, rest⟩

/-- What every call that meets the condition preserves holds after every run of such calls. -/
theorem run_invariant {condition : σ → κ → Prop} (invariant : σ → Prop)
    (step : ∀ state call next, invariant state → condition state call →
      perform state call = some next → invariant next) (calls : List κ) :
    ∀ state last, invariant state → AllMeet perform condition state calls →
      run perform state calls = some last → invariant last := by
  -- By induction on the calls, with the state they start from.
  induction calls with
  | nil =>
    intro state last holds _ ran
    cases ran
    exact holds
  | cons call calls ih =>
    intro state last holds meets ran
    obtain ⟨next, performed, rest⟩ := run_cons.mp ran
    exact ih next last (step state call next holds meets.1 performed) (meets.2 next performed) rest

/--
What a call preserves just when it meets the condition holds in every state that is reached just
when all calls of the run meet it.
-/
theorem run_invariant_iff {condition : σ → κ → Prop} (invariant : σ → Prop)
    (step : ∀ state call next, invariant state → perform state call = some next →
      (invariant next ↔ condition state call)) (calls : List κ) :
    ∀ state last, invariant state → run perform state calls = some last →
      ((∀ front between, front <+: calls → run perform state front = some between →
        invariant between) ↔ AllMeet perform condition state calls) := by
  -- By induction on the calls, with the state they start from.
  induction calls with
  | nil =>
    intro state last holds _
    refine iff_of_true (fun front between inside ran => ?_) trivial
    rw [List.prefix_nil.mp inside] at ran
    cases ran
    exact holds
  | cons call calls ih =>
    intro state last holds ran
    obtain ⟨next, performed, rest⟩ := run_cons.mp ran
    constructor
    · intro all
      have here := all [call] next (List.prefix_append [call] calls)
        (run_cons.mpr ⟨next, performed, rfl⟩)
      refine ⟨(step state call next holds performed).mp here, fun other performed' => ?_⟩
      obtain rfl : next = other := Option.some.inj (performed.symm.trans performed')
      refine (ih next last here rest).mp fun front between inside ran' => ?_
      exact all (call :: front) between ((List.prefix_cons_inj call).mpr inside)
        (run_cons.mpr ⟨next, performed, ran'⟩)
    · rintro ⟨meets, later⟩ front between inside ran'
      have here := (step state call next holds performed).mpr meets
      cases front with
      | nil =>
        cases ran'
        exact holds
      | cons other front =>
        obtain ⟨rfl, behind⟩ := List.cons_prefix_cons.mp inside
        obtain ⟨next', performed', ran'⟩ := run_cons.mp ran'
        obtain rfl : next = next' := Option.some.inj (performed.symm.trans performed')
        exact (ih next last here rest).mpr (later next performed) front between behind ran'

/-- A condition that always holds is met by every sequence of calls. -/
theorem allMeet_of_forall {condition : σ → κ → Prop} (always : ∀ state call, condition state call)
    (calls : List κ) : ∀ state, AllMeet perform condition state calls := by
  induction calls with
  | nil => exact fun _ => trivial
  | cons call calls ih => exact fun state => ⟨always state call, fun next _ => ih next⟩

/-- Calls that each meet a condition of their own and one when their turn comes meet both then. -/
theorem allMeet_and {own : κ → Prop} {condition : σ → κ → Prop} {state : σ} {calls : List κ}
    (all : ∀ call ∈ calls, own call) (meets : AllMeet perform condition state calls) :
    AllMeet perform (fun state call => own call ∧ condition state call) state calls := by
  -- By induction on the calls, with the state they start from.
  induction calls generalizing state with
  | nil => trivial
  | cons call calls ih =>
    refine ⟨⟨all call List.mem_cons_self, meets.1⟩, fun next performed => ?_⟩
    exact ih (fun other member => all other (List.mem_cons_of_mem _ member)) (meets.2 next performed)

end Pocky.Calls
