import Mathlib.Algebra.Order.Ring.Int

/-! Machines that answer calls and may stop, and machines that only say what the answers should be. -/

namespace Pocky.Simulation

section Results

variable {ε α β : Type}

/-- A computation stops for an allowed reason, or its result is a good one. -/
def EndsWell (allowed : ε → Prop) (good : α → Prop) : Except ε α → Prop
  | .error stop => allowed stop
  | .ok result => good result

variable {allowed : ε → Prop} {good : α → Prop}

/-- A sequence ends well if its first part does, and the rest does on every good result. -/
theorem EndsWell.bind {first : Except ε α} {second : α → Except ε β} {fine : β → Prop}
    (ends : EndsWell allowed good first) (rest : ∀ result, good result → EndsWell allowed fine (second result)) :
    EndsWell allowed fine (first >>= second) := by
  cases first with
  | error stop => exact ends
  | ok result => exact rest result ends

/-- A first part that returns leaves the rest. -/
theorem EndsWell.ok_bind {value : α} {second : α → Except ε β} {fine : β → Prop}
    (ends : EndsWell allowed fine (second value)) : EndsWell allowed fine (Except.ok value >>= second) := ends

/-- A sequence that has returned has returned from its first part. -/
theorem returned_first {first : Except ε α} {second : α → Except ε β} {result : β}
    (returned : (first >>= second) = .ok result) :
    ∃ middle, first = .ok middle ∧ second middle = .ok result := by
  cases first with
  | error stop => cases returned
  | ok middle => exact ⟨middle, rfl, returned⟩

/-- What follows from a good result may replace it. -/
theorem EndsWell.mono {computation : Except ε α} {fine : α → Prop} (ends : EndsWell allowed good computation)
    (follows : ∀ result, good result → fine result) : EndsWell allowed fine computation := by
  cases computation with
  | error stop => exact ends
  | ok result => exact follows result ends

/-- A computation that has returned has returned a good result. -/
theorem EndsWell.ok {computation : Except ε α} {result : α} (ends : EndsWell allowed good computation)
    (returned : computation = .ok result) : good result := by
  rw [returned] at ends
  exact ends

end Results

variable {σ τ κ α ε : Type}

/-- The answers to a sequence of calls and the state behind them, unless one of the calls stops. -/
def run (perform : σ → κ → Except ε (α × σ)) (state : σ) : List κ → Except ε (List α × σ)
  | [] => .ok ([], state)
  | call :: calls => do
    let (answer, next) ← perform state call
    let (answers, last) ← run perform next calls
    return (answer :: answers, last)

/-- The answers that a machine without stops gives, and the state behind them. -/
def specRun (perform : τ → κ → α × τ) (state : τ) : List κ → List α × τ
  | [] => ([], state)
  | call :: calls =>
    let next := perform state call
    let rest := specRun perform next.2 calls
    (next.1 :: rest.1, rest.2)

/-- Every call of a sequence meets a condition on the specifying machine when its turn comes. -/
def AllMeet (perform : τ → κ → α × τ) (condition : τ → κ → Prop) (state : τ) : List κ → Prop
  | [] => True
  | call :: calls => condition state call ∧ AllMeet perform condition (perform state call).2 calls

/-- A condition that does not look at the state is met when every call meets it. -/
theorem allMeet_of_forall {perform : τ → κ → α × τ} {condition : κ → Prop} {calls : List κ}
    (all : ∀ call ∈ calls, condition call) (state : τ) :
    AllMeet perform (fun _ => condition) state calls := by
  -- By induction on the calls, with the state they start from.
  induction calls generalizing state with
  | nil => trivial
  | cons call calls ih =>
    exact ⟨all call List.mem_cons_self, ih (fun other member => all other (List.mem_cons_of_mem _ member)) _⟩

/-- Two conditions that are met are met together. -/
theorem allMeet_and {perform : τ → κ → α × τ} {first second : τ → κ → Prop} {state : τ}
    {calls : List κ} (meets : AllMeet perform first state calls)
    (meets' : AllMeet perform second state calls) :
    AllMeet perform (fun state call => first state call ∧ second state call) state calls := by
  -- By induction on the calls, with the state they start from.
  induction calls generalizing state with
  | nil => trivial
  | cons call calls ih => exact ⟨⟨meets.1, meets'.1⟩, ih meets.2 meets'.2⟩

/-- A relation in which related machines answer a call alike and stay related. -/
def Step (perform : σ → κ → Except ε (α × σ)) (spec : τ → κ → α × τ) (condition : τ → κ → Prop)
    (allowed : ε → Prop) (relates : σ → τ → Prop) : Prop :=
  ∀ state abstract call, relates state abstract → condition abstract call →
    EndsWell allowed (fun result => result.1 = (spec abstract call).1 ∧
      relates result.2 (spec abstract call).2) (perform state call)

variable {perform : σ → κ → Except ε (α × σ)} {spec : τ → κ → α × τ} {condition : τ → κ → Prop}
  {allowed : ε → Prop} {relates : σ → τ → Prop}

/-- Related machines give the same answers to every sequence of calls, and stay related. -/
theorem run_simulates (step : Step perform spec condition allowed relates) (calls : List κ) :
    ∀ state abstract, relates state abstract → AllMeet spec condition abstract calls →
      EndsWell allowed (fun result => result.1 = (specRun spec abstract calls).1 ∧
        relates result.2 (specRun spec abstract calls).2) (run perform state calls) := by
  -- By induction on the calls, with the states they start from.
  induction calls with
  | nil => exact fun state abstract related _ => ⟨rfl, related⟩
  | cons call calls ih =>
    intro state abstract related meets
    refine (step state abstract call related meets.1).bind ?_
    rintro ⟨answer, next⟩ ⟨same, related'⟩
    refine (ih next _ related' meets.2).bind ?_
    rintro ⟨answers, last⟩ ⟨sames, related''⟩
    exact ⟨congrArg₂ List.cons same sames, related''⟩

/--
If calls that break a rule never return, then the runs that return are those that follow it, with
the answers of the specifying machine.
-/
theorem run_returned {rule : τ → κ → Prop}
    (step : Step perform spec (fun abstract call => condition abstract call ∧ rule abstract call)
      allowed relates)
    (broken : ∀ state abstract call result, relates state abstract → condition abstract call →
      ¬ rule abstract call → perform state call ≠ .ok result) (calls : List κ) :
    ∀ state abstract result, relates state abstract → AllMeet spec condition abstract calls →
      run perform state calls = .ok result →
      AllMeet spec rule abstract calls ∧ result.1 = (specRun spec abstract calls).1 ∧
        relates result.2 (specRun spec abstract calls).2 := by
  -- By induction on the calls, with the states they start from.
  induction calls with
  | nil =>
    intro state abstract result related _ returned
    cases returned
    exact ⟨trivial, rfl, related⟩
  | cons call calls ih =>
    intro state abstract result related meets returned
    cases performed : perform state call with
    | error stop =>
      rw [run, performed] at returned
      cases returned
    | ok first =>
      have follows : rule abstract call := by
        by_contra breaks
        exact broken state abstract call first related meets.1 breaks performed
      obtain ⟨same, related'⟩ := (step state abstract call related ⟨meets.1, follows⟩).ok performed
      rw [run, performed] at returned
      cases ran : run perform first.2 calls with
      | error stop =>
        simp only [bind, Except.bind, ran] at returned
        cases returned
      | ok rest =>
        simp only [bind, Except.bind, ran] at returned
        cases returned
        obtain ⟨others, sames, related''⟩ := ih first.2 _ rest related' meets.2 ran
        exact ⟨⟨follows, others⟩, congrArg₂ List.cons same sames, related''⟩

/-- Every call of a sequence returns, with an answer that the specifying machine may give. -/
def Follows (perform : σ → κ → Except ε (α × σ)) (may : σ → τ → κ → α → τ → Prop) :
    σ → τ → List κ → Prop
  | _, _, [] => True
  | state, abstract, call :: calls => ∃ answer next abstract',
    perform state call = .ok (answer, next) ∧ may state abstract call answer abstract' ∧
      Follows perform may next abstract' calls

/-- A relation that every call keeps is enough for that. -/
theorem follows_of_step {may : σ → τ → κ → α → τ → Prop} {proper : κ → Prop}
    (step : ∀ state abstract call, relates state abstract → proper call →
      ∃ answer next abstract', perform state call = .ok (answer, next) ∧
        may state abstract call answer abstract' ∧ relates next abstract') {calls : List κ}
    (all : ∀ call ∈ calls, proper call) {state : σ} {abstract : τ} (related : relates state abstract) :
    Follows perform may state abstract calls := by
  -- By induction on the calls, with the states they start from.
  induction calls generalizing state abstract with
  | nil => trivial
  | cons call calls ih =>
    obtain ⟨answer, next, abstract', performed, allowed, related'⟩ :=
      step state abstract call related (all call List.mem_cons_self)
    exact ⟨answer, next, abstract', performed, allowed,
      ih (fun other member => all other (List.mem_cons_of_mem _ member)) related'⟩

end Pocky.Simulation
