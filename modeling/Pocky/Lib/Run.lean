import Mathlib.Algebra.Order.Ring.Int

/-! Programs that may fail to return: a result, or the reason there is none. -/

namespace Pocky

/-- Why a call has no result in the source's semantics. -/
inductive Fault where
  /-- A loop never reaches its exit. -/
  | diverges
  /-- A write leaves the buffer it was meant for, after which nothing is defined. -/
  | overrun
  deriving Repr, DecidableEq

/-- A computation that returns a value or has no defined result. -/
abbrev Run (α : Type) := Except Fault α

namespace Run

/-- A sequence returns exactly when both of its parts do. -/
theorem bind_eq_ok {α β : Type} {first : Run α} {second : α → Run β} {result : β} :
    (first >>= second) = .ok result ↔ ∃ middle, first = .ok middle ∧ second middle = .ok result := by
  cases first with
  | error fault => simp [bind, Except.bind]
  | ok middle => simp [bind, Except.bind]

/-- A part that returns hands its value to the rest. -/
@[simp] theorem ok_bind {α β : Type} (value : α) (second : α → Run β) :
    ((Except.ok value : Run α) >>= second) = second value := rfl

/-- A part without a result ends the sequence. -/
@[simp] theorem error_bind {α β : Type} (fault : Fault) (second : α → Run β) :
    ((Except.error fault : Run α) >>= second) = .error fault := rfl

/-- Returning a value outright. -/
@[simp] theorem pure_eq {α : Type} (value : α) : (pure value : Run α) = .ok value := rfl

/-- A computation that has a value has returned it. -/
theorem toOption_eq_some {α : Type} {computation : Run α} {value : α} :
    computation.toOption = some value ↔ computation = .ok value := by
  cases computation with
  | error fault => simp [Except.toOption]
  | ok result => simp [Except.toOption]

/-- Whether a computation returns true and a state that passes a check. -/
def accepts {σ : Type} (result : Run (Bool × σ)) (check : σ → Bool) : Bool :=
  match result with
  | .ok (true, state) => check state
  | _ => false

/-- A computation that is accepted has such a state. -/
theorem exists_of_accepts {σ : Type} {result : Run (Bool × σ)} {check : σ → Bool}
    (accepted : accepts result check = true) :
    ∃ state, result = .ok (true, state) ∧ check state = true := by
  -- Any other result is not accepted.
  cases result with
  | error fault => cases accepted
  | ok pair =>
    obtain ⟨told, state⟩ := pair
    cases told with
    | false => cases accepted
    | true => exact ⟨state, rfl, accepted⟩

end Run

end Pocky
