import Stencil.Error
import Stencil.Value

/-!
# Deferred values

A value may not be there yet. `Deferred` is what polling shows: so many polls that find nothing, then
an outcome. `Resolution` is the result of a step that may have to wait: a value at once, or a
deferred one. `Deferred.outcome` is what waiting gives in the end.
-/

namespace Stencil

inductive Deferred where
  | arrived (outcome : Except Error Value)
  /-- This poll finds nothing. -/
  | waiting (next : Deferred)

namespace Deferred

/-- One poll: the outcome, or what is left to poll. -/
def poll : Deferred → Except Error Value ⊕ Deferred
  | .arrived outcome => .inl outcome
  | .waiting next => .inr next

/-- Polls until the outcome is there. -/
def outcome : Deferred → Except Error Value
  | .arrived outcome => outcome
  | .waiting next => next.outcome

/-- A deferred value that arrives after `n` polls that find nothing. -/
def after (outcome : Except Error Value) (n : Nat) : Deferred :=
  Nat.repeat waiting n (arrived outcome)

@[simp] theorem outcome_after (r : Except Error Value) (n : Nat) : (after r n).outcome = r := by
  induction n with
  | zero => rfl
  | succ n ih => exact ih

/-- Each poll that finds nothing uses up one of the `n`. -/
theorem poll_after_succ (r : Except Error Value) (n : Nat) :
    (after r (n + 1)).poll = .inr (after r n) := rfl

end Deferred

/-- The result of a step that may have to wait. -/
inductive Resolution where
  | settled (v : Value)
  | pending (d : Deferred)

def Resolution.isPending : Resolution → Bool
  | .settled _ => false
  | .pending _ => true

end Stencil
