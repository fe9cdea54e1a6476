import Stencil.Proofs.Render.Joined

/-!
# What an expression comes to

`Expression.outcome` is the value or the error of an evaluation. It is the same whatever happened
before, since the events of the evaluation only come in front of those that are there
(`Expression.result_eval`), and the mode does not show but in what becomes of deferred values. None of
these events is the call of a filter (`Expression.events_callFree`).
-/

namespace Stencil

/-- Ends with the outcome, in the state. -/
def Ending.of {ε σ α : Type} (outcome : Except ε α) (s : σ) : Ending ε σ α :=
  match outcome with
  | .ok a => .ok a s
  | .error e => .error e s

theorem Ending.eq_of {ε σ α : Type} (r : Ending ε σ α) : r = .of r.outcome r.state := by
  cases r <;> rfl

namespace Expression

variable (i : Interpreter) (ctx : Context) (e : Expression)

/-- What the evaluation gives in the end, or how it fails. -/
def outcome : Except Error Value := (i.mode.drive (e.eval i ctx [])).outcome

/-- The events of the evaluation, newest first. -/
def events : List Event := (i.mode.drive (e.eval i ctx [])).state

theorem drive_eval (history : List Event) :
    i.mode.drive (e.eval i ctx history) = (e.eval i ctx history).result :=
  Mode.drive_eq_result (fun h => (promptEvaluation h ctx).expression e) history

/-- After any history the outcome and the events are those of an evaluation without one. -/
theorem result_eval (history : List Event) :
    (e.eval i ctx history).result = .of (e.outcome i ctx) (e.events i ctx ++ history) := by
  obtain ⟨ho, hs⟩ := (laterEvaluation history i ctx).expression e [] history rfl
  rw [outcome, events, drive_eval, ho, ← hs]
  exact Ending.eq_of _

theorem outcome_result (history : List Event) :
    (e.eval i ctx history).result.outcome = e.outcome i ctx := by
  rw [result_eval]
  cases e.outcome i ctx <;> rfl

end Expression

/-! ## Events -/

def Event.isCall : Event → Bool
  | .call .. => true
  | _ => false

/-- No filter is called, however the evaluation ends. -/
def CallFree : Coupling Error (List Event) := fun _ m _ =>
  m.Leads (Adds fun e : Event => e.isCall = false)

theorem CallFree.sequential : Sequential CallFree where
  pure _ h := .refl h
  bind hm hf := Coroutine.Leads.bind Adds.trans hm hf

theorem record_callFree {e : Event} (he : e.isCall = false) :
    CallFree Unit (Interpreter.record e) (Interpreter.record e) :=
  fun h => Adds.step (P := fun e : Event => e.isCall = false) he h

section
variable (i : Interpreter) (ctx : Context)

theorem settle_callFree (r : Resolution) (point : SuspensionPoint) :
    CallFree Value (i.settle r point) (i.settle r point) := by
  cases r with
  | settled v => exact CallFree.sequential.pure v
  | pending d =>
    unfold Interpreter.settle
    cases i.mode with
    | sync => exact fun h => .refl h
    | async =>
      refine CallFree.sequential.bind (record_callFree rfl) fun _ h => ?_
      rw [Deferred.result_await]
      cases d.outcome <;> exact .refl h

theorem variableValue_callFree (spelling name : String) :
    CallFree Value (i.variableValue ctx spelling name) (i.variableValue ctx spelling name) := by
  unfold Interpreter.variableValue Interpreter.ask
  cases ctx.find? name with
  | some v => exact CallFree.sequential.pure v
  | none =>
    refine CallFree.sequential.bind ?_ fun r => ?_
    · cases ctx.source with
      | none => exact CallFree.sequential.pure none
      | some source =>
        exact CallFree.sequential.bind (record_callFree rfl) fun _ => CallFree.sequential.pure _
    · cases r with
      | some r => exact settle_callFree i r _
      | none =>
        cases ctx.strict with
        | true => exact fun h => .refl h
        | false => exact CallFree.sequential.pure _

theorem callFreeExpressions : ExpressionLawsOn (fun _ _ => True) i i ctx ctx CallFree where
  toSequential := CallFree.sequential
  fail _ h := .refl h
  variableValue _ _ _ := variableValue_callFree i ctx _ _

theorem Expression.events_callFree (e : Expression) : ∀ event ∈ e.events i ctx, event.isCall = false := by
  obtain ⟨new, hnew, hn⟩ := (callFreeExpressions i ctx).expression e (fun _ _ => trivial) []
  rw [Expression.events, Expression.drive_eval, hnew, List.append_nil]
  exact hn

end

end Stencil
