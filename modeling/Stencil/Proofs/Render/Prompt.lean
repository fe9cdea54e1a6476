import Stencil.Proofs.Render.Transport

/-!
# Synchronous runs end at their first poll

In synchronous mode no step of a built-in tag waits, so that the one poll of a render finds its end,
and both modes give the ending of the rendering.
-/

namespace Stencil

variable {ε σ α : Type}

/-- The first poll finds the end. -/
def Coroutine.Prompt (m : Coroutine ε σ α) : Prop := ∀ s, ∃ r, m s = .done r

namespace Coroutine

theorem Prompt.of_done {m : Coroutine ε σ α} {r : σ → Ending ε σ α} (h : m = fun s => .done (r s)) :
    m.Prompt := fun s => ⟨r s, congrFun h s⟩

theorem Prompt.pure (a : α) : (pure a : Coroutine ε σ α).Prompt := .of_done rfl

theorem Prompt.bind {β : Type} {m : Coroutine ε σ α} {f : α → Coroutine ε σ β} (hm : m.Prompt)
    (hf : ∀ a, (f a).Prompt) : (m >>= f).Prompt := by
  intro s
  obtain ⟨r, hr⟩ := hm s
  change ∃ r, (m s).bind f = .done r
  rw [hr]
  cases r with
  | ok a s' => exact hf a s'
  | error e s' => exact ⟨.error e s', rfl⟩

theorem Prompt.lift (r : Except ε α) : (lift r : Coroutine ε σ α).Prompt := by
  cases r with
  | ok a => exact .pure a
  | error e => exact .of_done rfl

theorem Prompt.sequential : Sequential (fun α (m _ : Coroutine ε σ α) => m.Prompt) where
  pure := .pure
  bind := .bind

end Coroutine

open Coroutine

theorem Rendering.evaluating_prompt {f : Context → Evaluation α} (hf : ∀ ctx, (f ctx).Prompt) :
    (evaluating f).Prompt := by
  intro st
  obtain ⟨r, hr⟩ := hf st.context st.history
  exact ⟨_, by simp only [evaluating, hr]; rfl⟩

section
variable {i : Interpreter} (h : i.mode = .sync)
include h

theorem Interpreter.settle_prompt (r : Resolution) (point : SuspensionPoint) :
    (i.settle r point).Prompt := by
  cases r with
  | settled v => exact .pure v
  | pending d => simp only [settle, h]; exact .of_done rfl

theorem Interpreter.variableValue_prompt (ctx : Context) (spelling name : String) :
    (i.variableValue ctx spelling name).Prompt := by
  unfold variableValue ask
  cases ctx.find? name with
  | some v => exact .pure v
  | none =>
    refine .bind ?_ fun r => ?_
    · cases ctx.source with
      | none => exact .pure none
      | some source => exact .bind (.of_done rfl) fun _ => .pure _
    · cases r with
      | some r => exact settle_prompt h r _
      | none =>
        cases ctx.strict with
        | true => exact .of_done rfl
        | false => exact .pure _

theorem Interpreter.call_prompt (name : String) (filter : Filter) (input : Value)
    (args : Arguments) : (i.call name filter input args).Prompt :=
  .bind (.of_done rfl) fun _ => .bind (.lift _) fun r => settle_prompt h r _

theorem promptEvaluation (ctx : Context) :
    EvaluationLaws i i ctx ctx fun _ m _ => m.Prompt where
  toSequential := Prompt.sequential
  fail _ := .of_done rfl
  variableValue := i.variableValue_prompt h ctx
  known _ := rfl
  call name f _ _ _ input args := i.call_prompt h name f input args

end

theorem promptRendering {i : Interpreter} (h : i.mode = .sync) :
    RenderingLaws i i (fun _ => True) fun _ m _ => m.Prompt where
  toSequential := Prompt.sequential
  write _ := .of_done rfl
  expression e := Rendering.evaluating_prompt fun ctx => (promptEvaluation h ctx).expression e
  pipeline p := Rendering.evaluating_prompt fun ctx => (promptEvaluation h ctx).pipeline p
  assign _ _ := .of_done rfl
  inFrame frame _ _ hb st := by
    obtain ⟨r, hr⟩ := hb { st with context := st.context.push frame }
    exact ⟨_, by simp only [Rendering.inFrame, hr]; rfl⟩
  capturing hb st := by
    obtain ⟨r, hr⟩ := hb { st with output := "" }
    exact ⟨_, by simp only [Rendering.capturing, hr]; rfl⟩

/-- What does not wait in synchronous mode ends as its computation does, in either mode. -/
theorem Mode.drive_eq_result {mode : Mode} {m : Coroutine Error σ α}
    (h : mode = .sync → m.Prompt) (s : σ) : mode.drive (m s) = (m s).result := by
  cases mode with
  | async => rfl
  | sync =>
    obtain ⟨r, hr⟩ := h rfl s
    rw [hr]
    rfl

/-- A run of built-in tags ends as its rendering does, in either mode. -/
theorem Mode.drive_renderNodes (i : Interpreter) {ns : List Node} (hb : NodesBuiltin ns)
    (st : RenderState) : i.mode.drive (renderNodes i ns st) = (renderNodes i ns st).result :=
  drive_eq_result (fun h => (promptRendering h).nodes ns hb fun _ _ => trivial) st

theorem Template.render_eq_ofEnding {t : Template} (ht : t.Builtin) (i : Interpreter)
    (ctx : Context) : t.render i ctx =
      .ofEnding (renderNodes i t.nodes { context := ctx, output := "", history := [] }).result := by
  rw [Template.render, Mode.drive_renderNodes i ht]

end Stencil
