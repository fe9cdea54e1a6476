import Stencil.Render.Interpreter
import Stencil.Proofs.Render.Sequencing

/-!
# How nodes end

What a rendering comes to that is a single node, or that starts with an assignment or a capture.
-/

namespace Stencil

variable {α β : Type} (i : Interpreter)

theorem Rendering.result_evaluating_bind (f : Context → Evaluation α) (g : α → Rendering β)
    (st : RenderState) : ((Rendering.evaluating f >>= g) st).result =
      match (f st.context st.history).result with
      | .ok v history => (g v { st with history }).result
      | .error e history => .error e { st with history } := by
  rw [Coroutine.result_bind, Rendering.evaluating, Polled.result_map]
  cases (f st.context st.history).result <;> rfl

theorem renderNodes_singleton (n : Node) : renderNodes i [n] = n.render i := by
  rw [renderNodes, renderNodes]
  exact bind_pure (n.render i)

theorem renderNodes_output (p : Pipeline) (st : RenderState) :
    (renderNodes i [.output p] st).result =
      match (p.eval i st.context st.history).result with
      | .ok v history => .ok () { st with output := st.output ++ v.output, history }
      | .error e history => .error e { st with history } := by
  rw [renderNodes_singleton, Node.render, Rendering.result_evaluating_bind]
  simp only [Rendering.print, Coroutine.modify, Polled.result, Value.writeOutput_eq]
  cases (p.eval i st.context st.history).result <;> rfl

theorem renderNodes_assign (name : String) (p : Pipeline) (rest : List Node) (st : RenderState) :
    (renderNodes i (.assign name p :: rest) st).result =
      match (p.eval i st.context st.history).result with
      | .ok v history =>
        (renderNodes i rest { st with context := st.context.assign name v, history }).result
      | .error e history => .error e { st with history } := by
  rw [renderNodes, Node.render, bind_assoc, Rendering.result_evaluating_bind]
  cases (p.eval i st.context st.history).result <;> rfl

theorem renderNodes_capture (name : String) (body rest : List Node) (st : RenderState) :
    (renderNodes i (.capture name body :: rest) st).result =
      match (renderNodes i body { st with output := "" }).result with
      | .ok _ st' => (renderNodes i rest
          ⟨st'.context.assign name (.text st'.output), st.output, st'.history⟩).result
      | .error e st' => .error e { st' with output := st.output } := by
  rw [renderNodes, Node.render, bind_assoc, Coroutine.result_bind, Rendering.capturing,
    Polled.result_map]
  cases (renderNodes i body { st with output := "" }).result <;> rfl

/-- A name that is defined has its value at once, and nobody is asked. -/
theorem Expression.eval_variable {ctx : Context} {name : String} {v : Value}
    (h : ctx.find? name = some v) (spelling : String) :
    (Expression.path spelling [.key name]).eval i ctx = pure v := by
  simp only [Expression.eval, Segment.headName, Interpreter.variableValue, h, walk, pure_bind]

theorem Context.find?_assign_of_frames {ctx : Context} {name : String}
    (h : ∀ frame ∈ ctx.inner, Fields.get? frame name = none) (v : Value) :
    (ctx.assign name v).find? name = some v :=
  ctx.find?_assign name v (List.findSome?_eq_none_iff.2 h)

end Stencil
