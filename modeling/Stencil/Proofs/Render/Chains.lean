import Stencil.Proofs.Render.Endings
import Stencil.Proofs.Render.Frames
import Stencil.Proofs.Render.Lookups

/-!
# Cut filter chains

A chain of filters can be cut at any place: a variable takes the value there, and the rest of the chain
goes on from the variable. This needs a name that no open block defines and that the arguments behind
the cut do not look up.
-/

namespace Stencil

section
variable (i : Interpreter) (ctx : Context)

theorem Interpreter.applyAll_append (input : Value) (first later : List Invocation) :
    i.applyAll ctx input (first ++ later) =
      i.applyAll ctx input first >>= fun v => i.applyAll ctx v later := by
  induction first generalizing input with
  | nil => rfl
  | cons f rest ih =>
    simp only [List.cons_append, Interpreter.applyAll, ih, bind_assoc]

theorem Pipeline.eval_append (initial : Expression) (first later : List Invocation) :
    (Pipeline.mk initial (first ++ later)).eval i ctx =
      (Pipeline.mk initial first).eval i ctx >>= fun v => i.applyAll ctx v later := by
  simp only [Pipeline.eval, Interpreter.applyAll_append, bind_assoc]

/-- The names that the arguments of the filters `later` look up if these filters go on from the value of
the pipeline. -/
def Pipeline.lookupsBehind (p : Pipeline) (later : List Invocation) : List String :=
  (p.eval i ctx []).result.listing fun v history => i.filtersLookups ctx v later history

end

section
variable {i : Interpreter} {ctx : Context} {name : String}

/-- A name that is assigned makes a difference to itself only. -/
theorem Context.AgreeOn.assigned (ctx : Context) (name : String) (v : Value) :
    AgreeOn (· ≠ name) ctx (ctx.assign name v) where
  inner := rfl
  source := rfl
  strict := rfl
  below other hn := by rw [below?_assign, if_neg hn]

/-- The rest of a chain, from a variable that has the value there. -/
theorem Pipeline.eval_cut (hframes : ∀ frame ∈ ctx.inner, Fields.get? frame name = none)
    {v : Value} {later : List Invocation} {history : List Event}
    (hunread : name ∉ i.filtersLookups ctx v later history) (spelling : String) :
    (Pipeline.mk (.path spelling [.key name]) later).eval i (ctx.assign name v) history =
      i.applyAll ctx v later history := by
  rw [Pipeline.eval, Expression.eval_variable i (Context.find?_assign_of_frames hframes v), pure_bind]
  have hnames : ∀ other ∈ i.filtersLookups ctx v later history, other ≠ name :=
    fun other hm e => hunread (e ▸ hm)
  exact ((Context.AgreeOn.assigned ctx name v).applyAll_lookups i later v history hnames).symm

end

/-- **A filter chain can be cut anywhere.** Take a name that no frame above the bottom one defines and
that the arguments behind the cut do not look up. Assigning the first part of the chain to the name and
writing the name through the rest gives, in either mode, the same output or error as writing the whole
chain, with the same events. The frames differ at most at the name in the bottom frame. -/
theorem Template.render_cut (i : Interpreter) {ctx : Context} {name : String} {initial : Expression}
    {first later : List Invocation} (spelling : String)
    (hframes : ∀ frame ∈ ctx.inner, Fields.get? frame name = none)
    (hunread : name ∉ (Pipeline.mk initial first).lookupsBehind i ctx later) :
    let whole := Template.render i ⟨none, [.output ⟨initial, first ++ later⟩]⟩ ctx
    let cut := Template.render i
      ⟨none, [.assign name ⟨initial, first⟩, .output ⟨.path spelling [.key name], later⟩]⟩ ctx
    cut.result = whole.result ∧ cut.history = whole.history ∧
      Context.Kept (· = name) whole.context cut.context := by
  have hw : Template.Builtin ⟨none, [.output ⟨initial, first ++ later⟩]⟩ := ⟨trivial, trivial⟩
  have hc : Template.Builtin
      ⟨none, [.assign name ⟨initial, first⟩, .output ⟨.path spelling [.key name], later⟩]⟩ :=
    ⟨trivial, trivial, trivial⟩
  dsimp only
  rw [Template.render_eq_ofEnding hw, Template.render_eq_ofEnding hc, renderNodes_output,
    renderNodes_assign, Pipeline.eval_append, Coroutine.result_bind]
  unfold Pipeline.lookupsBehind at hunread
  cases hf : ((Pipeline.mk initial first).eval i ctx []).result with
  | error e history => exact ⟨rfl, rfl, .refl ctx⟩
  | ok v history =>
    rw [hf] at hunread
    dsimp only
    rw [renderNodes_output, Pipeline.eval_cut hframes hunread spelling]
    have hkept : Context.Kept (· = name) ctx (ctx.assign name v) := .assign (by rfl) ctx v
    cases (i.applyAll ctx v later history).result <;> exact ⟨rfl, rfl, hkept⟩

/-- Filters that wait. Behind the cut an argument looks up the name that a variable of a block holds. -/
theorem Template.render_cut_waiting :
    let glue : Filter := fun input args =>
      .ok (.pending (.after (.ok (.text (input.output ++ (Value.list args.positional).output))) 1))
    let i : Interpreter := ⟨.ofList [("glue", glue)], .async⟩
    let ctx : Context := ⟨[("x", .text "y")], [[("k", .text "x")]], [], none, true⟩
    let initial : Expression := .literal "'a'" (.text "a")
    let first : List Invocation := [⟨"glue", [⟨none, .literal "'b'" (.text "b")⟩]⟩]
    let later : List Invocation :=
      [⟨"glue", [⟨none, .path "[k]" [.computed (.path "k" [.key "k"])]⟩]⟩]
    let whole := Template.render i ⟨none, [.output ⟨initial, first ++ later⟩]⟩ ctx
    let cut := Template.render i
      ⟨none, [.assign "t" ⟨initial, first⟩, .output ⟨.path "t" [.key "t"], later⟩]⟩ ctx
    (∀ frame ∈ ctx.inner, Fields.get? frame "t" = none) ∧
    (Pipeline.mk initial first).lookupsBehind i ctx later = ["k", "x"] ∧
    cut.result = whole.result ∧ cut.history = whole.history ∧ cut.result = .ok "aby" := by
  intro glue i ctx initial first later whole cut
  have hframes : ∀ frame ∈ ctx.inner, Fields.get? frame "t" = none := by decide
  have hlookups : (Pipeline.mk initial first).lookupsBehind i ctx later = ["k", "x"] := by cbv
  have hunread : "t" ∉ (Pipeline.mk initial first).lookupsBehind i ctx later := by
    rw [hlookups]
    decide
  have h := Template.render_cut i "t" hframes hunread
  exact ⟨hframes, hlookups, h.1, h.2.1, by cbv⟩

end Stencil
