import Mathlib
import Stencil.Proofs.Render.Prompt

/-!
# Waiting changes nothing but the time

The settled twins of a filter table and of a context give at once what the originals give in the end.
A render that awaits deferred values has the result and the frames of a render with the twins, in
either mode, so that the numbers of polls do not matter.
-/

namespace Stencil

/-- What a step comes to, deferred or not. -/
def Resolution.outcome : Resolution → Except Error Value
  | .settled v => .ok v
  | .pending d => d.outcome

/-- The filter that gives at once what `f` gives in the end; a failure is one at once. -/
def Filter.settled (f : Filter) : Filter := .immediate fun input args => do (← f input args).outcome

def FilterTable.settled (t : FilterTable) : FilterTable := ⟨fun name => (t.lookup name).map (·.settled)⟩

/-- A value at once where the source has a value later. -/
def VariableSource.settled (source : VariableSource) : VariableSource := fun name =>
  (source name).map fun r =>
    match r.outcome with
    | .ok v => .settled v
    | .error _ => r

namespace Context

def settled (c : Context) : Context := { c with source := c.source.map VariableSource.settled }

/-- Every deferred variable arrives as a value. -/
def SourceArrives (c : Context) : Prop :=
  ∀ source ∈ c.source, ∀ name r, source name = some r → ∃ v, r.outcome = .ok v

@[simp] theorem find?_settled (c : Context) (name : String) : c.settled.find? name = c.find? name :=
  rfl

@[simp] theorem strict_settled (c : Context) : c.settled.strict = c.strict := rfl

@[simp] theorem source_settled (c : Context) :
    c.settled.source = c.source.map VariableSource.settled := rfl

end Context

theorem VariableSource.settled_apply {source : VariableSource} {name : String} {r : Resolution}
    {v : Value} (h : source name = some r) (hv : r.outcome = .ok v) :
    settled source name = some (.settled v) := by
  simp [settled, h, hv]

/-- The two contexts give the same values in the end. -/
theorem Context.SourceArrives.congr {c c' : Context} (h : c.SourceArrives)
    (e : c'.settled = c.settled) : c'.SourceArrives := by
  intro source' hs' name r' hr'
  have hsrc : c'.source.map VariableSource.settled = c.source.map VariableSource.settled :=
    congrArg Context.source e
  rw [Option.mem_def.1 hs', Option.map_some] at hsrc
  obtain ⟨source, hs, hsettled⟩ := Option.map_eq_some_iff.1 hsrc.symm
  have hname := congrFun hsettled name
  cases hv : r'.outcome with
  | ok v => exact ⟨v, rfl⟩
  | error err =>
    -- a value of `c` that is there cannot be a deferred failure of `c'`
    cases hr : source name with
    | none => simp [VariableSource.settled, hr, hr'] at hname
    | some r =>
      obtain ⟨v, hrv⟩ := h source hs name r hr
      rw [VariableSource.settled_apply hr hrv] at hname
      simp only [VariableSource.settled, hr', Option.map_some, hv, Option.some.injEq] at hname
      rw [← hname] at hv
      cases hv

/-! ## Evaluation -/

/-- The two computations have the same outcome, whatever happened before. -/
abbrev SameOutcome : Coupling Error (List Event) := Simulates fun _ _ => True

section
variable (filters : FilterTable) (mode : Mode)

theorem settle_sameOutcome (r : Resolution) (point : SuspensionPoint) :
    SameOutcome Value (Interpreter.settle ⟨filters, .async⟩ r point) (.lift r.outcome) := by
  intro _ _ _
  refine ⟨?_, trivial⟩
  cases r with
  | settled v => rfl
  | pending d =>
    simp only [Interpreter.settle, Interpreter.record, Coroutine.result_bind, Coroutine.modify,
      Polled.result, Deferred.result_await, Resolution.outcome]
    cases d.outcome <;> rfl

theorem variableValue_sameOutcome {c : Context} (hc : c.SourceArrives) (spelling name : String) :
    SameOutcome Value (Interpreter.variableValue ⟨filters, .async⟩ c spelling name)
      (Interpreter.variableValue ⟨filters.settled, mode⟩ c.settled spelling name) := by
  unfold Interpreter.variableValue Interpreter.ask
  rw [Context.find?_settled, Context.strict_settled, Context.source_settled]
  intro _ _ _
  cases c.find? name with
  | some v => exact ⟨rfl, trivial⟩
  | none =>
    cases hs : c.source with
    | none => cases c.strict <;> exact ⟨rfl, trivial⟩
    | some source =>
      cases hr : source name with
      | none =>
        simp only [Option.map_some, VariableSource.settled, hr]
        cases c.strict <;> exact ⟨rfl, trivial⟩
      | some r =>
        obtain ⟨v, hv⟩ := hc source hs name r hr
        have h := settle_sameOutcome filters r (.variable name)
        rw [hv] at h
        simp only [Option.map_some, hr, VariableSource.settled_apply hr hv]
        exact h _ _ trivial

theorem call_sameOutcome (name : String) (f : Filter) (input : Value) (args : Arguments) :
    SameOutcome Value (Interpreter.call ⟨filters, .async⟩ name f input args)
      (Interpreter.call ⟨filters.settled, mode⟩ name f.settled input args) := by
  have hs : f.settled input args = (f input args >>= Resolution.outcome).map .settled := rfl
  unfold Interpreter.call
  rw [hs]
  intro _ _ _
  cases f input args with
  | error e => exact ⟨rfl, trivial⟩
  | ok r =>
    have hr : (Except.ok r >>= Resolution.outcome) = r.outcome := rfl
    rw [hr]
    refine ⟨(settle_sameOutcome filters r (.filter name) _ [] trivial).1.trans ?_, trivial⟩
    cases r.outcome <;> rfl

theorem settledEvaluation {c : Context} (hc : c.SourceArrives) :
    EvaluationLaws ⟨filters, .async⟩ ⟨filters.settled, mode⟩ c c.settled SameOutcome where
  toSequential := Simulates.sequential _
  fail _ _ _ _ := ⟨rfl, trivial⟩
  variableValue := variableValue_sameOutcome filters mode hc
  known _ := by simp [FilterTable.settled]
  call name f₁ f₂ h₁ h₂ input args := by
    obtain ⟨f, hf, rfl⟩ := Option.map_eq_some_iff.1 h₂
    cases h₁.symm.trans hf
    exact call_sameOutcome filters mode name f₁ input args

end

/-! ## Rendering -/

/-- The second state is that of a run with settled values. -/
structure RenderState.Twin (s₁ s₂ : RenderState) : Prop where
  context : s₂.context = s₁.context.settled
  output : s₂.output = s₁.output
  arrives : s₁.context.SourceArrives

namespace RenderState.Twin

open Rendering

variable {s₁ s₂ : RenderState}

theorem withContext (h : Twin s₁ s₂) (g : Context → Context)
    (hg : ∀ c : Context, (g c).settled = g c.settled) (hsrc : ∀ c, (g c).source = c.source) :
    Twin { s₁ with context := g s₁.context } { s₂ with context := g s₂.context } where
  context := by rw [h.context, hg]
  output := h.output
  arrives := by
    unfold Context.SourceArrives
    rw [hsrc]
    exact h.arrives

theorem evaluating {α : Type} {f₁ f₂ : Context → Evaluation α}
    (hf : ∀ c, c.SourceArrives → SameOutcome α (f₁ c) (f₂ c.settled)) :
    Simulates Twin α (evaluating f₁) (evaluating f₂) := by
  intro s₁ s₂ h
  have hr := hf s₁.context h.arrives s₁.history s₂.history trivial
  rw [← h.context] at hr
  rw [Rendering.evaluating, Rendering.evaluating, Polled.result_map, Polled.result_map]
  exact hr.map (fun _ _ _ _ => rfl) fun _ _ _ => ⟨h.context, h.output, h.arrives⟩

theorem inFrame (frame : Fields) {b₁ b₂ : Rendering Unit} (hb : Simulates Twin Unit b₁ b₂) :
    Simulates Twin Unit (inFrame frame b₁) (inFrame frame b₂) := by
  intro s₁ s₂ h
  have hr := hb _ _ (h.withContext (·.push frame) (fun _ => rfl) fun _ => rfl)
  rw [Rendering.inFrame, Rendering.inFrame, Polled.result_map, Polled.result_map]
  exact hr.map (fun _ _ _ _ => rfl)
    fun _ _ hs => hs.withContext Context.pop (fun _ => rfl) fun _ => rfl

theorem capturing {b₁ b₂ : Rendering Unit} (hb : Simulates Twin Unit b₁ b₂) :
    Simulates Twin String (capturing b₁) (capturing b₂) := by
  intro s₁ s₂ h
  have hr := hb { s₁ with output := "" } { s₂ with output := "" } ⟨h.context, rfl, h.arrives⟩
  rw [Rendering.capturing, Rendering.capturing, Polled.result_map, Polled.result_map]
  exact hr.map (fun _ _ _ hs => hs.output.symm) fun _ _ hs => ⟨hs.context, h.output, hs.arrives⟩

theorem laws (filters : FilterTable) (mode : Mode) :
    RenderingLaws ⟨filters, .async⟩ ⟨filters.settled, mode⟩ (fun _ => True) (Simulates Twin) where
  toSequential := Simulates.sequential Twin
  write s _ _ h := ⟨rfl, h.context, congrArg (· ++ s) h.output, h.arrives⟩
  expression e := evaluating fun _ hc => (settledEvaluation filters mode hc).expression e
  pipeline p := evaluating fun _ hc => (settledEvaluation filters mode hc).pipeline p
  assign {name} _ v _ _ h := ⟨rfl, h.withContext (·.assign name v) (fun _ => rfl) fun _ => rfl⟩
  inFrame frame _ _ := inFrame frame
  capturing := capturing

end RenderState.Twin

/-- The async render and one with settled values in either mode: the same result, twin contexts. -/
theorem Template.render_twin {t : Template} (ht : t.Builtin) (filters : FilterTable) {ctx : Context}
    (hc : ctx.SourceArrives) (mode : Mode) :
    (t.render ⟨filters, .async⟩ ctx).result = (t.render ⟨filters.settled, mode⟩ ctx.settled).result ∧
    (t.render ⟨filters.settled, mode⟩ ctx.settled).context =
      (t.render ⟨filters, .async⟩ ctx).context.settled := by
  obtain ⟨ho, hs⟩ := (RenderState.Twin.laws filters mode).nodes t.nodes ht (fun _ _ => trivial)
    { context := ctx, output := "", history := [] }
    { context := ctx.settled, output := "", history := [] } ⟨rfl, rfl, hc⟩
  rw [t.render_eq_ofEnding ht, t.render_eq_ofEnding ht]
  simp only [Rendered.ofEnding, ho, hs.output]
  exact ⟨trivial, hs.context⟩

/-- **Awaiting gives the outcomes.** An asynchronous render has the result and leaves the frames that
a render in either mode gives with every deferred value replaced by its outcome. So filters and
sources that come to the same values make no difference, however many polls theirs take. -/
theorem Template.render_async_eq_settled {t : Template} (ht : t.Builtin) (filters : FilterTable)
    {ctx : Context} (hc : ctx.SourceArrives) (mode : Mode) :
    let awaiting := t.render ⟨filters, .async⟩ ctx
    let direct := t.render ⟨filters.settled, mode⟩ ctx.settled
    awaiting.result = direct.result ∧ awaiting.context.frames = direct.context.frames ∧
    ∀ (filters' : FilterTable) (ctx' : Context), filters'.settled = filters.settled →
      ctx'.settled = ctx.settled →
      let other := t.render ⟨filters', .async⟩ ctx'
      other.result = awaiting.result ∧ other.context.frames = awaiting.context.frames := by
  have key : ∀ (fs : FilterTable) {c : Context}, c.SourceArrives →
      (t.render ⟨fs, .async⟩ c).result = (t.render ⟨fs.settled, mode⟩ c.settled).result ∧
      (t.render ⟨fs, .async⟩ c).context.frames =
        (t.render ⟨fs.settled, mode⟩ c.settled).context.frames := by
    intro fs c h
    obtain ⟨hr, hctx⟩ := t.render_twin ht fs h mode
    exact ⟨hr, by rw [hctx]; rfl⟩
  refine ⟨(key filters hc).1, (key filters hc).2, fun filters' ctx' ef ec => ?_⟩
  have hother := key filters' (hc.congr ec)
  rw [ef, ec] at hother
  exact ⟨hother.1.trans (key filters hc).1.symm, hother.2.trans (key filters hc).2.symm⟩

/-- A deferred variable and a deferred filter inside a loop. -/
theorem Template.render_async_eq_settled_loop :
    let later : Filter := fun input _ => .ok (.pending (.after (.ok input) 3))
    let filters : FilterTable := .register .empty "later" later
    let t : Template := ⟨none, [.loop ⟨"x", .path "xs" [.key "xs"], false⟩
      [.output ⟨.path "x" [.key "x"], [⟨"later", []⟩]⟩, .output ⟨.path "user" [.key "user"], []⟩] []]⟩
    let source : VariableSource := fun name =>
      if name = "user" then some (.pending (.after (.ok (.text "ana")) 2)) else none
    let ctx : Context := ⟨[("xs", .list [.text "a", .text "b"])], [], [], some source, false⟩
    t.Builtin ∧ ctx.SourceArrives ∧
    (t.render ⟨filters, .async⟩ ctx).result = (t.render ⟨filters.settled, .sync⟩ ctx.settled).result ∧
    (t.render ⟨filters.settled, .sync⟩ ctx.settled).result = .ok "aanabana" := by
  intro later filters t source ctx
  have ht : t.Builtin := ⟨⟨⟨trivial, trivial, trivial⟩, trivial⟩, trivial⟩
  have hc : ctx.SourceArrives := by
    intro s hs name r hr
    cases hs
    simp only [source] at hr
    split at hr
    · cases hr
      exact ⟨.text "ana", rfl⟩
    · cases hr
  exact ⟨ht, hc, (Template.render_async_eq_settled ht filters hc .sync).1, by cbv⟩

end Stencil
