import Stencil.Filter.Builtin
import Stencil.Proofs.Markup.Calm
import Stencil.Proofs.Render.Transport

/-!
# Renders that meet nothing deferred

With filters that settle at once, no source of deferred variables and no tag that suspends by itself, a
render ends at its first poll, and the two modes are the same (`Template.render_calm`).
-/

namespace Stencil

variable {ε σ α β : Type}

/-! ## Filters -/

/-- No filter gives a deferred value. -/
def FilterTable.Immediate (t : FilterTable) : Prop :=
  ∀ name f, t.lookup name = some f → ∀ input args r, f input args = .ok r → r.isPending = false

namespace FilterTable

theorem Immediate.register {t : FilterTable} (h : t.Immediate) (name : String)
    (g : Value → Arguments → Except Error Value) : (t.register name (.immediate g)).Immediate := by
  intro other f hl input args r hr
  unfold FilterTable.register at hl
  dsimp only at hl
  split at hl
  · cases hl
    unfold Filter.immediate at hr
    cases hg : g input args with
    | error e =>
      rw [hg] at hr
      cases hr
    | ok v =>
      rw [hg] at hr
      cases hr
      rfl
  · exact h other f hl input args r hr

theorem Immediate.empty : FilterTable.empty.Immediate := fun _ _ h => by cases h

theorem Immediate.builtin : FilterTable.builtin.Immediate := by
  unfold FilterTable.builtin ofList
  simp only [List.foldl]
  repeat refine .register ?_ _ _
  exact .empty

end FilterTable

/-! ## Two runs -/

/-- From a state with `P` both computations end at their first poll, alike and in a state with `P`. -/
def AtOnce (P : σ → Prop) : Coupling ε σ := fun _ m₁ m₂ =>
  ∀ s, P s → ∃ r, m₁ s = .done r ∧ m₂ s = .done r ∧ P r.state

namespace AtOnce

variable {P : σ → Prop}

theorem of_done {m : Coroutine ε σ α} (r : σ → Ending ε σ α) (hm : ∀ s, m s = .done (r s))
    (hP : ∀ s, P s → P (r s).state) : AtOnce P α m m :=
  fun s hs => ⟨r s, hm s, hm s, hP s hs⟩

theorem sequential : Sequential (AtOnce (ε := ε) P) where
  pure a := of_done (.ok a) (fun _ => rfl) fun _ hs => hs
  bind {_ _ m₁ m₂ f₁ f₂} hm hf s hs := by
    obtain ⟨r, h₁, h₂, hr⟩ := hm s hs
    change ∃ r, (m₁ s).bind f₁ = .done r ∧ (m₂ s).bind f₂ = .done r ∧ P r.state
    rw [h₁, h₂]
    cases r with
    | ok a s' => exact hf a s' hr
    | error e s' => exact ⟨.error e s', rfl, rfl, hr⟩

theorem fail (e : ε) : AtOnce P α (.fail e) (.fail e) :=
  of_done (.error e) (fun _ => rfl) fun _ hs => hs

end AtOnce

section
variable {filters : FilterTable} (hf : filters.Immediate)
include hf

theorem call_atOnce {name : String} {f : Filter} (hl : filters.lookup name = some f) (input : Value)
    (args : Arguments) :
    AtOnce (fun _ => True) Value (Interpreter.call ⟨filters, .sync⟩ name f input args)
      (Interpreter.call ⟨filters, .async⟩ name f input args) := by
  intro h _
  unfold Interpreter.call
  cases hr : f input args with
  | error e => exact ⟨_, rfl, rfl, trivial⟩
  | ok r =>
    cases r with
    | settled v => exact ⟨_, rfl, rfl, trivial⟩
    | pending d =>
      have hp := hf name f hl input args _ hr
      cases hp

theorem evaluationAtOnce {c : Context} (hc : c.source = none) :
    EvaluationLaws ⟨filters, .sync⟩ ⟨filters, .async⟩ c c (AtOnce fun _ => True) where
  toSequential := AtOnce.sequential
  fail e := AtOnce.fail e
  variableValue spelling name := by
    intro h _
    unfold Interpreter.variableValue Interpreter.ask
    rw [hc]
    cases c.find? name with
    | some v => exact ⟨_, rfl, rfl, trivial⟩
    | none =>
      cases c.strict with
      | true => exact ⟨_, rfl, rfl, trivial⟩
      | false => exact ⟨_, rfl, rfl, trivial⟩
  known _ := rfl
  call name f₁ f₂ h₁ h₂ input args := by
    cases h₁.symm.trans h₂
    exact call_atOnce hf h₁ input args

end

/-- Both renderings end at their first poll, if their context has no source of deferred variables. -/
abbrev Unwaiting : Coupling Error RenderState := AtOnce (·.context.source = none)

namespace Unwaiting

open Rendering

theorem evaluating {g₁ g₂ : Context → Evaluation α}
    (hg : ∀ c : Context, c.source = none → AtOnce (fun _ => True) α (g₁ c) (g₂ c)) :
    Unwaiting α (evaluating g₁) (evaluating g₂) := by
  intro st hs
  obtain ⟨r, h₁, h₂, -⟩ := hg st.context hs st.history trivial
  simp only [Rendering.evaluating, h₁, h₂, Polled.map]
  refine ⟨_, rfl, rfl, ?_⟩
  rw [Ending.state_map]
  exact hs

theorem inFrame (frame : Fields) {b₁ b₂ : Rendering Unit} (hb : Unwaiting Unit b₁ b₂) :
    Unwaiting Unit (inFrame frame b₁) (inFrame frame b₂) := by
  intro st hs
  obtain ⟨r, h₁, h₂, hr⟩ := hb { st with context := st.context.push frame } hs
  simp only [Rendering.inFrame, h₁, h₂, Polled.map]
  refine ⟨_, rfl, rfl, ?_⟩
  rw [Ending.state_map]
  exact hr

theorem capturing {b₁ b₂ : Rendering Unit} (hb : Unwaiting Unit b₁ b₂) :
    Unwaiting String (capturing b₁) (capturing b₂) := by
  intro st hs
  obtain ⟨r, h₁, h₂, hr⟩ := hb { st with output := "" } hs
  simp only [Rendering.capturing, h₁, h₂, Polled.map]
  refine ⟨_, rfl, rfl, ?_⟩
  rw [Ending.state_map]
  exact hr

/-- Without a source a tag that fetches a variable writes nothing. -/
theorem fetch (i₁ i₂ : Interpreter) (name : String) :
    Unwaiting Unit ((Action.fetch name).perform i₁) ((Action.fetch name).perform i₂) := by
  intro st hs
  refine ⟨.ok () st, ?_, ?_, hs⟩ <;>
    simp only [Action.perform, Rendering.evaluating, Interpreter.ask, bind, hs] <;> rfl

theorem laws {filters : FilterTable} (hf : filters.Immediate) :
    RenderingLawsOn (· ≠ .pauses) ⟨filters, .sync⟩ ⟨filters, .async⟩ Unwaiting where
  toSequential := AtOnce.sequential
  write _ := .of_done _ (fun _ => rfl) fun _ hs => hs
  expression e _ := evaluating fun _ hc => (evaluationAtOnce hf hc).expression e
  pipeline p _ := evaluating fun _ hc => (evaluationAtOnce hf hc).pipeline p
  assign _ _ := .of_done _ (fun _ => rfl) fun _ hs => hs
  inFrame frame _ _ := inFrame frame
  capturing := capturing
  pause h := (h rfl).elim
  fetch {name} _ := fetch _ _ name

end Unwaiting

end Stencil
