import Stencil.Proofs.Markup.Derivations
import Stencil.Proofs.Render.Prompt

/-!
# Rendering what is joined

A render does not depend on what was written before it, nor on the events before it. So the nodes of
two templates, one behind another, render as the first and then, in the context that it leaves, the
second.
-/

namespace Stencil

/-- The state behind an output and a history. -/
def RenderState.behind (o : String) (history : List Event) (st : RenderState) : RenderState :=
  ⟨st.context, o ++ st.output, st.history ++ history⟩

/-- What happened before an evaluation only stands behind its history. -/
abbrev Later (history : List Event) : Coupling Error (List Event) :=
  Simulates fun s s' => s' = s ++ history

/-- What was written and what happened before a rendering only stands in front of its output and behind
its history. -/
def Prefixed (history : List Event) : Coupling Error RenderState := fun α m₁ m₂ =>
  ∀ o, Simulates (fun st st' => st' = st.behind o history) α m₁ m₂

variable (history : List Event) {α : Type}

theorem Prefixed.sequential : Sequential (Prefixed history) where
  pure a _ := (Simulates.sequential _).pure a
  bind hm hf o := (Simulates.sequential _).bind (hm o) fun a => hf a o

/-! ## Evaluation -/

section
variable (i : Interpreter) (c : Context)

theorem later : Sequential (Later history) := Simulates.sequential _

theorem record_later (e : Event) :
    Later history Unit (Interpreter.record e) (Interpreter.record e) := by
  rintro s _ rfl
  exact ⟨rfl, rfl⟩

theorem fail_later (e : Error) : Later history α (.fail e) (.fail e) := by
  rintro s _ rfl
  exact ⟨rfl, rfl⟩

theorem lift_later (r : Except Error α) : Later history α (.lift r) (.lift r) := by
  cases r with
  | ok a => exact (later history).pure a
  | error e => exact fail_later history e

theorem settle_later (r : Resolution) (point : SuspensionPoint) :
    Later history Value (i.settle r point) (i.settle r point) := by
  cases r with
  | settled v => exact (later history).pure v
  | pending d =>
    unfold Interpreter.settle
    cases i.mode with
    | sync => exact fail_later history _
    | async =>
      refine (later history).bind (record_later history _) fun _ s s' hs => ?_
      rw [Deferred.result_await, Deferred.result_await]
      exact lift_later history d.outcome s s' hs

theorem variableValue_later (spelling name : String) :
    Later history Value (i.variableValue c spelling name) (i.variableValue c spelling name) := by
  unfold Interpreter.variableValue Interpreter.ask
  cases c.find? name with
  | some v => exact (later history).pure v
  | none =>
    refine (later history).bind ?_ fun r => ?_
    · cases c.source with
      | none => exact (later history).pure none
      | some source =>
        exact (later history).bind (record_later history _) fun _ => (later history).pure _
    · cases r with
      | some r => exact settle_later history i r _
      | none =>
        cases c.strict with
        | true => exact fail_later history _
        | false => exact (later history).pure _

theorem call_later (name : String) (f : Filter) (input : Value) (args : Arguments) :
    Later history Value (i.call name f input args) (i.call name f input args) :=
  (later history).bind (record_later history _) fun _ =>
    (later history).bind (lift_later history _) fun r => settle_later history i r _

theorem laterEvaluation : EvaluationLaws i i c c (Later history) where
  toSequential := later history
  fail e := fail_later history e
  variableValue := variableValue_later history i c
  known _ := rfl
  call name f₁ f₂ h₁ h₂ input args := by
    cases h₁.symm.trans h₂
    exact call_later history i name f₁ input args

end

/-! ## Rendering -/

namespace Prefixed

theorem evaluating {f : Context → Evaluation α} (hf : ∀ c, Later history α (f c) (f c)) :
    Prefixed history α (Rendering.evaluating f) (Rendering.evaluating f) := by
  rintro o st _ rfl
  rw [Rendering.evaluating, Rendering.evaluating, Polled.result_map, Polled.result_map]
  refine (hf st.context st.history _ rfl).map (fun _ _ _ _ => rfl) fun _ _ hs => ?_
  exact congrArg (RenderState.mk st.context (o ++ st.output)) hs

theorem inFrame (frame : Fields) {b₁ b₂ : Rendering Unit} (hb : Prefixed history Unit b₁ b₂) :
    Prefixed history Unit (Rendering.inFrame frame b₁) (Rendering.inFrame frame b₂) := by
  rintro o st _ rfl
  rw [Rendering.inFrame, Rendering.inFrame, Polled.result_map, Polled.result_map]
  refine (hb o { st with context := st.context.push frame } _ rfl).map (fun _ _ _ _ => rfl)
    fun _ _ hs => ?_
  exact congrArg (fun st : RenderState => { st with context := st.context.pop }) hs

/-- The captured output starts empty whatever was written before. -/
theorem capturing {b₁ b₂ : Rendering Unit} (hb : Prefixed history Unit b₁ b₂) :
    Prefixed history String (Rendering.capturing b₁) (Rendering.capturing b₂) := by
  rintro o st _ rfl
  have hr := hb "" { st with output := "" } { st.behind o history with output := "" }
    (by simp [RenderState.behind])
  rw [Rendering.capturing, Rendering.capturing, Polled.result_map, Polled.result_map]
  refine hr.map (fun _ s₁ s₂ hs => ?_) fun s₁ s₂ hs => ?_
  · subst hs
    exact String.empty_append.symm
  · subst hs
    rfl

theorem laws (i : Interpreter) : RenderingLaws i i (fun _ => True) (Prefixed history) where
  toSequential := Prefixed.sequential history
  write s := by
    rintro o st _ rfl
    exact ⟨rfl, congrArg (RenderState.mk st.context · _) (String.append_assoc ..)⟩
  expression e := .evaluating history fun c => (laterEvaluation history i c).expression e
  pipeline p := .evaluating history fun c => (laterEvaluation history i c).pipeline p
  assign _ _ := by
    rintro o st _ rfl
    exact ⟨rfl, rfl⟩
  inFrame frame _ _ := .inFrame history frame
  capturing := .capturing history

end Prefixed

/-! ## Nodes one behind another -/

open Markup (Joins)

section
variable (i : Interpreter)

theorem renderNodes_append (a b : List Node) (st : RenderState) :
    (renderNodes i (a ++ b) st).result =
      match (renderNodes i a st).result with
      | .ok _ st' => (renderNodes i b st').result
      | .error e st' => .error e st' := by
  induction a generalizing st with
  | nil =>
    rw [renderNodes]
    rfl
  | cons n a ih =>
    rw [List.cons_append, renderNodes, renderNodes, Coroutine.result_bind, Coroutine.result_bind]
    cases (n.render i st).result with
    | ok _ st' => exact ih st'
    | error e st' => rfl

theorem renderNodes_text (s : String) (rest : List Node) (st : RenderState) :
    renderNodes i (.text s :: rest) st = renderNodes i rest { st with output := st.output ++ s } := by
  rw [renderNodes, Node.render]
  rfl

/-- Where two texts became one, the same is written. -/
theorem renderNodes_joins {a b c : List Node} (h : Joins .text a b c) (st : RenderState) :
    (renderNodes i c st).result = (renderNodes i (a ++ b) st).result := by
  cases h with
  | apart => rfl
  | texts a b s t =>
    rw [List.append_assoc, renderNodes_append, renderNodes_append]
    simp only [List.singleton_append, renderNodes_text, String.append_assoc]

end

theorem nodesBuiltin_joins {a b c : List Node} (h : Joins .text a b c) (ha : NodesBuiltin a)
    (hb : NodesBuiltin b) : NodesBuiltin c := by
  cases h with
  | apart => exact Markup.nodesBuiltin_append.2 ⟨ha, hb⟩
  | texts =>
    exact Markup.nodesBuiltin_append.2 ⟨(Markup.nodesBuiltin_append.1 ha).1, trivial, hb.2⟩

/-- One render and then another in the context that it leaves, unless the first fails. -/
def Rendered.andThen (first : Rendered) (second : Context → Rendered) : Rendered :=
  match first.result with
  | .error _ => first
  | .ok s =>
    ⟨(second first.context).result.map (s ++ ·), (second first.context).context,
      first.history ++ (second first.context).history⟩

theorem Template.render_joins {a b : Template} {nodes : List Node} (ha : a.Builtin) (hb : b.Builtin)
    (h : Joins .text a.nodes b.nodes nodes) (i : Interpreter) (ctx : Context) :
    Template.render i ⟨none, nodes⟩ ctx = (a.render i ctx).andThen (b.render i) := by
  have hc : Template.Builtin ⟨none, nodes⟩ := nodesBuiltin_joins h ha hb
  rw [Template.render_eq_ofEnding hc, renderNodes_joins i h, renderNodes_append,
    Template.render_eq_ofEnding ha]
  cases hr : (renderNodes i a.nodes ⟨ctx, "", []⟩).result with
  | error e st => rfl
  | ok _ st =>
    obtain ⟨ho, hs⟩ := (Prefixed.laws st.history i).nodes b.nodes hb (fun _ _ => trivial) st.output
      ⟨st.context, "", []⟩ st (by simp [RenderState.behind])
    simp only [Rendered.andThen, Rendered.ofEnding, Ending.outcome, Except.map, Ending.state]
    rw [Template.render_eq_ofEnding hb]
    generalize (renderNodes i b.nodes ⟨st.context, "", []⟩).result = r₁ at ho hs ⊢
    generalize (renderNodes i b.nodes st).result = r₂ at ho hs ⊢
    cases r₁ <;> cases r₂ <;> cases ho <;> cases hs <;>
      simp [Rendered.ofEnding, Ending.outcome, Ending.state, Except.map]

/-- **Rendering is compositional in the source.** If two sources are templates of built-in tags, the
first does not end in a brace, and no marker next to the seam trims across it, then both in one are a
template. It renders as the first and then, in the context that it leaves, the second. -/
theorem Template.render_append {a b : String} {ta tb : Template}
    (ha : Template.parse .builtin a = .ok ta) (hb : Template.parse .builtin b = .ok tb)
    (hl : a.toList.getLast? ≠ some '{')
    (hlast : ∀ m ∈ (Markup.markers a.toList).getLast?, m.2 = false)
    (hfirst : ∀ m ∈ (Markup.markers b.toList).head?, m.1 = false) :
    ∃ t, Template.parse .builtin (a ++ b) = .ok t ∧
      ∀ i ctx, t.render i ctx = (ta.render i ctx).andThen (tb.render i) := by
  obtain ⟨nodes, hp, hj⟩ := Template.parse_append ha hb hl hlast hfirst
  exact ⟨_, hp, Template.render_joins (builtin_of_parse ha) (builtin_of_parse hb) hj⟩

set_option maxRecDepth 2000 in
/-- The second source uses what the first assigns; the texts at the seam are one text of the whole. -/
theorem Template.render_append_assigned :
    let a := "\x7b% assign x = 'y' -%\x7d \x7b\x7b x \x7d\x7d a"
    let b := "b \x7b\x7b x -\x7d\x7d"
    let value : Pipeline := ⟨.path "x" [.key "x"], []⟩
    let ta : Template :=
      ⟨none, [.assign "x" ⟨.literal "'y'" (.text "y"), []⟩, .output value, .text " a"]⟩
    let tb : Template := ⟨none, [.text "b ", .output value]⟩
    Template.parse .builtin a = .ok ta ∧ Template.parse .builtin b = .ok tb ∧
    Markup.markers a.toList = [(false, true), (false, false)] ∧
    Markup.markers b.toList = [(false, true)] ∧
    ∃ t, Template.parse .builtin (a ++ b) = .ok t ∧
      (∀ i ctx, t.render i ctx = (ta.render i ctx).andThen (tb.render i)) ∧
      (t.render ⟨.empty, .sync⟩ ⟨[], [], [], none, true⟩).result = .ok "y ab y" := by
  intro a b value ta tb
  have ha : Template.parse .builtin a = .ok ta := by cbv
  have hb : Template.parse .builtin b = .ok tb := by cbv
  have ma : Markup.markers a.toList = [(false, true), (false, false)] := by cbv
  have mb : Markup.markers b.toList = [(false, true)] := by cbv
  obtain ⟨t, ht, hr⟩ := Template.render_append ha hb (by decide) (by simp [ma]) (by simp [mb])
  refine ⟨ha, hb, ma, mb, t, ht, hr, ?_⟩
  rw [hr]
  cbv

end Stencil
