import Mathlib
import Stencil.Proofs.Render.Prompt

/-!
# What a render reads

A render of built-in tags depends on its variables only through the names that its paths look up. So
two contexts that give these names the same values render alike, and it does not matter whether an
entry stands in the data or in the globals below.
-/

namespace Stencil

variable {N : String → Prop} {c₁ c₂ : Context}

namespace Context

/-- The value of a name below the frames of blocks: in the bottom frame, else in the globals. -/
def below? (c : Context) (name : String) : Option Value :=
  (Fields.get? c.bottom name).or (Fields.get? c.globals name)

theorem find?_eq (c : Context) (name : String) :
    c.find? name = (c.inner.findSome? (Fields.get? · name)).or (c.below? name) := by
  simp [find?, frames, below?, List.findSome?_append, Option.or_assoc]

theorem below?_assign (c : Context) (name : String) (v : Value) (other : String) :
    (c.assign name v).below? other = if other = name then some v else c.below? other := by
  simp only [below?, assign, Fields.get?_insert]
  split <;> rfl

/-- The contexts differ at most in what they have, below the frames of blocks, at names outside of
`N`. -/
structure AgreeOn (N : String → Prop) (c₁ c₂ : Context) : Prop where
  inner : c₁.inner = c₂.inner
  source : c₁.source = c₂.source
  strict : c₁.strict = c₂.strict
  below : ∀ name, N name → c₁.below? name = c₂.below? name

namespace AgreeOn

theorem find? (h : AgreeOn N c₁ c₂) {name : String} (hn : N name) : c₁.find? name = c₂.find? name := by
  rw [find?_eq, find?_eq, h.inner, h.below name hn]

theorem push (h : AgreeOn N c₁ c₂) (frame : Fields) : AgreeOn N (c₁.push frame) (c₂.push frame) where
  inner := congrArg (frame :: ·) h.inner
  source := h.source
  strict := h.strict
  below := h.below

theorem pop (h : AgreeOn N c₁ c₂) : AgreeOn N c₁.pop c₂.pop where
  inner := congrArg List.tail h.inner
  source := h.source
  strict := h.strict
  below := h.below

theorem assign (h : AgreeOn N c₁ c₂) (name : String) (v : Value) :
    AgreeOn N (c₁.assign name v) (c₂.assign name v) where
  inner := h.inner
  source := h.source
  strict := h.strict
  below other hn := by
    rw [below?_assign, below?_assign, h.below other hn]

theorem variableValue (h : AgreeOn N c₁ c₂) (i : Interpreter) (spelling : String) {name : String}
    (hn : N name) : i.variableValue c₁ spelling name = i.variableValue c₂ spelling name := by
  unfold Interpreter.variableValue Interpreter.ask
  rw [h.find? hn, h.source, h.strict]

end AgreeOn

end Context

/-! ## Evaluation -/

/-- The two computations are the same. -/
abbrev Same {ε σ : Type} : Coupling ε σ := fun _ m₁ m₂ => m₁ = m₂

theorem Same.sequential {ε σ : Type} : Sequential (Same (ε := ε) (σ := σ)) where
  pure _ := rfl
  bind hm hf := congrArg₂ (· >>= ·) hm (funext hf)

/-- All names that the path may look up are in `N`. -/
def LooksUpIn (N : String → Prop) (_ : String) (head : Segment) : Prop :=
  ∀ name, head.Names name → N name

theorem Context.AgreeOn.evaluation (h : AgreeOn N c₁ c₂) (i : Interpreter) :
    EvaluationLawsOn (LooksUpIn N) i i c₁ c₂ Same where
  toSequential := Same.sequential
  fail _ := rfl
  variableValue {spelling _} hN name hn := h.variableValue i spelling (hN name hn)
  known _ := rfl
  call _ _ _ h₁ h₂ _ _ := by
    cases h₁.symm.trans h₂
    rfl

/-! ## Rendering -/

/-- The same output and events, in contexts that agree on `N`. -/
structure RenderState.AgreeOn (N : String → Prop) (s₁ s₂ : RenderState) : Prop where
  context : s₁.context.AgreeOn N s₂.context
  output : s₁.output = s₂.output
  history : s₁.history = s₂.history

/-- Paths look up names in `N` only, and no tag of the host is there. -/
def Access.ReadsIn (N : String → Prop) : Access → Prop
  | .reads spelling head => LooksUpIn N spelling head
  | .binds _ => True
  | .fetches _ | .pauses => False

namespace RenderState.AgreeOn

open Rendering

theorem evaluating {α : Type} {f : Context → Evaluation α}
    (hf : ∀ c₁ c₂ : Context, c₁.AgreeOn N c₂ → f c₁ = f c₂) :
    Simulates (AgreeOn N) α (evaluating f) (evaluating f) := by
  intro s₁ s₂ h
  rw [Rendering.evaluating, Rendering.evaluating, Polled.result_map, Polled.result_map,
    hf _ _ h.context, h.history]
  refine Ending.Alike.map (P := Eq) ⟨rfl, rfl⟩ (fun _ _ _ _ => rfl) ?_
  rintro history _ rfl
  exact ⟨h.context, h.output, rfl⟩

theorem inFrame (frame : Fields) {b₁ b₂ : Rendering Unit} (hb : Simulates (AgreeOn N) Unit b₁ b₂) :
    Simulates (AgreeOn N) Unit (inFrame frame b₁) (inFrame frame b₂) := by
  intro s₁ s₂ h
  have hr := hb { s₁ with context := s₁.context.push frame }
    { s₂ with context := s₂.context.push frame } ⟨h.context.push frame, h.output, h.history⟩
  rw [Rendering.inFrame, Rendering.inFrame, Polled.result_map, Polled.result_map]
  exact hr.map (fun _ _ _ _ => rfl) fun _ _ hs => ⟨hs.context.pop, hs.output, hs.history⟩

theorem capturing {b₁ b₂ : Rendering Unit} (hb : Simulates (AgreeOn N) Unit b₁ b₂) :
    Simulates (AgreeOn N) String (capturing b₁) (capturing b₂) := by
  intro s₁ s₂ h
  have hr := hb { s₁ with output := "" } { s₂ with output := "" } ⟨h.context, rfl, h.history⟩
  rw [Rendering.capturing, Rendering.capturing, Polled.result_map, Polled.result_map]
  exact hr.map (fun _ _ _ hs => hs.output) fun _ _ hs => ⟨hs.context, h.output, hs.history⟩

theorem laws (i : Interpreter) (N : String → Prop) :
    RenderingLawsOn (Access.ReadsIn N) i i (Simulates (AgreeOn N)) where
  toSequential := Simulates.sequential (AgreeOn N)
  write s _ _ h := ⟨rfl, h.context, congrArg (· ++ s) h.output, h.history⟩
  expression e he := evaluating fun _ _ hc => (hc.evaluation i).expression e he
  pipeline p hp := evaluating fun _ _ hc => (hc.evaluation i).pipeline p hp
  assign {name} _ v _ _ h := ⟨rfl, h.context.assign name v, h.output, h.history⟩
  inFrame frame _ _ := inFrame frame
  capturing := capturing
  pause h := h.elim
  fetch h := h.elim

end RenderState.AgreeOn

theorem Template.accesses_readsIn {t : Template} (ht : t.Builtin) :
    ∀ a ∈ t.accesses, a.ReadsIn t.Reads := by
  intro a ha
  have hplain : a.Plain fun _ => True :=
    plain_nodesAccesses t.nodes ht (fun _ _ => trivial) a ha
  cases a with
  | reads spelling head => exact fun name hn => ⟨spelling, head, ha, hn⟩
  | binds name => trivial
  | fetches name => exact hplain
  | pauses => exact hplain

theorem Template.render_agreeOn {t : Template} (ht : t.Builtin) (i : Interpreter)
    (h : c₁.AgreeOn t.Reads c₂) :
    (t.render i c₁).result = (t.render i c₂).result ∧
      (t.render i c₁).history = (t.render i c₂).history := by
  obtain ⟨ho, hs⟩ := (RenderState.AgreeOn.laws i t.Reads).nodes t.nodes (t.accesses_readsIn ht)
    ⟨c₁, "", []⟩ ⟨c₂, "", []⟩ ⟨h, rfl, rfl⟩
  rw [t.render_eq_ofEnding ht, t.render_eq_ofEnding ht]
  simp only [Rendered.ofEnding, ho, hs.output, hs.history]
  trivial

/-- **What a render depends on.** Take two contexts of render data over globals, with the same source
and strictness, in which every name that a path of the template may look up has the same value. Renders
in them give the same result, with the same events, in either mode. So entries may be moved between the
data and the globals below: it makes no difference whether they end the data or begin the globals. -/
theorem Template.render_reads {t : Template} (ht : t.Builtin) (i : Interpreter)
    (source : Option VariableSource) (strict : Bool) :
    (∀ data₁ globals₁ data₂ globals₂ : Fields,
      let c₁ : Context := ⟨data₁, [], globals₁, source, strict⟩
      let c₂ : Context := ⟨data₂, [], globals₂, source, strict⟩
      (∀ name, t.Reads name → c₁.find? name = c₂.find? name) →
        (t.render i c₁).result = (t.render i c₂).result ∧
        (t.render i c₁).history = (t.render i c₂).history) ∧
    ∀ data moved globals data' globals' : Fields,
      (∀ name, Fields.get? data' name = (Fields.get? data name).or (Fields.get? moved name)) →
      (∀ name, Fields.get? globals' name = (Fields.get? moved name).or (Fields.get? globals name)) →
      let c₁ : Context := ⟨data', [], globals, source, strict⟩
      let c₂ : Context := ⟨data, [], globals', source, strict⟩
      (t.render i c₁).result = (t.render i c₂).result ∧
        (t.render i c₁).history = (t.render i c₂).history := by
  constructor
  · intro data₁ globals₁ data₂ globals₂ c₁ c₂ h
    refine t.render_agreeOn ht i ⟨rfl, rfl, rfl, fun name hn => ?_⟩
    have hname := h name hn
    rwa [Context.find?_eq, Context.find?_eq] at hname
  · intro data moved globals data' globals' hdata hglobals c₁ c₂
    refine t.render_agreeOn ht i ⟨rfl, rfl, rfl, fun name _ => ?_⟩
    simp only [Context.below?, c₁, c₂, hdata, hglobals, Option.or_assoc]

/-- A loop over a list in the data or in the globals; what the template does not read is different. -/
theorem Template.render_reads_loop :
    let name : Pipeline := ⟨.path "x.name" [.key "x", .key "name"], []⟩
    let t : Template := ⟨none, [.loop ⟨"x", .path "xs" [.key "xs"], false⟩
      [.assign "y" ⟨.literal "'-'" (.text "-"), []⟩, .output name] [],
      .output ⟨.path "y" [.key "y"], []⟩]⟩
    let xs : Value := .list [.object [("name", .text "ana")], .null]
    let c₁ : Context := ⟨[("other", .null), ("xs", xs)], [], [("xs", .null)], none, true⟩
    let c₂ : Context := ⟨[], [], [("other", .bool true), ("xs", xs)], none, true⟩
    t.Builtin ∧ (∀ name, t.Reads name → c₁.find? name = c₂.find? name) ∧
    (t.render ⟨.empty, .sync⟩ c₁).result = (t.render ⟨.empty, .sync⟩ c₂).result ∧
    (t.render ⟨.empty, .sync⟩ c₂).result = .ok "ana-" := by
  intro name t xs c₁ c₂
  have ht : t.Builtin := ⟨⟨⟨trivial, trivial, trivial⟩, trivial⟩, trivial, trivial⟩
  have h : ∀ name, t.Reads name → c₁.find? name = c₂.find? name := by
    rintro name ⟨spelling, head, hmem, hn⟩
    have ha : t.accesses = [.reads "xs" (.key "xs"), .binds "y", .reads "x.name" (.key "x"),
      .reads "y" (.key "y")] := rfl
    rw [ha] at hmem
    simp only [List.mem_cons, Access.reads.injEq, reduceCtorEq, List.not_mem_nil, false_or,
      or_false] at hmem
    rcases hmem with ⟨rfl, rfl⟩ | ⟨rfl, rfl⟩ | ⟨rfl, rfl⟩ <;> obtain rfl := hn <;> rfl
  exact ⟨ht, h, ((Template.render_reads ht ⟨.empty, .sync⟩ none true).1 _ _ _ _ h).1, by cbv⟩

end Stencil
