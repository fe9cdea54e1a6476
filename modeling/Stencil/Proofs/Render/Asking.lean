import Mathlib
import Stencil.Proofs.Render.Frames
import Stencil.Proofs.Render.Reading

/-!
# What the source is asked for

No step of a built-in tag takes a name out of the frames that were there at the start, or out of the
globals. So the source of deferred variables is asked only for names that the context of a render does
not define, and what it would answer for others makes no difference.
-/

namespace Stencil

variable {α : Type} {T : String → Prop}

/-! ## Names that stay defined -/

namespace Context

theorem find?_eq_none_iff (c : Context) (name : String) :
    c.find? name = none ↔ c.inner.findSome? (Fields.get? · name) = none ∧
      Fields.get? c.bottom name = none ∧ Fields.get? c.globals name = none := by
  rw [find?_eq, below?, Option.or_eq_none_iff, Option.or_eq_none_iff]

theorem find?_of_push {c : Context} {frame : Fields} {name : String}
    (h : (c.push frame).find? name = none) : c.find? name = none := by
  rw [find?_eq_none_iff] at h ⊢
  have hframes : ∀ fields ∈ frame :: c.inner, Fields.get? fields name = none :=
    List.findSome?_eq_none_iff.1 h.1
  exact ⟨List.findSome?_eq_none_iff.2 (List.forall_mem_cons.1 hframes).2, h.2⟩

/-- What is undefined after a render was undefined before it. -/
theorem Kept.find?_eq_none {c c' : Context} (h : Kept T c c') {name : String}
    (hn : c'.find? name = none) : c.find? name = none := by
  rw [find?_eq_none_iff, h.inner, h.globals] at hn
  rw [find?_eq_none_iff]
  refine ⟨hn.1, ?_, hn.2.2⟩
  by_contra hc
  have hkept := h.names name (Option.isSome_iff_ne_none.2 hc)
  simp [hn.2.1] at hkept

end Context

/-! ## Questions -/

/-- From the history `h` to `h'` the source was asked only for names that `c` does not define. -/
def AsksUnknown (c : Context) (h h' : List Event) : Prop :=
  ∃ new, h' = new ++ h ∧ ∀ name, .lookup name ∈ new → c.find? name = none

namespace AsksUnknown

theorem refl (c : Context) (h : List Event) : AsksUnknown c h h := ⟨[], rfl, by simp⟩

theorem step {c : Context} {e : Event} (he : ∀ name, e = .lookup name → c.find? name = none)
    (h : List Event) : AsksUnknown c h (e :: h) :=
  ⟨[e], rfl, fun name hm => he name (List.mem_singleton.1 hm).symm⟩

/-- One run after another, in a context that defines at least as much. -/
theorem trans {c c' : Context} {h h' h'' : List Event} (a : AsksUnknown c h h')
    (a' : AsksUnknown c' h' h'') (hc : ∀ name, c'.find? name = none → c.find? name = none) :
    AsksUnknown c h h'' := by
  obtain ⟨new, rfl, hn⟩ := a
  obtain ⟨new', rfl, hn'⟩ := a'
  refine ⟨new' ++ new, by simp, fun name hm => ?_⟩
  rcases List.mem_append.1 hm with hm | hm
  · exact hc name (hn' name hm)
  · exact hn name hm

end AsksUnknown

/-- However it ends, the evaluation asks only for names that `c` does not define. -/
def Asking (c : Context) : Coupling Error (List Event) := fun _ m _ =>
  ∀ h, AsksUnknown c h (m h).result.state

theorem Asking.sequential (c : Context) : Sequential (Asking c) where
  pure _ h := .refl c h
  bind hm hf := Coroutine.Leads.bind (fun a a' => a.trans a' fun _ hn => hn) hm hf

section
variable (i : Interpreter) (c : Context)

theorem settle_asking (r : Resolution) (point : SuspensionPoint) :
    Asking c Value (i.settle r point) (i.settle r point) := by
  intro h
  cases r with
  | settled v => exact .refl c h
  | pending d =>
    unfold Interpreter.settle
    cases i.mode with
    | sync => exact .refl c h
    | async =>
      simp only [Interpreter.record, Coroutine.result_bind, Coroutine.modify, Polled.result,
        Deferred.result_await]
      cases d.outcome <;> exact .step (by simp) h

theorem variableValue_asking (spelling name : String) :
    Asking c Value (i.variableValue c spelling name) (i.variableValue c spelling name) := by
  unfold Interpreter.variableValue Interpreter.ask
  cases hf : c.find? name with
  | some v => exact (Asking.sequential c).pure v
  | none =>
    refine (Asking.sequential c).bind ?_ fun r => ?_
    · cases c.source with
      | none => exact (Asking.sequential c).pure none
      | some source =>
        refine (Asking.sequential c).bind ?_ fun _ => (Asking.sequential c).pure _
        exact fun h => .step (fun n hn => by rwa [← Event.lookup.inj hn]) h
    · cases r with
      | some r => exact settle_asking i c r _
      | none =>
        cases c.strict with
        | true => exact fun h => .refl c h
        | false => exact (Asking.sequential c).pure _

theorem call_asking (name : String) (f : Filter) (input : Value) (args : Arguments) :
    Asking c Value (i.call name f input args) (i.call name f input args) := by
  refine (Asking.sequential c).bind (fun h => .step (by simp) h) fun _ => ?_
  refine (Asking.sequential c).bind ?_ fun r => settle_asking i c r _
  cases f input args with
  | ok r => exact (Asking.sequential c).pure r
  | error e => exact fun h => .refl c h

theorem askingEvaluation : EvaluationLaws i i c c (Asking c) where
  toSequential := Asking.sequential c
  fail _ h := .refl c h
  variableValue := variableValue_asking i c
  known _ := rfl
  call name f₁ _ h₁ h₂ input args := by
    cases h₁.symm.trans h₂
    exact call_asking i c name f₁ input args

end

/-! ## Another source -/

namespace Context

def withSource (c : Context) (o : Option VariableSource) : Context := { c with source := o }

/-- The source `o` answers as that of `c` for names that `c` does not define. -/
def SameAnswers (c : Context) (o : Option VariableSource) : Prop :=
  ∀ name, c.find? name = none → c.source.map (· name) = o.map (· name)

theorem SameAnswers.variableValue {c : Context} {o : Option VariableSource} (h : c.SameAnswers o)
    (i : Interpreter) (spelling name : String) :
    i.variableValue c spelling name = i.variableValue (c.withSource o) spelling name := by
  have hfind : (c.withSource o).find? name = c.find? name := rfl
  unfold Interpreter.variableValue
  rw [hfind]
  cases hn : c.find? name with
  | some v => rfl
  | none =>
    have hask : Interpreter.ask c name = Interpreter.ask (c.withSource o) name := by
      have hname := h name hn
      unfold Interpreter.ask withSource
      cases hs : c.source <;> cases ho : o <;> simp_all
    rw [hask]
    rfl

theorem SameAnswers.evaluation {c : Context} {o : Option VariableSource} (h : c.SameAnswers o)
    (i : Interpreter) : EvaluationLaws i i c (c.withSource o) Same where
  toSequential := Same.sequential
  fail _ := rfl
  variableValue := h.variableValue i
  known _ := rfl
  call _ _ _ h₁ h₂ _ _ := by
    cases h₁.symm.trans h₂
    rfl

end Context

/-! ## Rendering -/

def RenderState.withSource (st : RenderState) (o : Option VariableSource) : RenderState :=
  { st with context := st.context.withSource o }

/-- How a rendering from `st` ends beside one with the source `o`: alike, and after questions for names
only that were undefined at the start. -/
structure Spared (o : Option VariableSource) (st : RenderState) (r₁ r₂ : Ending Error RenderState α) :
    Prop where
  same : r₂ = r₁.map (fun a _ => a) (·.withSource o)
  kept : Context.Kept (fun _ => True) st.context r₁.state.context
  asked : AsksUnknown st.context st.history r₁.state.history

def Spares (o : Option VariableSource) : Coupling Error RenderState := fun _ m₁ m₂ =>
  ∀ st, st.context.SameAnswers o → Spared o st (m₁ st).result (m₂ (st.withSource o)).result

namespace Spares

variable {o : Option VariableSource}

theorem sequential : Sequential (Spares o) where
  pure _ st _ := ⟨rfl, .refl st.context, .refl st.context st.history⟩
  bind {_ _ m₁ m₂ f₁ f₂} hm hf st ho := by
    obtain ⟨same, kept, asked⟩ := hm st ho
    rw [Coroutine.result_bind, Coroutine.result_bind, same]
    cases hr : (m₁ st).result with
    | ok a st' =>
      rw [hr] at kept asked
      have ho' : st'.context.SameAnswers o := fun name hn => by
        have hsource : st'.context.source = st.context.source := kept.source
        rw [hsource]
        exact ho name (kept.find?_eq_none hn)
      have next := hf a st' ho'
      exact ⟨next.same, kept.trans next.kept,
        asked.trans next.asked fun _ hn => kept.find?_eq_none hn⟩
    | error e st' =>
      rw [hr] at kept asked
      exact ⟨rfl, kept, asked⟩

theorem evaluating {f : Context → Evaluation α} (hf : ∀ c, Asking c α (f c) (f c))
    (hs : ∀ c : Context, c.SameAnswers o → f c = f (c.withSource o)) :
    Spares o α (Rendering.evaluating f) (Rendering.evaluating f) := by
  intro st ho
  have hsame : f (st.withSource o).context = f st.context := (hs st.context ho).symm
  have hhistory : (st.withSource o).history = st.history := rfl
  simp only [Rendering.evaluating, Polled.result_map, hsame, hhistory]
  refine ⟨?_, ?_, ?_⟩
  · cases (f st.context st.history).result <;> rfl
  · rw [Ending.state_map]
    exact .refl st.context
  · rw [Ending.state_map]
    exact hf st.context st.history

theorem inFrame (frame : Fields) {b₁ b₂ : Rendering Unit} (hb : Spares o Unit b₁ b₂) :
    Spares o Unit (Rendering.inFrame frame b₁) (Rendering.inFrame frame b₂) := by
  intro st ho
  obtain ⟨same, kept, new, hnew, asked⟩ :=
    hb { st with context := st.context.push frame } fun name hn => ho name (Context.find?_of_push hn)
  have hpushed : { st.withSource o with context := (st.withSource o).context.push frame } =
      RenderState.withSource { st with context := st.context.push frame } o := rfl
  simp only [Rendering.inFrame, Polled.result_map, hpushed, same]
  refine ⟨?_, ?_, ?_⟩
  · cases (b₁ { st with context := st.context.push frame }).result <;> rfl
  · rw [Ending.state_map]
    exact kept.pop
  · rw [Ending.state_map]
    exact ⟨new, hnew, fun name hm => Context.find?_of_push (asked name hm)⟩

theorem capturing {b₁ b₂ : Rendering Unit} (hb : Spares o Unit b₁ b₂) :
    Spares o String (Rendering.capturing b₁) (Rendering.capturing b₂) := by
  intro st ho
  obtain ⟨same, kept, asked⟩ := hb { st with output := "" } ho
  have hempty : { st.withSource o with output := "" } =
      RenderState.withSource { st with output := "" } o := rfl
  simp only [Rendering.capturing, Polled.result_map, hempty, same]
  refine ⟨?_, ?_, ?_⟩
  · cases (b₁ { st with output := "" }).result <;> rfl
  · rw [Ending.state_map]
    exact kept
  · rw [Ending.state_map]
    exact asked

theorem laws (i : Interpreter) (o : Option VariableSource) :
    RenderingLaws i i (fun _ => True) (Spares o) where
  toSequential := sequential
  write _ st _ := ⟨rfl, .refl st.context, .refl st.context st.history⟩
  expression e := evaluating (fun c => (askingEvaluation i c).expression e)
    fun _ ho => (ho.evaluation i).expression e
  pipeline p := evaluating (fun c => (askingEvaluation i c).pipeline p)
    fun _ ho => (ho.evaluation i).pipeline p
  assign _ v st _ := ⟨rfl, .assign trivial st.context v, .refl st.context st.history⟩
  inFrame frame _ _ := inFrame frame
  capturing := capturing

end Spares

theorem Template.render_spared {t : Template} (ht : t.Builtin) (i : Interpreter) {ctx : Context}
    {o : Option VariableSource} (ho : ctx.SameAnswers o) :
    ∃ r, t.render i ctx = .ofEnding r ∧
      t.render i (ctx.withSource o) = .ofEnding (r.map (fun a _ => a) (·.withSource o)) ∧
      AsksUnknown ctx [] r.state.history := by
  obtain ⟨same, -, asked⟩ :=
    (Spares.laws i o).nodes t.nodes ht (fun _ _ => trivial) ⟨ctx, "", []⟩ ho
  exact ⟨_, t.render_eq_ofEnding ht i ctx,
    (t.render_eq_ofEnding ht i _).trans (congrArg Rendered.ofEnding same), asked⟩

/-- **Frames and globals come first.** In either mode a render asks the source only for names that no
frame of its context and no global defines. So two sources that answer alike for all other names give
the same result, leave the same frames, and are asked for the same names in the same order. -/
theorem Template.render_asks_unknown {t : Template} (ht : t.Builtin) (i : Interpreter)
    (ctx : Context) :
    (∀ name, .lookup name ∈ (t.render i ctx).history → ctx.find? name = none) ∧
    ∀ source₁ source₂ : VariableSource,
      (∀ name, ctx.find? name = none → source₁ name = source₂ name) →
      let r₁ := t.render i (ctx.withSource source₁)
      let r₂ := t.render i (ctx.withSource source₂)
      r₁.result = r₂.result ∧ r₁.context.frames = r₂.context.frames ∧ r₁.history = r₂.history := by
  constructor
  · intro name hm
    obtain ⟨r, hr, -, new, hnew, hasked⟩ := t.render_spared ht i (o := ctx.source) fun _ _ => rfl
    rw [hr, Rendered.history_ofEnding, hnew, List.append_nil, List.mem_reverse] at hm
    exact hasked name hm
  · intro source₁ source₂ h r₁ r₂
    have hanswers : (ctx.withSource source₁).SameAnswers (some source₂) :=
      fun name hn => congrArg some (h name hn)
    obtain ⟨r, hr₁, hr₂, -⟩ := t.render_spared ht i hanswers
    have h₁ : r₁ = .ofEnding r := hr₁
    have h₂ : r₂ = .ofEnding (r.map (fun a _ => a) (·.withSource (some source₂))) := hr₂
    rw [h₁, h₂]
    cases r <;> exact ⟨rfl, rfl, rfl⟩

/-- Two sources that differ at a global. The loop asks for `user` in its first iteration and then
captures it. -/
theorem Template.render_asks_unknown_loop :
    let read (name : String) : Node := .output ⟨.path name [.key name], []⟩
    let t : Template := ⟨none, [.loop ⟨"x", .path "xs" [.key "xs"], false⟩
      [read "user", read "site", .capture "user" [.text "bob"]] []]⟩
    let answer (site : String) : VariableSource := fun name =>
      if name = "user" then some (.pending (.after (.ok (.text "ana")) 2))
      else if name = "site" then some (.settled (.text site))
      else none
    let ctx : Context := ⟨[("xs", .list [.null, .null])], [], [("site", .text "-")], none, true⟩
    let r₁ := t.render ⟨.empty, .async⟩ (ctx.withSource (answer "one"))
    let r₂ := t.render ⟨.empty, .async⟩ (ctx.withSource (answer "two"))
    t.Builtin ∧ (∀ name, ctx.find? name = none → answer "one" name = answer "two" name) ∧
    r₁.result = r₂.result ∧ r₁.history = r₂.history ∧ r₂.result = .ok "ana-bob-" := by
  intro read t answer ctx r₁ r₂
  have ht : t.Builtin := ⟨⟨⟨trivial, trivial, ⟨trivial, trivial⟩, trivial⟩, trivial⟩, trivial⟩
  have h : ∀ name, ctx.find? name = none → answer "one" name = answer "two" name := by
    intro name hn
    have hsite : name ≠ "site" := by
      rintro rfl
      cases hn
    simp [answer, hsite]
  obtain ⟨hresult, -, hhistory⟩ := (Template.render_asks_unknown ht ⟨.empty, .async⟩ ctx).2 _ _ h
  exact ⟨ht, h, hresult, hhistory, by cbv⟩

end Stencil
