import Mathlib
import Stencil.Proofs.Render.Settled
import Stencil.Proofs.Render.Visits

/-!
# Strict and lenient renders

Strictness only adds failures. A lenient render goes as the strict one does unless that one stops at an
undefined variable; and where the strict one stops, an evaluation has come to a path whose name no
frame, global or source knows.
-/

namespace Stencil

variable {σ τ α β : Type}

/-! ## Two runs -/

/-- The run stops at an undefined variable. -/
def Ending.IsUndefined (r : Ending Error σ α) : Prop :=
  ∃ path, r.outcome = .error (.undefinedVariable path)

theorem Ending.IsUndefined.map {r : Ending Error σ α} (h : r.IsUndefined) (v : α → σ → β) (g : σ → τ) :
    (r.map v g).IsUndefined := by
  obtain ⟨path, h⟩ := h
  cases r with
  | ok a s => cases h
  | error e s => exact ⟨path, by cases h; rfl⟩

theorem Ending.IsUndefined.bind {m : Coroutine Error σ α} {s : σ} (h : (m s).result.IsUndefined)
    (f : α → Coroutine Error σ β) : ((m >>= f) s).result.IsUndefined := by
  obtain ⟨path, h⟩ := h
  rw [Coroutine.result_bind]
  cases hr : (m s).result with
  | ok a s' =>
    rw [hr] at h
    cases h
  | error e s' =>
    rw [hr] at h
    cases h
    exact ⟨path, rfl⟩

namespace Context

/-- Unknown names have no value but are no errors. -/
def lenient (c : Context) : Context := { c with strict := false }

def strictly (c : Context) : Context := { c with strict := true }

end Context

def RenderState.lenient (st : RenderState) : RenderState := { st with context := st.context.lenient }

/-- The first evaluation stops at an undefined variable, or the second goes just as it does. -/
def StopsOrSame : Coupling Error (List Event) := fun _ m₁ m₂ =>
  ∀ h, (m₁ h).result.IsUndefined ∨ (m₂ h).result = (m₁ h).result

theorem StopsOrSame.sequential : Sequential StopsOrSame where
  pure _ _ := .inr rfl
  bind {_ _ m₁ m₂ f₁ f₂} hm hf h := by
    rcases hm h with hu | hs
    · exact .inl (hu.bind f₁)
    · rw [Coroutine.result_bind, Coroutine.result_bind, hs]
      cases (m₁ h).result with
      | ok a h' => exact hf a h'
      | error e h' => exact .inr rfl

theorem lenientEvaluation (i : Interpreter) (c : Context) :
    EvaluationLaws i i c c.lenient StopsOrSame where
  toSequential := StopsOrSame.sequential
  fail _ _ := .inr rfl
  variableValue spelling name := by
    have hfind : c.lenient.find? name = c.find? name := rfl
    have hask : Interpreter.ask c.lenient name = Interpreter.ask c name := rfl
    unfold Interpreter.variableValue
    rw [hfind, hask]
    cases c.find? name with
    | some v => exact StopsOrSame.sequential.pure v
    | none =>
      refine StopsOrSame.sequential.bind (fun _ => .inr rfl) fun answer => ?_
      cases answer with
      | some r => exact fun _ => .inr rfl
      | none =>
        -- the one step at which strictness counts
        cases hs : c.strict with
        | true => exact fun _ => .inl ⟨spelling, rfl⟩
        | false => exact fun _ => .inr rfl
  known _ := rfl
  call _ _ _ h₁ h₂ _ _ := by
    cases h₁.symm.trans h₂
    exact fun _ => .inr rfl

/-- From a state the first rendering stops at an undefined variable, or the second, from the lenient
state, goes just as it does. -/
def StopsOrLenient : Coupling Error RenderState := fun _ m₁ m₂ =>
  ∀ st, (m₁ st).result.IsUndefined ∨
    (m₂ st.lenient).result = (m₁ st).result.map (fun a _ => a) RenderState.lenient

namespace StopsOrLenient

open Rendering

theorem sequential : Sequential StopsOrLenient where
  pure _ _ := .inr rfl
  bind {_ _ m₁ m₂ f₁ f₂} hm hf st := by
    rcases hm st with hu | hs
    · exact .inl (hu.bind f₁)
    · rw [Coroutine.result_bind, Coroutine.result_bind, hs]
      cases (m₁ st).result with
      | ok a st' => exact hf a st'
      | error e st' => exact .inr rfl

theorem evaluating {f : Context → Evaluation α} (hf : ∀ c, StopsOrSame α (f c) (f c.lenient)) :
    StopsOrLenient α (evaluating f) (evaluating f) := by
  intro st
  simp only [Rendering.evaluating, Polled.result_map]
  rcases hf st.context st.history with hu | hs
  · exact .inl (hu.map _ _)
  · right
    change ((f st.context.lenient st.history).result).map _ _ = _
    rw [hs]
    cases (f st.context st.history).result <;> rfl

theorem inFrame (frame : Fields) {b₁ b₂ : Rendering Unit} (hb : StopsOrLenient Unit b₁ b₂) :
    StopsOrLenient Unit (inFrame frame b₁) (inFrame frame b₂) := by
  intro st
  let inside : RenderState := { st with context := st.context.push frame }
  simp only [Rendering.inFrame, Polled.result_map]
  rcases hb inside with hu | hs
  · exact .inl (hu.map _ _)
  · right
    change ((b₂ inside.lenient).result).map _ _ = _
    rw [hs]
    cases (b₁ inside).result <;> rfl

theorem capturing {b₁ b₂ : Rendering Unit} (hb : StopsOrLenient Unit b₁ b₂) :
    StopsOrLenient String (capturing b₁) (capturing b₂) := by
  intro st
  let inside : RenderState := { st with output := "" }
  simp only [Rendering.capturing, Polled.result_map]
  rcases hb inside with hu | hs
  · exact .inl (hu.map _ _)
  · right
    change ((b₂ inside.lenient).result).map _ _ = _
    rw [hs]
    cases (b₁ inside).result <;> rfl

theorem laws (i : Interpreter) : RenderingLaws i i (fun _ => True) StopsOrLenient where
  toSequential := sequential
  write _ _ := .inr rfl
  expression e := evaluating fun c => (lenientEvaluation i c).expression e
  pipeline p := evaluating fun c => (lenientEvaluation i c).pipeline p
  assign _ _ _ := .inr rfl
  inFrame frame _ _ := inFrame frame
  capturing := capturing

end StopsOrLenient

/-! ## The path that nothing knows -/

/-- No filter fails for an undefined variable, at once or later. -/
def FilterTable.NeverUndefined (t : FilterTable) : Prop :=
  ∀ name f, t.lookup name = some f → ∀ input args path,
    (f input args >>= Resolution.outcome) ≠ .error (.undefinedVariable path)

def Context.SourceNeverUndefined (c : Context) : Prop :=
  ∀ source ∈ c.source, ∀ name r, source name = some r →
    ∀ path, r.outcome ≠ .error (.undefinedVariable path)

/-- The path's first segment comes to the name. -/
def Segment.Gives (i : Interpreter) (c : Context) (head : Segment) (name : String) : Prop :=
  ∃ h h', (head.headName i c h).result = .ok name h'

/-- A path with this spelling is listed, and its name is one that no frame, global or source knows. -/
def Context.Lacks (i : Interpreter) (c : Context) (paths : List (String × Segment))
    (spelling : String) : Prop :=
  ∃ head name, (spelling, head) ∈ paths ∧ head.Gives i c name ∧ c.find? name = none ∧
    ∀ source ∈ c.source, source name = none

/-- The evaluation stops at an undefined variable only if that is a listed path which `c` lacks. -/
def BlamesUnknown (i : Interpreter) (c : Context) (paths : List (String × Segment))
    (m : Evaluation α) : Prop :=
  ∀ spelling h h', (m h).result = .error (.undefinedVariable spelling) h' → c.Lacks i paths spelling

namespace BlamesUnknown

variable {i : Interpreter} {c : Context} {paths : List (String × Segment)}

theorem pure (a : α) : BlamesUnknown i c paths (pure a) := by
  intro spelling h h' hr
  cases hr

theorem bind {m : Evaluation α} {f : α → Evaluation β} (hm : BlamesUnknown i c paths m)
    (hf : ∀ a h h', (m h).result = .ok a h' → BlamesUnknown i c paths (f a)) :
    BlamesUnknown i c paths (m >>= f) := by
  intro spelling h h' hr
  rcases Coroutine.result_bind_eq_error_iff.1 hr with hr | ⟨a, h₁, ha, hr⟩
  · exact hm spelling h h' hr
  · exact hf a h h₁ ha spelling h₁ h' hr

theorem lift {r : Except Error α} (hr : ∀ spelling, r ≠ .error (.undefinedVariable spelling)) :
    BlamesUnknown i c paths (Coroutine.lift r) := by
  intro spelling h h' he
  cases r with
  | ok a => cases he
  | error e =>
    cases he
    exact (hr spelling rfl).elim

theorem settle {r : Resolution} (hr : ∀ spelling, r.outcome ≠ .error (.undefinedVariable spelling))
    (point : SuspensionPoint) : BlamesUnknown i c paths (i.settle r point) := by
  cases r with
  | settled v => exact pure v
  | pending d =>
    unfold Interpreter.settle
    cases i.mode with
    | sync =>
      intro spelling h h' he
      cases he
    | async =>
      refine bind (fun _ _ _ he => by cases he) fun _ _ _ _ spelling h h' he => ?_
      rw [Deferred.result_await] at he
      exact lift hr spelling h h' he

/-- The step at which a path is undefined. -/
theorem variableValue (hsource : c.SourceNeverUndefined) {spelling name : String}
    {head : Segment} (hmem : (spelling, head) ∈ paths) (hname : head.Gives i c name) :
    BlamesUnknown i c paths (i.variableValue c spelling name) := by
  unfold Interpreter.variableValue Interpreter.ask
  cases hfind : c.find? name with
  | some v => exact pure v
  | none =>
    have unknown (hs : ∀ source ∈ c.source, source name = none) : BlamesUnknown i c paths
        (if c.strict then .fail (.undefinedVariable spelling) else Pure.pure Value.null) := by
      split
      · intro spelling' h h' he
        cases he
        exact ⟨head, name, hmem, hname, hfind, hs⟩
      · exact pure _
    cases hs : c.source with
    | none => exact unknown (by simp [hs])
    | some source =>
      refine bind (fun _ _ _ he => by cases he) fun answer h h' ha => ?_
      cases ha
      cases hanswer : source name with
      | none =>
        refine unknown fun source' hs' => ?_
        cases hs.symm.trans hs'
        exact hanswer
      | some r => exact settle (hsource source hs name r hanswer) _

theorem call (hfilters : i.filters.NeverUndefined) {name : String} {f : Filter}
    (hf : i.filters.lookup name = some f) (input : Value) (args : Arguments) :
    BlamesUnknown i c paths (i.call name f input args) := by
  have hnever := hfilters name f hf input args
  refine bind (fun _ _ _ he => by cases he) fun _ _ _ _ => ?_
  cases hr : f input args with
  | error e =>
    rw [hr] at hnever
    have hlift : BlamesUnknown i c paths (Coroutine.lift (Except.error e) : Evaluation Resolution) :=
      lift fun spelling he => hnever spelling (by cases he; rfl)
    exact bind hlift fun r h h' he => by cases he
  | ok r =>
    rw [hr] at hnever
    refine bind (pure r) fun r' h h' he => ?_
    cases he
    exact settle hnever _

end BlamesUnknown

section
variable {i : Interpreter} {c : Context} {paths : List (String × Segment)}

mutual

theorem Expression.blamesUnknown (hsource : c.SourceNeverUndefined) :
    ∀ e : Expression, (∀ q ∈ e.paths, q ∈ paths) →
    BlamesUnknown i c paths (e.eval i c)
  | .literal _ v, _ => by
    rw [Expression.eval]
    exact .pure v
  | .path _ [], _ => by
    rw [Expression.eval]
    exact .pure Value.null
  | .path spelling (head :: rest), h => by
    simp only [Expression.paths, List.forall_mem_cons, List.forall_mem_append] at h
    obtain ⟨hmem, hhead, hrest⟩ := h
    rw [Expression.eval]
    refine (head.blamesUnknown_headName hsource hhead).bind fun name h₁ h₂ hname => ?_
    refine (BlamesUnknown.variableValue hsource hmem ⟨h₁, h₂, hname⟩).bind fun v _ _ _ => ?_
    exact walk_blamesUnknown hsource rest hrest v
  | .range _ first last, h => by
    simp only [Expression.paths, List.forall_mem_append] at h
    rw [Expression.eval]
    refine (first.blamesUnknown hsource h.1).bind fun a _ _ _ => ?_
    refine (last.blamesUnknown hsource h.2).bind fun b _ _ _ => .lift fun spelling => ?_
    unfold rangeItems
    dsimp only
    split <;> simp

theorem Segment.blamesUnknown_headName (hsource : c.SourceNeverUndefined) :
    ∀ s : Segment, (∀ q ∈ s.paths, q ∈ paths) →
    BlamesUnknown i c paths (s.headName i c)
  | .key name, _ => by
    rw [Segment.headName]
    exact .pure name
  | .index n, _ => by
    rw [Segment.headName]
    exact .pure (toString n)
  | .computed e, h => by
    rw [Segment.headName]
    exact (e.blamesUnknown hsource h).bind fun v _ _ _ => .pure v.output

theorem Segment.blamesUnknown_property (hsource : c.SourceNeverUndefined) :
    ∀ s : Segment, (∀ q ∈ s.paths, q ∈ paths) →
    BlamesUnknown i c paths (s.property i c)
  | .key name, _ => by
    rw [Segment.property]
    exact .pure (Value.text name)
  | .index n, _ => by
    rw [Segment.property]
    exact .pure (Value.int n)
  | .computed e, h => by
    rw [Segment.property]
    exact e.blamesUnknown hsource h

theorem walk_blamesUnknown (hsource : c.SourceNeverUndefined) :
    ∀ segments : List Segment, (∀ q ∈ segmentsPaths segments, q ∈ paths) →
    ∀ v : Value, BlamesUnknown i c paths (walk i c v segments)
  | [], _, v => by
    rw [walk]
    exact .pure v
  | s :: rest, h, v => by
    simp only [segmentsPaths, List.forall_mem_append] at h
    rw [walk]
    exact (s.blamesUnknown_property hsource h.1).bind fun key _ _ _ =>
      walk_blamesUnknown hsource rest h.2 (v.property key)

end

theorem Interpreter.arguments_blamesUnknown (hsource : c.SourceNeverUndefined) (as : List Argument)
    (h : ∀ a ∈ as, ∀ q ∈ a.value.paths, q ∈ paths) (args : Arguments) :
    BlamesUnknown i c paths (i.arguments c args as) := by
  induction as generalizing args with
  | nil => exact .pure args
  | cons a rest ih =>
    obtain ⟨ha, hrest⟩ := List.forall_mem_cons.1 h
    exact (a.value.blamesUnknown hsource ha).bind fun v _ _ _ => ih hrest (args.add a.key v)

variable (hfilters : i.filters.NeverUndefined) (hsource : c.SourceNeverUndefined)
include hfilters hsource

theorem Interpreter.apply_blamesUnknown (input : Value) (f : Invocation)
    (h : ∀ q ∈ f.paths, q ∈ paths) : BlamesUnknown i c paths (i.apply c input f) := by
  have ha : ∀ a ∈ f.arguments, ∀ q ∈ a.value.paths, q ∈ paths :=
    fun a ha q hq => h q (List.mem_flatMap.2 ⟨a, ha, hq⟩)
  unfold Interpreter.apply FilterTable.find
  cases hf : i.filters.lookup f.name with
  | none => exact .bind (.lift fun _ => by simp) fun filter h h' he => by cases he
  | some filter =>
    refine .bind (.pure filter) fun filter' h h' he => ?_
    cases he
    exact (i.arguments_blamesUnknown hsource f.arguments ha _).bind fun args _ _ _ =>
      .call hfilters hf input args

theorem Interpreter.applyAll_blamesUnknown (fs : List Invocation)
    (h : ∀ q ∈ fs.flatMap Invocation.paths, q ∈ paths) (input : Value) :
    BlamesUnknown i c paths (i.applyAll c input fs) := by
  induction fs generalizing input with
  | nil => exact .pure input
  | cons f rest ih =>
    simp only [List.flatMap_cons, List.forall_mem_append] at h
    exact (i.apply_blamesUnknown hfilters hsource input f h.1).bind fun v _ _ _ => ih h.2 v

/-- A pipeline stops at an undefined variable only for one of its own paths. -/
theorem Pipeline.blamesUnknown (p : Pipeline) : BlamesUnknown i c p.paths (p.eval i c) :=
  .bind (p.initial.blamesUnknown hsource fun _ => List.mem_append_left _) fun v _ _ _ =>
    i.applyAll_blamesUnknown hfilters hsource p.filters (fun _ => List.mem_append_right _) v

end

/-! ## Renders -/

theorem Template.render_lenient {t : Template} (ht : t.Builtin) (i : Interpreter) (ctx : Context) :
    (∃ path, (t.render i ctx).result = .error (.undefinedVariable path)) ∨
    (t.render i ctx.lenient).result = (t.render i ctx).result ∧
    (t.render i ctx.lenient).context = (t.render i ctx).context.lenient ∧
    (t.render i ctx.lenient).history = (t.render i ctx).history := by
  rw [t.render_eq_ofEnding ht, t.render_eq_ofEnding ht]
  rcases (StopsOrLenient.laws i).nodes t.nodes ht (fun _ _ => trivial) ⟨ctx, "", []⟩ with
    ⟨path, hu⟩ | hs
  · left
    refine ⟨path, ?_⟩
    simp only [Rendered.ofEnding, hu]
    rfl
  · right
    have hs' : (renderNodes i t.nodes ⟨ctx.lenient, "", []⟩).result = _ := hs
    rw [hs']
    cases (renderNodes i t.nodes ⟨ctx, "", []⟩).result <;> exact ⟨rfl, rfl, rfl⟩

/-- Where a render fails, an evaluation that it has come to fails. -/
theorem Template.render_error {t : Template} (ht : t.Builtin) {i : Interpreter} {ctx : Context}
    {e : Error} (h : (t.render i ctx).result = .error e) :
    ∃ p st, NodesVisit i t.nodes ⟨ctx, "", []⟩ p st ∧ p.FailsIn i st e := by
  rw [t.render_eq_ofEnding ht] at h
  cases hr : (renderNodes i t.nodes ⟨ctx, "", []⟩).result with
  | ok a st =>
    rw [hr] at h
    cases h
  | error e' st =>
    rw [hr] at h
    cases h
    exact renderNodes_error t.nodes _ ht hr

/-- **Strictness only adds failures.** If a strict render ends in any way other than at an undefined
variable, the lenient one gives the same result, leaves the same frames and has the same events, in
either mode. And if neither filters nor the source fail for undefined variables themselves, then a
strict render that does is at a point of the template that has come to evaluate a path with the
spelling that the error names, and at that point no frame, no global and no source knows the name that
the path starts with. -/
theorem Template.render_strict {t : Template} (ht : t.Builtin) (i : Interpreter) (ctx : Context) :
    let strict := t.render i ctx.strictly
    let lenient := t.render i ctx.lenient
    ((∀ path, strict.result ≠ .error (.undefinedVariable path)) →
      lenient.result = strict.result ∧ lenient.context.frames = strict.context.frames ∧
      lenient.history = strict.history) ∧
    (i.filters.NeverUndefined → ctx.SourceNeverUndefined →
      ∀ path, strict.result = .error (.undefinedVariable path) →
        ∃ p st head name, NodesVisit i t.nodes ⟨ctx.strictly, "", []⟩ p st ∧
          p.FailsIn i st (.undefinedVariable path) ∧
          .reads path head ∈ t.accesses ∧ (path, head) ∈ p.paths ∧ head.Gives i st.context name ∧
          st.context.find? name = none ∧ ∀ source ∈ ctx.source, source name = none) := by
  intro strict lenient
  constructor
  · intro h
    rcases t.render_lenient ht i ctx.strictly with ⟨path, hu⟩ | ⟨hr, hc, hh⟩
    · exact (h path hu).elim
    · have hframes : lenient.context.frames = strict.context.lenient.frames :=
        congrArg Context.frames hc
      exact ⟨hr, hframes, hh⟩
  · intro hfilters hsource path hp
    obtain ⟨p, st, visit, history, hfails⟩ := t.render_error ht hp
    obtain ⟨hs, hpaths⟩ := visit.within ht
    have hsource' : st.context.SourceNeverUndefined := by
      unfold Context.SourceNeverUndefined
      rw [hs]
      exact hsource
    obtain ⟨head, name, hmem, hname, hfind, hunknown⟩ :=
      p.blamesUnknown hfilters hsource' path _ _ hfails
    rw [hs] at hunknown
    have haccess : Access.reads path head ∈ t.accesses :=
      hpaths _ (List.mem_map.2 ⟨_, hmem, rfl⟩)
    exact ⟨p, st, head, name, visit, ⟨_, hfails⟩, haccess, hmem, hname, hfind, hunknown⟩

/-- Each iteration reads the variable that the item names. The source knows the first one, and the
second is in the data or nowhere. -/
theorem Template.render_strict_loop :
    let t : Template := ⟨none, [.loop ⟨"x", .path "xs" [.key "xs"], false⟩
      [.output ⟨.path "[x]" [.computed (.path "x" [.key "x"])], []⟩] []]⟩
    let source : VariableSource := fun name =>
      if name = "a" then some (.pending (.after (.ok (.text "ana")) 2)) else none
    let xs : String × Value := ("xs", .list [.text "a", .text "b"])
    let known : Context := ⟨[xs, ("b", .text "bob")], [], [], some source, true⟩
    let unknown : Context := ⟨[xs], [], [], some source, true⟩
    let i : Interpreter := ⟨.empty, .async⟩
    t.Builtin ∧ (t.render i known).result = .ok "anabob" ∧
    (t.render i known.lenient).result = .ok "anabob" ∧
    i.filters.NeverUndefined ∧ unknown.SourceNeverUndefined ∧
    (t.render i unknown).result = .error (.undefinedVariable "[x]") ∧
    ∃ p st head name, NodesVisit i t.nodes ⟨unknown, "", []⟩ p st ∧
      .reads "[x]" head ∈ t.accesses ∧ head.Gives i st.context name ∧ source name = none := by
  intro t source xs known unknown i
  have ht : t.Builtin := ⟨⟨⟨trivial, trivial⟩, trivial⟩, trivial⟩
  have hknown : (t.render i known).result = .ok "anabob" := by cbv
  have hunknown : (t.render i unknown).result = .error (.undefinedVariable "[x]") := by cbv
  have hfilters : i.filters.NeverUndefined := fun name f h => by cases h
  have hsource : unknown.SourceNeverUndefined := by
    intro s hs name r hr path
    cases hs
    simp only [source] at hr
    split at hr
    · cases hr
      exact fun h => by cases h
    · cases hr
  have hsame := (Template.render_strict ht i known).1 fun path h => by
    cases hknown.symm.trans h
  obtain ⟨p, st, head, name, visit, -, hmem, -, hname, -, hnone⟩ :=
    (Template.render_strict ht i unknown).2 hfilters hsource "[x]" hunknown
  exact ⟨ht, hknown, hsame.1.trans hknown, hfilters, hsource, hunknown, p, st, head, name, visit, hmem,
    hname, hnone source rfl⟩

end Stencil
