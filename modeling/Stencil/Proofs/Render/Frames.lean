import Mathlib
import Stencil.Proofs.Render.Prompt

/-!
# Frames after a render

However a render of built-in tags ends, the frames that blocks push are popped, and the bottom frame
keeps its names. Only names that an `assign` or a `capture` tag binds have other values there than
before.
-/

namespace Stencil

variable {ε α β : Type} {T : String → Prop}

/-- What a render leaves of the context `c` in `c'` if it binds only names in `T`. -/
structure Context.Kept (T : String → Prop) (c c' : Context) : Prop where
  inner : c'.inner = c.inner
  globals : c'.globals = c.globals
  source : c'.source = c.source
  strict : c'.strict = c.strict
  names : ∀ name, (Fields.get? c.bottom name).isSome → (Fields.get? c'.bottom name).isSome
  values : ∀ name, ¬ T name → Fields.get? c'.bottom name = Fields.get? c.bottom name

namespace Context.Kept

theorem refl (c : Context) : Kept T c c := ⟨rfl, rfl, rfl, rfl, fun _ h => h, fun _ _ => rfl⟩

theorem trans {a b c : Context} (h : Kept T a b) (h' : Kept T b c) : Kept T a c where
  inner := h'.inner.trans h.inner
  globals := h'.globals.trans h.globals
  source := h'.source.trans h.source
  strict := h'.strict.trans h.strict
  names name hn := h'.names name (h.names name hn)
  values name hn := (h'.values name hn).trans (h.values name hn)

theorem assign {name : String} (h : T name) (c : Context) (v : Value) :
    Kept T c (c.assign name v) where
  inner := rfl
  globals := rfl
  source := rfl
  strict := rfl
  names other hn := by
    rw [Context.assign, Fields.get?_insert]
    split
    · rfl
    · exact hn
  values other hn := by
    have hne : other ≠ name := fun e => hn (e ▸ h)
    rw [Context.assign, Fields.get?_insert, if_neg hne]

/-- What is kept inside a block is kept around it once its frame is popped. -/
theorem pop {c c' : Context} {frame : Fields} (h : Kept T (c.push frame) c') : Kept T c c'.pop where
  inner := by
    rw [Context.pop, h.inner]
    rfl
  globals := h.globals
  source := h.source
  strict := h.strict
  names := h.names
  values := h.values

end Context.Kept

/-- The computation keeps contexts, however it ends. -/
def Rendering.Keeps (T : String → Prop) (m : Rendering α) : Prop :=
  ∀ st, Context.Kept T st.context (m st).result.state.context

namespace Rendering.Keeps

open Rendering

theorem pure (a : α) : Keeps T (pure a : Rendering α) := fun st => .refl st.context

theorem bind {m : Rendering α} {f : α → Rendering β} (hm : Keeps T m) (hf : ∀ a, Keeps T (f a)) :
    Keeps T (m >>= f) :=
  Coroutine.Leads.bind (P := fun st st' : RenderState => Context.Kept T st.context st'.context)
    .trans hm hf

theorem evaluating (f : Context → Evaluation α) : Keeps T (evaluating f) := by
  intro st
  simp only [Rendering.evaluating, Polled.result_map, Ending.state_map]
  exact .refl st.context

theorem inFrame (frame : Fields) {body : Rendering Unit} (h : Keeps T body) :
    Keeps T (inFrame frame body) := by
  intro st
  simp only [Rendering.inFrame, Polled.result_map, Ending.state_map]
  exact (h { st with context := st.context.push frame }).pop

theorem capturing {body : Rendering Unit} (h : Keeps T body) : Keeps T (capturing body) := by
  intro st
  simp only [Rendering.capturing, Polled.result_map, Ending.state_map]
  exact h { st with output := "" }

theorem laws (i : Interpreter) (T : String → Prop) :
    RenderingLaws i i T fun _ m _ => Keeps T m where
  pure := .pure
  bind := .bind
  write _ st := .refl st.context
  expression _ := .evaluating _
  pipeline _ := .evaluating _
  assign h v st := .assign h st.context v
  inFrame frame _ _ h := .inFrame frame h
  capturing h := .capturing h

end Rendering.Keeps

theorem Template.render_kept {t : Template} (ht : t.Builtin) (i : Interpreter) (ctx : Context) :
    Context.Kept (· ∈ t.targets) ctx (t.render i ctx).context := by
  rw [t.render_eq_ofEnding ht]
  exact (Rendering.Keeps.laws i (· ∈ t.targets)).nodes t.nodes ht (fun _ h => h)
    { context := ctx, output := "", history := [] }

/-- **Frames after a render.** In either mode, and also when it fails, a render leaves as many frames
as there were, those of open blocks as they were, and globals, source and strictness too. The bottom
frame keeps its names, and values other than before stand only at names that the template binds. -/
theorem Template.render_frames {t : Template} (ht : t.Builtin) (i : Interpreter) (ctx : Context) :
    let after := (t.render i ctx).context
    after.depth = ctx.depth ∧ after.inner = ctx.inner ∧ after.globals = ctx.globals ∧
    after.source = ctx.source ∧ after.strict = ctx.strict ∧
    (∀ name, (Fields.get? ctx.bottom name).isSome → (Fields.get? after.bottom name).isSome) ∧
    ∀ name, name ∉ t.targets → Fields.get? after.bottom name = Fields.get? ctx.bottom name := by
  intro after
  have h : Context.Kept (· ∈ t.targets) ctx after := t.render_kept ht i ctx
  refine ⟨?_, h.inner, h.globals, h.source, h.strict, h.names, h.values⟩
  simp [Context.depth, Context.frames, h.inner]

/-- A loop inside another block, whose body binds `y` and then fails. -/
theorem Template.render_frames_failing_loop :
    let p : Pipeline := ⟨.path "x" [.key "x"], [⟨"missing", []⟩]⟩
    let t : Template := ⟨none, [.loop ⟨"x", .path "xs" [.key "xs"], false⟩
      [.assign "y" ⟨.path "x" [.key "x"], []⟩, .output p] []]⟩
    let ctx : Context := ⟨[("y", .null)], [[("xs", .list [.bool true])]], [], none, true⟩
    t.Builtin ∧ (t.render ⟨.empty, .sync⟩ ctx).result = .error (.unknownFilter "missing") ∧
    (t.render ⟨.empty, .sync⟩ ctx).context.depth = 2 ∧
    (t.render ⟨.empty, .sync⟩ ctx).context.inner = [[("xs", .list [.bool true])]] := by
  intro p t ctx
  have ht : t.Builtin := ⟨⟨⟨trivial, trivial, trivial⟩, trivial⟩, trivial⟩
  have h := Template.render_frames ht ⟨.empty, .sync⟩ ctx
  exact ⟨ht, by cbv, h.1, h.2.1⟩

end Stencil
