import Stencil.Proofs.Render.Endings
import Stencil.Proofs.Render.Joined
import Stencil.Proofs.Render.Visits

/-!
# Captured bodies

A body that is captured and then written renders as the body in place: its rendering does not depend on
what was written before, and all that it writes comes behind.
-/

namespace Stencil

/-- The output of nodes of built-in tags comes behind what was written before; all else is as with an
empty output. -/
theorem renderNodes_output_behind {i : Interpreter} {ns : List Node} (hb : NodesBuiltin ns)
    (st : RenderState) :
    (renderNodes i ns st).result = (renderNodes i ns { st with output := "" }).result.map
      (fun a _ => a) fun st' => { st' with output := st.output ++ st'.output } := by
  have hbehind : st = RenderState.behind st.output [] { st with output := "" } := by
    simp [RenderState.behind]
  obtain ⟨ho, hs⟩ := (Prefixed.laws [] i).nodes ns hb (fun _ _ => trivial) st.output
    { st with output := "" } st hbehind
  generalize (renderNodes i ns { st with output := "" }).result = r₁ at ho hs ⊢
  generalize (renderNodes i ns st).result = r₂ at ho hs ⊢
  cases r₁ <;> cases r₂ <;> cases ho <;> cases hs <;>
    simp [Ending.map, Ending.state]

/-- **Capturing and writing is rendering in place.** Take a name that no frame above the bottom one
defines, and a body of built-in tags. In either mode, capturing the body in the name and then writing
the name ends with the error of the body, or well as the body does. If well, then with the same output,
which is some text behind what was written before, and with this text in the bottom frame at the name;
the frames differ at most there. If not, then in the frames that the body leaves. The events are the
same. -/
theorem renderNodes_captured (i : Interpreter) {body : List Node} (hb : NodesBuiltin body)
    {name : String} (spelling : String) {st : RenderState}
    (hframes : ∀ frame ∈ st.context.inner, Fields.get? frame name = none) :
    let captured := i.mode.drive
      (renderNodes i [.capture name body, .output ⟨.path spelling [.key name], []⟩] st)
    let direct := i.mode.drive (renderNodes i body st)
    captured.outcome = direct.outcome ∧ captured.state.history = direct.state.history ∧
    match direct with
    | .ok _ after => captured.state.output = after.output ∧
        Context.Kept (· = name) after.context captured.state.context ∧
        ∃ s, after.output = st.output ++ s ∧
          captured.state.context = after.context.assign name (.text s)
    | .error _ after => captured.state.context = after.context := by
  have hc : NodesBuiltin [.capture name body, .output ⟨.path spelling [.key name], []⟩] :=
    ⟨hb, trivial, trivial⟩
  dsimp only
  rw [Mode.drive_renderNodes i hc, Mode.drive_renderNodes i hb, renderNodes_output_behind hb,
    renderNodes_capture]
  have hkept : Context.Kept (fun _ => True) st.context
      (renderNodes i body { st with output := "" }).result.state.context :=
    renderNodes_keeps hb { st with output := "" }
  cases hr : (renderNodes i body { st with output := "" }).result with
  | error e after => exact ⟨rfl, rfl, rfl⟩
  | ok u after =>
    rw [hr] at hkept
    have hinner : ∀ frame ∈ after.context.inner, Fields.get? frame name = none := by
      have hsame : after.context.inner = st.context.inner := hkept.inner
      rwa [hsame]
    have hvalue := Expression.eval_variable i
      (Context.find?_assign_of_frames hinner (.text after.output)) spelling
    dsimp only
    rw [renderNodes_output, ← Expression.alone, Expression.eval_alone, hvalue]
    exact ⟨rfl, rfl, rfl, .assign (by rfl) _ _, after.output, rfl, rfl⟩

/-- A body that assigns the captured name and then loops. -/
theorem renderNodes_captured_loop :
    let i : Interpreter := ⟨.empty, .sync⟩
    let x : Pipeline := ⟨.path "x" [.key "x"], []⟩
    let body : List Node := [.assign "x" ⟨.literal "'a'" (.text "a"), []⟩, .output x,
      .loop ⟨"y", .path "ys" [.key "ys"], false⟩ [.output ⟨.path "y" [.key "y"], []⟩] []]
    let st : RenderState :=
      ⟨⟨[("ys", .list [.text "b", .text "c"])], [[("z", .null)]], [], none, true⟩, "held-", []⟩
    NodesBuiltin body ∧ (∀ frame ∈ st.context.inner, Fields.get? frame "x" = none) ∧
    (i.mode.drive (renderNodes i [.capture "x" body, .output x] st)).outcome =
      (i.mode.drive (renderNodes i body st)).outcome ∧
    (i.mode.drive (renderNodes i [.capture "x" body, .output x] st)).state.output = "held-abc" := by
  intro i x body st
  have hb : NodesBuiltin body := ⟨trivial, trivial, ⟨⟨trivial, trivial⟩, trivial⟩, trivial⟩
  have hframes : ∀ frame ∈ st.context.inner, Fields.get? frame "x" = none := by decide
  exact ⟨hb, hframes, (renderNodes_captured i hb "x" hframes).1, by cbv⟩

end Stencil
