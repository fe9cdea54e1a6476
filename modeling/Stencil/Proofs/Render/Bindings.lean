import Stencil.Proofs.Markup.Binding
import Stencil.Proofs.Render.Looping
import Stencil.Proofs.Render.Outcomes

/-!
# What tags bind

A name that a tag has bound is read back as what it is bound to: an assigned name writes the value, and
the name of a loop writes the items, one after another. `Template.render_binding` says so of the source
text of such templates, for all names that the tags take but the words that are literals.
-/

namespace Stencil

theorem Value.Iterates.items_eq {v : Value} {items : List Value} (h : v.Iterates items) :
    items = iterationItems v := by
  cases h with
  | text hs => rw [iterationItems, if_neg (by simpa using hs)]
  | _ => rfl

namespace Context

/-- Within an iteration the name of the loop has the item. -/
theorem find?_entered (ctx : Context) {item : String} (h : item ≠ "forloop") (x : Value) (k n : Nat) :
    (ctx.push (loopFrame item x k n)).find? item = some x := by
  have hitem : Fields.get? (loopFrame item x k n) item = some x := by
    rw [get?_loopFrame h, if_pos rfl]
  simp only [find?, frames, push, List.cons_append, List.findSome?_cons, hitem, Option.some_or]

end Context

section
variable (i : Interpreter)

/-- A variable that is defined is written. -/
theorem renderNodes_variable {name : String} {v : Value} {st : RenderState}
    (h : st.context.find? name = some v) :
    (renderNodes i [.output (.variable name)] st).result =
      .ok () { st with output := st.output ++ v.output } := by
  have hv : (Pipeline.variable name).eval i st.context = pure v := by
    rw [Pipeline.variable, ← Expression.alone, Expression.eval_alone, Expression.eval_variable i h]
  rw [renderNodes_output, hv]
  rfl

/-- The iterations write the items one after another, and leave the context as it was. -/
theorem iterate_variable {item : String} (h : item ≠ "forloop") (n k : Nat) (xs : List Value)
    (st : RenderState) : (iterate item (renderNodes i [.output (.variable item)]) n k xs st).result =
      .ok () { st with output := st.output ++ String.join (xs.map Value.output) } := by
  induction xs generalizing k st with
  | nil =>
    rw [List.map_nil, String.join_nil, String.append_empty]
    rfl
  | cons x rest ih =>
    have hx : (st.entered (loopFrame item x k n)).context.find? item = some x :=
      st.context.find?_entered h x k n
    rw [iterate_cons, renderNodes_variable i hx, List.map_cons, String.join_cons,
      ← String.append_assoc]
    exact ih (k + 1) { st with output := st.output ++ x.output }

end

namespace Template
variable {i : Interpreter} {ctx : Context} {name : String} {v : Value}

theorem render_assigned {p : Pipeline} (hframes : ∀ frame ∈ ctx.inner, Fields.get? frame name = none)
    (hv : (p.evaluate i ctx []).outcome = .ok v) :
    (Template.render i ⟨none, [.assign name p, .output (.variable name)]⟩ ctx).result =
      .ok v.output := by
  have ht : Template.Builtin ⟨none, [.assign name p, .output (.variable name)]⟩ :=
    ⟨trivial, trivial, trivial⟩
  have heval : p.evaluate i ctx [] = (p.eval i ctx []).result :=
    Mode.drive_eq_result (fun h => (promptEvaluation h ctx).pipeline p) []
  have hfind : (ctx.assign name v).find? name = some v := Context.find?_assign_of_frames hframes v
  rw [heval] at hv
  rw [render_eq_ofEnding ht, renderNodes_assign]
  dsimp only
  cases hr : (p.eval i ctx []).result with
  | error e history =>
    rw [hr] at hv
    cases hv
  | ok w history =>
    rw [hr] at hv
    cases hv
    dsimp only
    rw [renderNodes_variable i hfind, String.empty_append]
    rfl

theorem render_looped {e : Expression} (hname : name ≠ "forloop") (hv : e.outcome i ctx = .ok v) :
    (Template.render i ⟨none, [.loop ⟨name, e, false⟩ [.output (.variable name)] []]⟩ ctx).result =
      .ok (String.join ((iterationItems v).map Value.output)) := by
  have ht : Template.Builtin ⟨none, [.loop ⟨name, e, false⟩ [.output (.variable name)] []]⟩ :=
    ⟨⟨⟨trivial, trivial⟩, trivial⟩, trivial⟩
  rw [render_eq_ofEnding ht, renderNodes_singleton, Node.render, Rendering.result_evaluating_bind,
    Expression.result_eval, hv]
  simp only [Ending.of]
  cases hitems : iterationItems v with
  | nil => rfl
  | cons x rest =>
    simp only [List.isEmpty_cons, Bool.false_eq_true, if_false]
    rw [iterate_variable i hname, String.empty_append]
    rfl

/-- **What a tag binds can be read back.** Take a name that is none of the four literals, and a text in
which nothing closes a tag outside of literals. If the `assign` tag takes the name, no open block defines
it, and the text has a value, then the template that assigns the text to the name and writes the name is
read, and renders as the output of the value. If the `for` tag takes the name, and it is not `forloop`,
then the template that writes the name for each item of the text is read, and renders as the outputs of
the items in order. The mode, the strictness and all else in the context do not matter. -/
theorem render_binding (i : Interpreter) (ctx : Context) {name text : String} (hu : Unreserved name)
    (ha : Markup.Delimiter.tag.Absent text.toList) :
    (∀ s p v, Markup.variableName? s = some name →
      (∀ frame ∈ ctx.inner, Fields.get? frame name = none) →
      Pipeline.parse text = .ok p → (p.evaluate i ctx []).outcome = .ok v →
      ∃ t, Template.parse .builtin (Markup.assigning name text) = .ok t ∧
        (t.render i ctx).result = .ok v.output) ∧
    (∀ args header e v items, Markup.header? args = some header → header.item = name →
      name ≠ "forloop" → Expression.parse text = .ok e → e.outcome i ctx = .ok v → v.Iterates items →
      ∃ t, Template.parse .builtin (Markup.looping name text) = .ok t ∧
        (t.render i ctx).result = .ok (String.join (items.map Value.output))) := by
  constructor
  · intro s p v hs hframes hp hv
    have hn : Scanner.IsName name.toList := (Markup.variableName?_eq_some_iff.1 hs).1
    exact ⟨_, parse_assigning hn hu ha hp, render_assigned hframes hv⟩
  · rintro args header e v items hargs rfl hname hp hv hitems
    have hn : Scanner.IsName header.item.toList := Markup.isName_of_header hargs
    rw [hitems.items_eq]
    exact ⟨_, parse_looping hn hu ha hp, render_looped hname hv⟩

set_option maxRecDepth 1000 in
/-- The text has a closing delimiter in a literal. -/
theorem render_binding_quoted :
    let i : Interpreter := ⟨.empty, .sync⟩
    let items : List Value := [.text "a", .bool true]
    let ctx : Context :=
      ⟨[("o", .object [("%\x7d", .list items)])], [[("y", .null)]], [], none, true⟩
    let text := "o['%\x7d']"
    let e : Expression := .path text [.key "o", .key "%\x7d"]
    Unreserved "x" ∧ Markup.Delimiter.tag.Absent text.toList ∧
    Markup.variableName? " x ".toList = some "x" ∧
    (∀ frame ∈ ctx.inner, Fields.get? frame "x" = none) ∧
    Pipeline.parse text = .ok e.alone ∧ (e.alone.evaluate i ctx []).outcome = .ok (.list items) ∧
    Markup.header? "x in o reversed" = some ⟨"x", .path "o" [.key "o"], true⟩ ∧
    Expression.parse text = .ok e ∧ e.outcome i ctx = .ok (.list items) ∧
    (∃ t, Template.parse .builtin "\x7b% assign x = o['%\x7d'] %\x7d\x7b\x7b x \x7d\x7d" = .ok t ∧
      (t.render i ctx).result = .ok (Value.list items).output) ∧
    ∃ t, Template.parse .builtin
        "\x7b% for x in o['%\x7d'] %\x7d\x7b\x7b x \x7d\x7d\x7b% endfor %\x7d" = .ok t ∧
      (t.render i ctx).result = .ok "atrue" := by
  intro i items ctx text e
  have hu : Unreserved "x" := by decide
  have ha : Markup.Delimiter.tag.Absent text.toList := by decide
  have hname : Markup.variableName? " x ".toList = some "x" := by decide
  have hframes : ∀ frame ∈ ctx.inner, Fields.get? frame "x" = none := by decide
  have hp : Pipeline.parse text = .ok e.alone := by cbv
  have hv : (e.alone.evaluate i ctx []).outcome = .ok (.list items) := by cbv
  have hheader : Markup.header? "x in o reversed" = some ⟨"x", .path "o" [.key "o"], true⟩ := by cbv
  have he : Expression.parse text = .ok e := by cbv
  have hx : e.outcome i ctx = .ok (.list items) := by cbv
  obtain ⟨hassign, hloop⟩ := render_binding i ctx hu ha
  exact ⟨hu, ha, hname, hframes, hp, hv, hheader, he, hx, hassign _ _ _ hname hframes hp hv,
    hloop _ _ _ _ _ hheader rfl (by decide) he hx (.list items)⟩

/-- Both tags take the name `nil`, but read back it is the literal. -/
theorem render_binding_nil :
    let i : Interpreter := ⟨.empty, .sync⟩
    let ctx : Context := { bottom := [] }
    let e : Expression := .literal "1" (.int 1)
    Markup.variableName? " nil ".toList = some "nil" ∧
    Markup.header? "nil in 1" = some ⟨"nil", e, false⟩ ∧
    Markup.Delimiter.tag.Absent "1".toList ∧
    Pipeline.parse "1" = .ok e.alone ∧ (e.alone.evaluate i ctx []).outcome = .ok (.int 1) ∧
    Expression.parse "1" = .ok e ∧ e.outcome i ctx = .ok (.int 1) ∧ (Value.int 1).Iterates [.int 1] ∧
    (Value.int 1).output = "1" ∧
    (∃ t, Template.parse .builtin (Markup.assigning "nil" "1") = .ok t ∧
      (t.render i ctx).result = .ok "") ∧
    ∃ t, Template.parse .builtin (Markup.looping "nil" "1") = .ok t ∧
      (t.render i ctx).result = .ok "" := by
  intro i ctx e
  let null : Pipeline := ⟨.literal "nil" .null, []⟩
  exact ⟨by decide, by cbv, by decide, by cbv, by cbv, by cbv, by cbv, .number _, by cbv,
    ⟨⟨none, [.assign "nil" e.alone, .output null]⟩, by cbv, by cbv⟩,
    ⟨⟨none, [.loop ⟨"nil", e, false⟩ [.output null] []]⟩, by cbv, by cbv⟩⟩

end Template

end Stencil
