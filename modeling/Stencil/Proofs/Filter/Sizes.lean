import Stencil.Filter.List
import Stencil.Proofs.Render.Looping

/-!
# Sizes

The size of a list or an object is the number of iterations of a loop over it, unless an object has a
field of its own named `size`. `Iterations` says how the iterations of a loop end: each renders the body
in a frame of its own, and the first that fails is the last.
-/

namespace Stencil

/-- How the iterations from `k` up to `n` end: the body renders in the frame of each, one after another,
up to the first failure. -/
inductive Iterations (item : String) (body : Rendering Unit) (n : Nat) :
    Nat → RenderState → Ending Error RenderState Unit → Prop
  | done (st : RenderState) : Iterations item body n n st (.ok () st)
  | next {k : Nat} {x : Value} {st st' : RenderState} {r : Ending Error RenderState Unit} (hk : k < n)
    (good : (body (st.entered (loopFrame item x k n))).result = .ok () st')
    (further : Iterations item body n (k + 1) st'.left r) : Iterations item body n k st r
  | fails {k : Nat} {x : Value} {st st' : RenderState} {e : Error} (hk : k < n)
    (bad : (body (st.entered (loopFrame item x k n))).result = .error e st') :
    Iterations item body n k st (.error e st'.left)

/-- There is an iteration for every item. -/
theorem iterate_iterations (item : String) (body : Rendering Unit) (n : Nat) (xs : List Value)
    {k : Nat} (hk : k + xs.length = n) (st : RenderState) :
    Iterations item body n k st (iterate item body n k xs st).result := by
  -- `n` stays, as the number of items that are left and of iterations that are done
  induction xs generalizing k st with
  | nil =>
    obtain rfl : k = n := by simpa using hk
    exact .done st
  | cons x rest ih =>
    rw [List.length_cons] at hk
    have hlt : k < n := by omega
    rw [iterate_cons]
    cases hb : (body (st.entered (loopFrame item x k n))).result with
    | ok u st' => exact .next hlt hb (ih (by omega) st'.left)
    | error e st' => exact .fails hlt hb

/-- Where the collection has a value, the loop goes over the items of it. -/
theorem Node.result_loop {header : LoopHeader} (body otherwise : List Node) (i : Interpreter)
    {st : RenderState} {v : Value} {history : List Event}
    (hv : (header.collection.eval i st.context st.history).result = .ok v history) :
    ((Node.loop header body otherwise).render i st).result =
      ((if (header.items v).isEmpty then renderNodes i otherwise
        else iterate header.item (renderNodes i body) (header.items v).length 0 (header.items v))
        { st with history }).result := by
  rw [Node.render, Rendering.result_evaluating_bind, hv]
  rfl

theorem LoopHeader.length_items (header : LoopHeader) (v : Value) :
    (header.items v).length = (iterationItems v).length := by
  unfold items
  split
  · exact List.length_reverse
  · rfl

namespace Value

/-- Every `for` tag over the value has `n` iterations: with none it is its other body, else the body
renders so many times, up to the first failure. In either mode a run of built-in tags ends so. -/
def Repeats (v : Value) (n : Nat) : Prop :=
  ∀ (header : LoopHeader) (body otherwise : List Node) (i : Interpreter) (st : RenderState)
    (history : List Event),
    (header.collection.eval i st.context st.history).result = .ok v history →
    let loop := (Node.loop header body otherwise).render i st
    let start : RenderState := { st with history }
    (n = 0 → loop.result = (renderNodes i otherwise start).result) ∧
    (n ≠ 0 → Iterations header.item (renderNodes i body) n 0 start loop.result) ∧
    (NodesBuiltin body → NodesBuiltin otherwise → i.mode.drive loop = loop.result)

theorem repeats_iterationItems (v : Value) : v.Repeats (iterationItems v).length := by
  intro header body otherwise i st history hv loop start
  have hlength := header.length_items v
  have hloop := Node.result_loop body otherwise i hv
  refine ⟨fun hzero => ?_, fun hpos => ?_, fun hb ho => ?_⟩
  · have hempty : (header.items v).isEmpty = true :=
      List.isEmpty_iff_length_eq_zero.2 (hlength.trans hzero)
    rwa [if_pos hempty] at hloop
  · have hne : ¬ (header.items v).isEmpty = true := by
      rw [List.isEmpty_iff_length_eq_zero, hlength]
      exact hpos
    rw [if_neg hne, hlength] at hloop
    show Iterations _ _ _ 0 start ((Node.loop header body otherwise).render i st).result
    rw [hloop]
    exact iterate_iterations _ _ _ _ (by omega) start
  · have hn : NodesBuiltin [.loop header body otherwise] := ⟨⟨hb, ho⟩, trivial⟩
    have hd := Mode.drive_renderNodes i hn st
    rwa [renderNodes_singleton] at hd

/-- What the size of a value is to be: the iterations of a list or an object, the characters of a text,
and zero for all else. -/
inductive HasSize : Value → Nat → Prop where
  | list {items : List Value} {n : Nat} (repeats : (list items).Repeats n) : HasSize (.list items) n
  | object {fields : Fields} {n : Nat} (repeats : (object fields).Repeats n) :
    HasSize (.object fields) n
  | text (s : String) : HasSize (.text s) s.length
  | null : HasSize .null 0
  | bool (b : Bool) : HasSize (.bool b) 0
  | number (n : Number) : HasSize (.number n) 0

theorem HasSize.of_object {fields : Fields} {n : Nat} (h : (Value.object fields).HasSize n) :
    (Value.object fields).Repeats n := by
  cases h with
  | object repeats => exact repeats

end Value

namespace Filter

/-- An object's own field comes before the number of its fields. -/
theorem size_object (fields : Fields) (args : Arguments) : size (.object fields) args =
    .ok (.settled ((Fields.get? fields "size").getD (.int fields.length))) := by
  show Except.ok (Resolution.settled ((Value.object fields).property (.text "size"))) = _
  rw [Value.property]
  cases Fields.get? fields "size" <;> rfl

/-- **Sizes count iterations.** Let an object's own field not be named `size`, unless it is the number
of the fields. Then the size of a value is a natural number: for a list or an object the number of
iterations of every loop over it, for a text the number of characters, and zero for all else. -/
theorem size_eq_iterations {v : Value} (hown : ∀ fields, v = .object fields →
      ∀ x, Fields.get? fields "size" = some x → x = .int fields.length) (args : Arguments) :
    ∃ n : Nat, size v args = .ok (.settled (.int n)) ∧ v.HasSize n := by
  have hrepeats := v.repeats_iterationItems
  cases v with
  | list items => exact ⟨items.length, rfl, .list hrepeats⟩
  | object fields =>
    rw [iterationItems, List.length_map] at hrepeats
    refine ⟨fields.length, ?_, .object hrepeats⟩
    rw [size_object]
    cases hx : Fields.get? fields "size" with
    | none => rfl
    | some x =>
      rw [hown fields rfl x hx]
      rfl
  | text s => exact ⟨s.length, rfl, .text s⟩
  | null => exact ⟨0, rfl, .null⟩
  | bool b => exact ⟨0, rfl, .bool b⟩
  | number n => exact ⟨0, rfl, .number n⟩

/-- An object with a field `size` that is the number of its fields, gone over backwards. -/
theorem size_eq_iterations_own :
    let v : Value := .object [("a", .null), ("size", .int 2)]
    let header : LoopHeader := ⟨"x", .path "o" [.key "o"], true⟩
    let i : Interpreter := ⟨.empty, .sync⟩
    let st : RenderState := ⟨⟨[("o", v)], [], [], none, true⟩, "", []⟩
    let loop := (Node.loop header [.text "."] []).render i st
    (∀ fields, v = .object fields →
      ∀ x, Fields.get? fields "size" = some x → x = .int fields.length) ∧
    size v ⟨[], none⟩ = .ok (.settled (.int 2)) ∧
    Iterations "x" (renderNodes i [.text "."]) 2 0 st (i.mode.drive loop) ∧
    (i.mode.drive loop).state.output = ".." := by
  intro v header i st loop
  have hown : ∀ fields, v = .object fields →
      ∀ x, Fields.get? fields "size" = some x → x = .int fields.length := by
    rintro fields hfields x hx
    obtain rfl : _ = fields := Value.object.inj hfields
    exact (Option.some.inj hx).symm
  have hv : (header.collection.eval i st.context st.history).result = .ok v [] := by cbv
  obtain ⟨n, hn, hsize⟩ := size_eq_iterations hown ⟨[], none⟩
  obtain rfl : n = 2 := by
    have hint : (2 : Int) = n :=
      Number.int.inj (Value.number.inj (Resolution.settled.inj (Except.ok.inj hn)))
    omega
  obtain ⟨-, hloop, hdrive⟩ := Value.HasSize.of_object hsize header [.text "."] [] i st [] hv
  have hb : NodesBuiltin [.text "."] := ⟨trivial, trivial⟩
  refine ⟨hown, hn, ?_, by cbv⟩
  rw [hdrive hb trivial]
  exact hloop (by decide)

/-- A loop over this object has one iteration, but its size is its field of that name. -/
theorem size_own_field :
    let v : Value := .object [("size", .text "L")]
    v.HasSize 1 ∧ size v ⟨[], none⟩ = .ok (.settled (.text "L")) ∧
    ¬ ∃ n : Nat, size v ⟨[], none⟩ = .ok (.settled (.int n)) ∧ v.HasSize n := by
  refine ⟨.object (Value.repeats_iterationItems _), rfl, ?_⟩
  rintro ⟨n, hn, -⟩
  cases hn

end Filter

end Stencil
