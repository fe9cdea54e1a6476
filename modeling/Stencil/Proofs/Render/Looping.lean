import Stencil.Proofs.Render.Endings
import Stencil.Proofs.Render.Visits

/-!
# Loops

A loop renders its body once for each item, in order, from the state that the iteration before has left
and with a frame of its own on top. The first iteration that fails ends it. `iterate_result` says so of
the iterations from any one on; `Node.render_loop` is the whole loop, with what it goes over and what
the frames hold.
-/

namespace Stencil

/-! ## Items -/

/-- The items that a value is made of, as a loop goes over it: for an object a pair of name and value for
each field, in the order of the fields. -/
inductive Value.Iterates : Value → List Value → Prop
  | list (items : List Value) : Iterates (.list items) items
  | object (fields : Fields) : Iterates (.object fields) (fields.map fun f => .list [.text f.1, f.2])
  | null : Iterates .null []
  | emptyText : Iterates (.text "") []
  | text {s : String} (h : s ≠ "") : Iterates (.text s) [.text s]
  | bool (b : Bool) : Iterates (.bool b) [.bool b]
  | number (n : Number) : Iterates (.number n) [.number n]

theorem iterates_iterationItems (v : Value) : v.Iterates (iterationItems v) := by
  cases v with
  | text s =>
    by_cases h : s = ""
    · subst h
      exact .emptyText
    · rw [iterationItems, if_neg (by simpa using h)]
      exact .text h
  | _ => constructor

/-- The pairs of an object are those that its look-up finds. -/
theorem pair_mem_iterationItems {fields : Fields} (h : fields.Ascending) (name : String) (x : Value) :
    .list [.text name, x] ∈ iterationItems (.object fields) ↔ Fields.get? fields name = some x := by
  rw [h.get?_eq_some_iff, iterationItems, List.mem_map]
  constructor
  · rintro ⟨f, hf, e⟩
    cases e
    exact hf
  · intro hf
    exact ⟨(name, x), hf, rfl⟩

/-! ## Frames -/

/-- The counters are those of the integers: below `n` nothing is cut off at zero. -/
theorem loopCounters_eq {k n : Nat} (h : k < n) : loopCounters k n = .object [
    ("first", .bool (decide (k = 0))), ("index", .int (k + 1)), ("index0", .int k),
    ("last", .bool (decide (k = n - 1))), ("length", .int n), ("rindex", .int ((n : Int) - k)),
    ("rindex0", .int ((n : Int) - k - 1))] := by
  have hlast : (k + 1 == n) = decide (k = n - 1) := decide_eq_decide.2 (by omega)
  have hr : ((n - k : Nat) : Int) = (n : Int) - k := by omega
  have hr0 : ((n - k - 1 : Nat) : Int) = (n : Int) - k - 1 := by omega
  rw [loopCounters, hlast, hr, hr0]
  rfl

theorem get?_loopFrame {item : String} (h : item ≠ "forloop") (x : Value) (k n : Nat)
    (name : String) : Fields.get? (loopFrame item x k n) name =
      if name = item then some x else if name = "forloop" then some (loopCounters k n) else none := by
  simp only [loopFrame, Fields.get?_insert, Fields.get?_nil]
  by_cases hn : name = item
  · rw [if_pos hn, if_pos hn, if_neg (hn ▸ h)]
  · rw [if_neg hn, if_neg hn]

/-! ## Iterations -/

namespace RenderState

/-- The state inside the frame. -/
def entered (st : RenderState) (frame : Fields) : RenderState :=
  { st with context := st.context.push frame }

/-- The state once the innermost frame is popped. -/
def left (st : RenderState) : RenderState := { st with context := st.context.pop }

end RenderState

section
variable (item : String) (body : Rendering Unit) (n : Nat)

/-- The body in the frame of the first item, and after a good end the iterations that are left. -/
theorem iterate_cons (k : Nat) (x : Value) (rest : List Value) (st : RenderState) :
    (iterate item body n k (x :: rest) st).result =
      match (body (st.entered (loopFrame item x k n))).result with
      | .ok _ st' => (iterate item body n (k + 1) rest st'.left).result
      | .error e st' => .error e st'.left := by
  rw [iterate, Coroutine.result_bind, Rendering.inFrame, Polled.result_map]
  unfold RenderState.entered
  cases (body { st with context := st.context.push (loopFrame item x k n) }).result <;> rfl

/-- The iterations from `k` on render the body for the items one after another, `before j` and
`after j` being the states around the body for `xs[j]`, up to the first that fails. -/
theorem iterate_result (xs : List Value) (k : Nat) (st : RenderState) :
    ∃ (m : Nat) (before after : Nat → RenderState), before 0 = st ∧ m ≤ xs.length ∧
      (∀ j (hj : j < xs.length), j < m →
        (body ((before j).entered (loopFrame item xs[j] (k + j) n))).result = .ok () (after j) ∧
        before (j + 1) = (after j).left) ∧
      (m = xs.length ∧ (iterate item body n k xs st).result = .ok () (before m) ∨
        ∃ (hm : m < xs.length) (e : Error) (failed : RenderState),
          (body ((before m).entered (loopFrame item xs[m] (k + m) n))).result = .error e failed ∧
          (iterate item body n k xs st).result = .error e failed.left) := by
  induction xs generalizing k st with
  | nil => exact ⟨0, fun _ => st, fun _ => st, rfl, le_rfl, nofun, .inl ⟨rfl, rfl⟩⟩
  | cons x rest ih =>
    cases hb : (body (st.entered (loopFrame item x k n))).result with
    | error e failed =>
      refine ⟨0, fun _ => st, fun _ => st, rfl, Nat.zero_le _, nofun, .inr ⟨by simp, e, failed, hb, ?_⟩⟩
      rw [iterate_cons, hb]
    | ok u inner =>
      obtain ⟨m, before, after, h0, hm, hsteps, hend⟩ := ih (k + 1) inner.left
      have hshift (j : Nat) : k + 1 + j = k + (j + 1) := by omega
      simp only [hshift] at hsteps hend
      refine ⟨m + 1, fun j => j.casesOn st before, fun j => j.casesOn inner after, rfl,
        Nat.succ_le_succ hm, fun j hj hjm => ?_, ?_⟩
      · cases j with
        | zero => exact ⟨hb, h0⟩
        | succ j => exact hsteps j (Nat.lt_of_succ_lt_succ hj) (Nat.lt_of_succ_lt_succ hjm)
      · rw [iterate_cons, hb]
        rcases hend with ⟨rfl, hr⟩ | ⟨hm', e, failed, hf, hr⟩
        · exact .inl ⟨rfl, hr⟩
        · exact .inr ⟨Nat.succ_lt_succ hm', e, failed, hf, hr⟩

end

/-- **Loops.** Let the collection of a `for` tag, whose variable is not `forloop`, have the value `v`. An
object is gone over by its names, which ascend, each with the value that it has. Without items the loop
is its other body. Else the body renders for the items `xs`, in order or in reverse: iteration `k` in
what iteration `k - 1` left, with a frame pushed that holds the item and the counters of `k`, and nothing
else; then the frame is popped. The first iteration that fails ends the loop with its error, else all
are rendered. In either mode a run of built-in tags ends so. -/
theorem Node.render_loop {header : LoopHeader} (hitem : header.item ≠ "forloop")
    (body otherwise : List Node) (i : Interpreter) {st : RenderState} {v : Value}
    {history : List Event}
    (hv : (header.collection.eval i st.context st.history).result = .ok v history) :
    ∃ items, v.Iterates items ∧
    (∀ fields, v = .object fields → Fields.Ascending fields → ∀ name x,
      .list [.text name, x] ∈ items ↔ Fields.get? fields name = some x) ∧
    let xs := if header.reversed then items.reverse else items
    let n := xs.length
    let start : RenderState := { st with history }
    let loop := (Node.loop header body otherwise).render i st
    (xs = [] → loop.result = (renderNodes i otherwise start).result) ∧
    (xs ≠ [] → ∃ (m : Nat) (before after : Nat → RenderState), before 0 = start ∧ m ≤ n ∧
      (∀ k (hk : k < n), k < m →
        (renderNodes i body ((before k).entered (loopFrame header.item xs[k] k n))).result =
          .ok () (after k) ∧ before (k + 1) = (after k).left) ∧
      (m = n ∧ loop.result = .ok () (before n) ∨
        ∃ (hm : m < n) (e : Error) (failed : RenderState),
          (renderNodes i body ((before m).entered (loopFrame header.item xs[m] m n))).result =
            .error e failed ∧ loop.result = .error e failed.left)) ∧
    (∀ k (hk : k < n) name, Fields.get? (loopFrame header.item xs[k] k n) name =
      if name = header.item then some xs[k]
      else if name = "forloop" then some (.object [
        ("first", .bool (decide (k = 0))), ("index", .int (k + 1)), ("index0", .int k),
        ("last", .bool (decide (k = n - 1))), ("length", .int n), ("rindex", .int ((n : Int) - k)),
        ("rindex0", .int ((n : Int) - k - 1))])
      else none) ∧
    (NodesBuiltin body → NodesBuiltin otherwise → i.mode.drive loop = loop.result) := by
  refine ⟨iterationItems v, iterates_iterationItems v, ?_, ?_⟩
  · rintro fields rfl hfields
    exact pair_mem_iterationItems hfields
  intro xs n start loop
  have hloop : loop.result = ((if xs.isEmpty then renderNodes i otherwise
      else iterate header.item (renderNodes i body) n 0 xs) start).result := by
    simp only [loop, Node.render, Rendering.result_evaluating_bind, hv, xs, n, start]
  refine ⟨fun hxs => ?_, fun hxs => ?_, fun k hk name => ?_, fun hb ho => ?_⟩
  · rw [hloop, hxs]
    rfl
  · rw [if_neg (by simpa using hxs)] at hloop
    rw [hloop]
    obtain ⟨m, before, after, h0, hm, hsteps, hend⟩ :=
      iterate_result header.item (renderNodes i body) n xs 0 start
    simp only [Nat.zero_add] at hsteps hend
    refine ⟨m, before, after, h0, hm, hsteps, ?_⟩
    rcases hend with ⟨rfl, hr⟩ | hend
    · exact .inl ⟨rfl, hr⟩
    · exact .inr hend
  · rw [get?_loopFrame hitem, loopCounters_eq hk]
  · have hn : NodesBuiltin [.loop header body otherwise] := ⟨⟨hb, ho⟩, trivial⟩
    have hd := Mode.drive_renderNodes i hn st
    rwa [renderNodes_singleton] at hd

/-- Over an object, backwards; the last iteration comes to a filter that is not known. -/
theorem Node.render_loop_failing :
    let header : LoopHeader := ⟨"x", .path "o" [.key "o"], true⟩
    let isLast : Pipeline := ⟨.path "forloop.last" [.key "forloop", .key "last"], []⟩
    let body : List Node := [.output ⟨.path "x[0]" [.key "x", .index 0], []⟩,
      .conditional false [.mk isLast [.output ⟨.path "x" [.key "x"], [⟨"missing", []⟩]⟩]] []]
    let v : Value := .object [("a", .bool true), ("b", .null)]
    let st : RenderState := ⟨⟨[("o", v)], [], [], none, true⟩, "", []⟩
    let i : Interpreter := ⟨.empty, .sync⟩
    header.item ≠ "forloop" ∧ (header.collection.eval i st.context st.history).result = .ok v [] ∧
    (i.mode.drive ((Node.loop header body []).render i st)).state.output = "ba" ∧
    ∃ failed : RenderState, i.mode.drive ((Node.loop header body []).render i st) =
      .error (.unknownFilter "missing") failed.left := by
  intro header isLast body v st i
  have hitem : header.item ≠ "forloop" := by decide
  have hv : (header.collection.eval i st.context st.history).result = .ok v [] := by cbv
  have hout : (i.mode.drive ((Node.loop header body []).render i st)).state.output = "ba" := by cbv
  have herror : (i.mode.drive ((Node.loop header body []).render i st)).outcome =
      .error (.unknownFilter "missing") := by cbv
  refine ⟨hitem, hv, hout, ?_⟩
  obtain ⟨items, hitems, -, -, hrun, -, hdrive⟩ := Node.render_loop hitem body [] i hv
  have hb : NodesBuiltin body := ⟨trivial, ⟨⟨⟨trivial, trivial⟩, trivial⟩, trivial⟩, trivial⟩
  rw [hdrive hb trivial] at herror ⊢
  have hxs : (if header.reversed then items.reverse else items) ≠ [] := by
    change (Value.object [("a", .bool true), ("b", .null)]).Iterates items at hitems
    cases hitems
    simp [header]
  obtain ⟨m, before, after, -, -, -, hend⟩ := hrun hxs
  rcases hend with ⟨-, hr⟩ | ⟨-, e, failed, -, hr⟩
  · rw [hr] at herror
    cases herror
  · rw [hr] at herror
    cases herror
    exact ⟨failed, hr⟩

end Stencil
