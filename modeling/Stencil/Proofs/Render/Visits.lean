import Mathlib
import Stencil.Proofs.Render.Frames
import Stencil.Proofs.Render.Sequencing

/-!
# Where a render evaluates

`NodesVisit i ns st p v` says that rendering the nodes `ns` from the state `st` comes to evaluate the
pipeline `p` in the state `v`: it follows the interpreter through blocks and past what has rendered
well. A loop's collection counts as a pipeline without filters. A render of built-in tags fails only
with the error of an evaluation that it comes to (`renderNodes_error`).
-/

namespace Stencil

/-- The items that a loop goes over, in its order. -/
def LoopHeader.items (header : LoopHeader) (v : Value) : List Value :=
  if header.reversed then (iterationItems v).reverse else iterationItems v

/-- An expression as a pipeline without filters. -/
def Expression.alone (e : Expression) : Pipeline := ⟨e, []⟩

namespace Pipeline

/-- In the state `st` the pipeline has the value `v`, and leaves the state `st'`. -/
def Yields (i : Interpreter) (p : Pipeline) (st : RenderState) (v : Value) (st' : RenderState) : Prop :=
  (Rendering.evaluating (fun ctx => p.eval i ctx) st).result = .ok v st'

def FailsIn (i : Interpreter) (p : Pipeline) (st : RenderState) (e : Error) : Prop :=
  ∃ h, (p.eval i st.context st.history).result = .error e h

end Pipeline

mutual

inductive NodeVisits (i : Interpreter) : Node → RenderState → Pipeline → RenderState → Prop
  | output (p : Pipeline) (st : RenderState) : NodeVisits i (.output p) st p st
  | assign (name : String) (p : Pipeline) (st : RenderState) : NodeVisits i (.assign name p) st p st
  | capture {name : String} {body : List Node} {st v : RenderState} {p : Pipeline}
    (inside : NodesVisit i body { st with output := "" } p v) :
    NodeVisits i (.capture name body) st p v
  | conditional {negate : Bool} {branches : List Branch} {otherwise : List Node} {st v : RenderState}
    {p : Pipeline} (inside : BranchesVisit i negate otherwise branches st p v) :
    NodeVisits i (.conditional negate branches otherwise) st p v
  | collection (header : LoopHeader) (body otherwise : List Node) (st : RenderState) :
    NodeVisits i (.loop header body otherwise) st header.collection.alone st
  | body {header : LoopHeader} {body otherwise : List Node} {st st' v : RenderState} {p : Pipeline}
    {collection : Value} (before : header.collection.alone.Yields i st collection st')
    (inside : ItemsVisit i header.item body (header.items collection).length 0
      (header.items collection) st' p v) :
    NodeVisits i (.loop header body otherwise) st p v
  | otherwise {header : LoopHeader} {body otherwise : List Node} {st st' v : RenderState}
    {p : Pipeline} {collection : Value}
    (before : header.collection.alone.Yields i st collection st')
    (empty : header.items collection = []) (inside : NodesVisit i otherwise st' p v) :
    NodeVisits i (.loop header body otherwise) st p v

inductive NodesVisit (i : Interpreter) : List Node → RenderState → Pipeline → RenderState → Prop
  | head {n : Node} {rest : List Node} {st v : RenderState} {p : Pipeline}
    (inside : NodeVisits i n st p v) : NodesVisit i (n :: rest) st p v
  | tail {n : Node} {rest : List Node} {st st' v : RenderState} {p : Pipeline}
    (before : (n.render i st).result = .ok () st') (later : NodesVisit i rest st' p v) :
    NodesVisit i (n :: rest) st p v

inductive BranchesVisit (i : Interpreter) :
    Bool → List Node → List Branch → RenderState → Pipeline → RenderState → Prop
  | condition (negate : Bool) (otherwise : List Node) (c : Pipeline) (body : List Node)
    (rest : List Branch) (st : RenderState) :
    BranchesVisit i negate otherwise (.mk c body :: rest) st c st
  | body {negate : Bool} {otherwise : List Node} {c p : Pipeline} {body : List Node}
    {rest : List Branch} {st st' v : RenderState} {value : Value} (before : c.Yields i st value st')
    (holds : (value.truthy != negate) = true) (inside : NodesVisit i body st' p v) :
    BranchesVisit i negate otherwise (.mk c body :: rest) st p v
  | next {negate : Bool} {otherwise : List Node} {c p : Pipeline} {body : List Node}
    {rest : List Branch} {st st' v : RenderState} {value : Value} (before : c.Yields i st value st')
    (fails : (value.truthy != negate) = false) (later : BranchesVisit i negate otherwise rest st' p v) :
    BranchesVisit i negate otherwise (.mk c body :: rest) st p v
  | otherwise {negate : Bool} {otherwise : List Node} {p : Pipeline} {st v : RenderState}
    (inside : NodesVisit i otherwise st p v) : BranchesVisit i negate otherwise [] st p v

/-- The iterations from `k` of `n` on, each in its frame. -/
inductive ItemsVisit (i : Interpreter) :
    String → List Node → Nat → Nat → List Value → RenderState → Pipeline → RenderState → Prop
  | here {item : String} {body : List Node} {n k : Nat} {x : Value} {rest : List Value}
    {st v : RenderState} {p : Pipeline} (inside : NodesVisit i body
      { st with context := st.context.push (loopFrame item x k n) } p v) :
    ItemsVisit i item body n k (x :: rest) st p v
  | later {item : String} {body : List Node} {n k : Nat} {x : Value} {rest : List Value}
    {st st' v : RenderState} {p : Pipeline}
    (before : (Rendering.inFrame (loopFrame item x k n) (renderNodes i body) st).result = .ok () st')
    (later : ItemsVisit i item body n (k + 1) rest st' p v) :
    ItemsVisit i item body n k (x :: rest) st p v

end

/-! ## What is evaluated is part of the template -/

/-- The pipeline `p`, evaluated in `v`, reads what is listed, with the source that `st` has. -/
structure Pipeline.Within (p : Pipeline) (listed : List Access) (st v : RenderState) : Prop where
  source : v.context.source = st.context.source
  paths : ∀ a ∈ readings p.paths, a ∈ listed

namespace Pipeline.Within

variable {p : Pipeline} {listed listed' : List Access} {st st' v : RenderState}

theorem here (p : Pipeline) (st : RenderState) : p.Within (readings p.paths) st st :=
  ⟨rfl, fun _ h => h⟩

theorem widen (h : p.Within listed st v) (hl : ∀ a ∈ listed, a ∈ listed') : p.Within listed' st v :=
  ⟨h.source, fun a ha => hl a (h.paths a ha)⟩

theorem after (h : p.Within listed st' v) (hs : st'.context.source = st.context.source) :
    p.Within listed st v :=
  ⟨h.source.trans hs, h.paths⟩

end Pipeline.Within

section
variable {i : Interpreter}

theorem Rendering.Keeps.source_of_ok {α : Type} {m : Rendering α} (h : m.Keeps fun _ => True)
    {a : α} {st st' : RenderState} (hr : (m st).result = .ok a st') :
    st'.context.source = st.context.source := by
  have hk := h st
  rw [hr] at hk
  exact hk.source

theorem Pipeline.Yields.source {p : Pipeline} {st st' : RenderState} {v : Value}
    (h : p.Yields i st v st') : st'.context.source = st.context.source :=
  Rendering.Keeps.source_of_ok (.evaluating _) h

theorem renderNodes_keeps {ns : List Node} (hb : NodesBuiltin ns) :
    (renderNodes i ns).Keeps fun _ => True :=
  (Rendering.Keeps.laws i _).nodes ns hb fun _ _ => trivial

mutual

theorem NodeVisits.within : ∀ {n : Node} {st v : RenderState} {p : Pipeline},
    NodeVisits i n st p v → n.Builtin → p.Within n.accesses st v
  | _, _, _, _, .output p st, _ => by
    rw [Node.accesses]
    exact .here p st
  | _, _, _, _, .assign name p st, _ => by
    rw [Node.accesses]
    exact (Pipeline.Within.here p st).widen fun _ => List.mem_cons_of_mem _
  | _, _, _, _, .capture inside, hb => by
    simp only [Node.Builtin] at hb
    rw [Node.accesses]
    have hw := inside.within hb
    exact ⟨hw.source, fun a ha => List.mem_cons_of_mem _ (hw.paths a ha)⟩
  | _, _, _, _, .conditional inside, hb => by
    simp only [Node.Builtin] at hb
    rw [Node.accesses]
    exact inside.within hb.1 hb.2
  | _, _, _, _, .collection header body otherwise st, _ => by
    rw [Node.accesses]
    refine (Pipeline.Within.here _ st).widen fun _ h => List.mem_append_left _ ?_
    simpa [Pipeline.paths, Expression.alone] using h
  | _, _, _, _, .body before inside, hb => by
    simp only [Node.Builtin] at hb
    rw [Node.accesses]
    exact ((inside.within hb.1).after before.source).widen
      fun _ h => List.mem_append_right _ (List.mem_append_left _ h)
  | _, _, _, _, .otherwise before _ inside, hb => by
    simp only [Node.Builtin] at hb
    rw [Node.accesses]
    exact ((inside.within hb.2).after before.source).widen
      fun _ h => List.mem_append_right _ (List.mem_append_right _ h)

theorem NodesVisit.within : ∀ {ns : List Node} {st v : RenderState} {p : Pipeline},
    NodesVisit i ns st p v → NodesBuiltin ns → p.Within (nodesAccesses ns) st v
  | _, _, _, _, .head inside, hb => by
    simp only [NodesBuiltin] at hb
    rw [nodesAccesses]
    exact (inside.within hb.1).widen fun _ => List.mem_append_left _
  | _, _, _, _, .tail before later, hb => by
    simp only [NodesBuiltin] at hb
    rw [nodesAccesses]
    have hk := (Rendering.Keeps.laws i fun _ => True).on.node _
      (Node.plain_accesses _ hb.1 fun _ _ => trivial)
    exact ((later.within hb.2).after (hk.source_of_ok before)).widen fun _ => List.mem_append_right _

theorem BranchesVisit.within : ∀ {negate : Bool} {otherwise : List Node} {bs : List Branch}
    {st v : RenderState} {p : Pipeline}, BranchesVisit i negate otherwise bs st p v →
    BranchesBuiltin bs → NodesBuiltin otherwise →
    p.Within (branchesAccesses bs ++ nodesAccesses otherwise) st v
  | _, _, _, _, _, _, .condition negate otherwise c body rest st, _, _ => by
    rw [branchesAccesses, List.append_assoc]
    exact (Pipeline.Within.here c st).widen fun _ => List.mem_append_left _
  | _, _, _, _, _, _, .body before _ inside, hb, _ => by
    simp only [BranchesBuiltin] at hb
    rw [branchesAccesses]
    exact ((inside.within hb.1).after before.source).widen
      fun _ h => List.mem_append_left _ (List.mem_append_right _ (List.mem_append_left _ h))
  | _, _, _, _, _, _, .next before _ later, hb, ho => by
    simp only [BranchesBuiltin] at hb
    rw [branchesAccesses, List.append_assoc, List.append_assoc]
    exact ((later.within hb.2 ho).after before.source).widen
      fun _ h => List.mem_append_right _ (List.mem_append_right _ h)
  | _, _, _, _, _, _, .otherwise inside, _, ho => by
    rw [branchesAccesses]
    exact inside.within ho

theorem ItemsVisit.within : ∀ {item : String} {body : List Node} {n k : Nat} {items : List Value}
    {st v : RenderState} {p : Pipeline}, ItemsVisit i item body n k items st p v →
    NodesBuiltin body → p.Within (nodesAccesses body) st v
  | _, _, _, _, _, _, _, _, .here inside, hb => (inside.within hb).after rfl
  | _, _, _, _, _, _, _, _, .later before later, hb =>
    (later.within hb).after
      (Rendering.Keeps.source_of_ok (.inFrame _ (renderNodes_keeps hb)) before)

end

end

/-! ## Failures -/

section
variable {ε σ τ α β : Type}

theorem Ending.map_eq_error_iff {v : α → σ → β} {g : σ → τ} {r : Ending ε σ α} {e : ε} {t : τ} :
    r.map v g = .error e t ↔ ∃ s, r = .error e s ∧ g s = t := by
  cases r with
  | ok a s => simp [Ending.map]
  | error e' s =>
    constructor
    · intro h
      cases h
      exact ⟨s, rfl, rfl⟩
    · rintro ⟨s', h, rfl⟩
      cases h
      rfl

/-- A composed computation fails in its first part, or in its second after a good first one. -/
theorem Coroutine.result_bind_eq_error_iff {m : Coroutine ε σ α} {f : α → Coroutine ε σ β}
    {s s' : σ} {e : ε} : ((m >>= f) s).result = .error e s' ↔ (m s).result = .error e s' ∨
      ∃ a s₁, (m s).result = .ok a s₁ ∧ (f a s₁).result = .error e s' := by
  rw [Coroutine.result_bind]
  cases (m s).result <;> simp

end

section
variable {i : Interpreter} {e : Error}

theorem Rendering.evaluating_error {p : Pipeline} {st st' : RenderState}
    (h : (evaluating (fun ctx => p.eval i ctx) st).result = .error e st') : p.FailsIn i st e := by
  rw [evaluating, Polled.result_map, Ending.map_eq_error_iff] at h
  obtain ⟨history, h, -⟩ := h
  exact ⟨history, h⟩

/-- A pipeline without filters evaluates as its expression. -/
theorem Expression.eval_alone (x : Expression) (ctx : Context) : x.alone.eval i ctx = x.eval i ctx :=
  bind_pure (x.eval i ctx)

/-- Where the iterations fail, the body fails in the frame of one of them. -/
theorem iterate_error {item : String} {body : List Node} {n : Nat}
    (hbody : ∀ st st', (renderNodes i body st).result = .error e st' →
      ∃ p v, NodesVisit i body st p v ∧ p.FailsIn i v e)
    {items : List Value} {k : Nat} {st st' : RenderState}
    (h : (iterate item (renderNodes i body) n k items st).result = .error e st') :
    ∃ p v, ItemsVisit i item body n k items st p v ∧ p.FailsIn i v e := by
  induction items generalizing k st with
  | nil => cases h
  | cons x rest ih =>
    rcases Coroutine.result_bind_eq_error_iff.1 h with h | ⟨_, st₁, before, h⟩
    · rw [Rendering.inFrame, Polled.result_map, Ending.map_eq_error_iff] at h
      obtain ⟨inner, h, -⟩ := h
      obtain ⟨p, v, inside, fails⟩ := hbody _ _ h
      exact ⟨p, v, .here inside, fails⟩
    · obtain ⟨p, v, later, fails⟩ := ih h
      exact ⟨p, v, .later before later, fails⟩

mutual

theorem Node.render_error : ∀ (n : Node) (st : RenderState), n.Builtin → ∀ {st' : RenderState},
    (n.render i st).result = .error e st' → ∃ p v, NodeVisits i n st p v ∧ p.FailsIn i v e
  | .text _, _, _, _, h | .literal _, _, _, _, h => by
    rw [Node.render] at h
    cases h
  | .output p, st, _, _, h => by
    rw [Node.render] at h
    rcases Coroutine.result_bind_eq_error_iff.1 h with h | ⟨_, _, -, h⟩
    · exact ⟨p, st, .output p st, Rendering.evaluating_error h⟩
    · cases h
  | .conditional negate bs otherwise, st, hb, _, h => by
    simp only [Node.Builtin] at hb
    rw [Node.render] at h
    obtain ⟨p, v, inside, fails⟩ := renderBranches_error negate otherwise
      (fun st st' => renderNodes_error otherwise st hb.2) bs st hb.1 h
    exact ⟨p, v, .conditional inside, fails⟩
  | .loop header body otherwise, st, hb, _, h => by
    simp only [Node.Builtin] at hb
    rw [Node.render] at h
    simp only [← Expression.eval_alone] at h
    rcases Coroutine.result_bind_eq_error_iff.1 h with h | ⟨collection, st₁, before, h⟩
    · exact ⟨_, st, .collection header body otherwise st, Rendering.evaluating_error h⟩
    · change ((if (header.items collection).isEmpty then renderNodes i otherwise
        else iterate header.item (renderNodes i body) (header.items collection).length 0
          (header.items collection)) st₁).result = _ at h
      split at h
      · next empty =>
        obtain ⟨p, v, inside, fails⟩ := renderNodes_error otherwise st₁ hb.2 h
        exact ⟨p, v, .otherwise before (List.isEmpty_iff.1 empty) inside, fails⟩
      · obtain ⟨p, v, inside, fails⟩ :=
          iterate_error (fun st st' => renderNodes_error body st hb.1) h
        exact ⟨p, v, .body before inside, fails⟩
  | .assign name p, st, _, _, h => by
    rw [Node.render] at h
    rcases Coroutine.result_bind_eq_error_iff.1 h with h | ⟨_, _, -, h⟩
    · exact ⟨p, st, .assign name p st, Rendering.evaluating_error h⟩
    · cases h
  | .capture name body, st, hb, _, h => by
    simp only [Node.Builtin] at hb
    rw [Node.render] at h
    rcases Coroutine.result_bind_eq_error_iff.1 h with h | ⟨_, _, -, h⟩
    · rw [Rendering.capturing, Polled.result_map, Ending.map_eq_error_iff] at h
      obtain ⟨inner, h, -⟩ := h
      obtain ⟨p, v, inside, fails⟩ := renderNodes_error body _ hb h
      exact ⟨p, v, .capture inside, fails⟩
    · cases h

/-- A rendering of built-in tags fails only with the error of an evaluation that it comes to. -/
theorem renderNodes_error : ∀ (ns : List Node) (st : RenderState), NodesBuiltin ns →
    ∀ {st' : RenderState}, (renderNodes i ns st).result = .error e st' →
    ∃ p v, NodesVisit i ns st p v ∧ p.FailsIn i v e
  | [], _, _, _, h => by
    rw [renderNodes] at h
    cases h
  | n :: rest, st, hb, _, h => by
    simp only [NodesBuiltin] at hb
    rw [renderNodes] at h
    rcases Coroutine.result_bind_eq_error_iff.1 h with h | ⟨_, st₁, before, h⟩
    · obtain ⟨p, v, inside, fails⟩ := n.render_error st hb.1 h
      exact ⟨p, v, .head inside, fails⟩
    · obtain ⟨p, v, later, fails⟩ := renderNodes_error rest st₁ hb.2 h
      exact ⟨p, v, .tail before later, fails⟩

theorem renderBranches_error (negate : Bool) (otherwise : List Node)
    (ho : ∀ st st', (renderNodes i otherwise st).result = .error e st' →
      ∃ p v, NodesVisit i otherwise st p v ∧ p.FailsIn i v e) :
    ∀ (bs : List Branch) (st : RenderState), BranchesBuiltin bs → ∀ {st' : RenderState},
    (renderBranches i negate bs (renderNodes i otherwise) st).result = .error e st' →
    ∃ p v, BranchesVisit i negate otherwise bs st p v ∧ p.FailsIn i v e
  | [], st, _, _, h => by
    rw [renderBranches] at h
    obtain ⟨p, v, inside, fails⟩ := ho _ _ h
    exact ⟨p, v, .otherwise inside, fails⟩
  | .mk c body :: rest, st, hb, _, h => by
    simp only [BranchesBuiltin] at hb
    rw [renderBranches] at h
    rcases Coroutine.result_bind_eq_error_iff.1 h with h | ⟨value, st₁, before, h⟩
    · exact ⟨c, st, .condition negate otherwise c body rest st, Rendering.evaluating_error h⟩
    · split at h
      · next holds =>
        obtain ⟨p, v, inside, fails⟩ := renderNodes_error body st₁ hb.1 h
        exact ⟨p, v, .body before holds inside, fails⟩
      · next holds =>
        obtain ⟨p, v, later, fails⟩ := renderBranches_error negate otherwise ho rest st₁ hb.2 h
        exact ⟨p, v, .next before (by simpa using holds) later, fails⟩

end

end

end Stencil
