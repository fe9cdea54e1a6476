import Stencil.Proofs.Markup.Accesses
import Stencil.Proofs.Render.Coupling
import Stencil.Render.Interpreter

/-!
# Transport through the interpreter

Two runs of one template correspond if their primitive steps do. `EvaluationLaws` lists these steps for
the evaluation of expressions, `RenderingLaws` for the rendering of nodes of built-in tags. The forms
`EvaluationLawsOn` and `RenderingLawsOn` ask less: they speak of the steps that some accesses need. The
transport theorems go by recursion over expressions and nodes, with one law for each clause.
-/

namespace Stencil

variable {i₁ i₂ : Interpreter} {c₁ c₂ : Context}

/-! ## Evaluation -/

/-- What a coupling has to say of the steps of an evaluation. -/
structure EvaluationLaws (i₁ i₂ : Interpreter) (c₁ c₂ : Context) (R : Coupling Error (List Event)) :
    Prop extends Sequential R where
  fail {α : Type} (e : Error) : R α (.fail e) (.fail e)
  variableValue (spelling name : String) :
    R Value (i₁.variableValue c₁ spelling name) (i₂.variableValue c₂ spelling name)
  /-- The same filters are known. -/
  known (name : String) :
    (i₁.filters.lookup name).isSome = (i₂.filters.lookup name).isSome
  call (name : String) {f₁ f₂ : Filter} (h₁ : i₁.filters.lookup name = some f₁)
    (h₂ : i₂.filters.lookup name = some f₂) (input : Value) (args : Arguments) :
    R Value (i₁.call name f₁ input args) (i₂.call name f₂ input args)

/-- What it has to say of the evaluation of expressions if only paths in `N` are read. -/
structure ExpressionLawsOn (N : String → Segment → Prop) (i₁ i₂ : Interpreter) (c₁ c₂ : Context)
    (R : Coupling Error (List Event)) : Prop extends Sequential R where
  fail {α : Type} (e : Error) : R α (.fail e) (.fail e)
  variableValue {spelling : String} {head : Segment} (h : N spelling head) {name : String}
    (hn : head.Names name) :
    R Value (i₁.variableValue c₁ spelling name) (i₂.variableValue c₂ spelling name)

/-- What it has to say if only paths in `N` are read. -/
structure EvaluationLawsOn (N : String → Segment → Prop) (i₁ i₂ : Interpreter) (c₁ c₂ : Context)
    (R : Coupling Error (List Event)) : Prop extends ExpressionLawsOn N i₁ i₂ c₁ c₂ R where
  known (name : String) :
    (i₁.filters.lookup name).isSome = (i₂.filters.lookup name).isSome
  call (name : String) {f₁ f₂ : Filter} (h₁ : i₁.filters.lookup name = some f₁)
    (h₂ : i₂.filters.lookup name = some f₂) (input : Value) (args : Arguments) :
    R Value (i₁.call name f₁ input args) (i₂.call name f₂ input args)

namespace ExpressionLawsOn

variable {N : String → Segment → Prop} {R : Coupling Error (List Event)}
  (laws : ExpressionLawsOn N i₁ i₂ c₁ c₂ R)
include laws

theorem lift {α : Type} (r : Except Error α) : R α (.lift r) (.lift r) := by
  cases r with
  | ok a => exact laws.pure a
  | error e => exact laws.fail e

mutual

theorem expression : ∀ e : Expression, (∀ q ∈ e.paths, N q.1 q.2) →
    R Value (e.eval i₁ c₁) (e.eval i₂ c₂)
  | .literal _ v, _ => by
    simp only [Expression.eval]
    exact laws.pure v
  | .path _ [], _ => by
    simp only [Expression.eval]
    exact laws.pure Value.null
  | .path spelling (head :: rest), h => by
    simp only [Expression.paths, List.forall_mem_cons, List.forall_mem_append] at h
    obtain ⟨hhead, hpaths, hrest⟩ := h
    have follow (name : String) (hn : head.Names name) :
        R Value (i₁.variableValue c₁ spelling name >>= fun v => Stencil.walk i₁ c₁ v rest)
          (i₂.variableValue c₂ spelling name >>= fun v => Stencil.walk i₂ c₂ v rest) :=
      laws.bind (laws.variableValue hhead hn) fun v => walk rest hrest v
    cases head with
    | key k =>
      simp only [Expression.eval, Segment.headName]
      exact follow k rfl
    | index n =>
      simp only [Expression.eval, Segment.headName]
      exact follow (toString n) rfl
    | computed e =>
      simp only [Expression.eval, Segment.headName]
      refine laws.bind ?_ fun name => follow name trivial
      exact laws.bind (expression e hpaths) fun v => laws.pure v.output
  | .range _ first last, h => by
    simp only [Expression.paths, List.forall_mem_append] at h
    simp only [Expression.eval]
    refine laws.bind (expression first h.1) fun a => ?_
    exact laws.bind (expression last h.2) fun b => laws.lift _

theorem property : ∀ s : Segment, (∀ q ∈ s.paths, N q.1 q.2) →
    R Value (s.property i₁ c₁) (s.property i₂ c₂)
  | .key name, _ => by
    simp only [Segment.property]
    exact laws.pure (Value.text name)
  | .index n, _ => by
    simp only [Segment.property]
    exact laws.pure (Value.int n)
  | .computed e, h => by
    simp only [Segment.property]
    exact expression e h

theorem walk : ∀ segments : List Segment, (∀ q ∈ segmentsPaths segments, N q.1 q.2) → ∀ v : Value,
    R Value (Stencil.walk i₁ c₁ v segments) (Stencil.walk i₂ c₂ v segments)
  | [], _, v => by
    simp only [Stencil.walk]
    exact laws.pure v
  | s :: rest, h, v => by
    simp only [segmentsPaths, List.forall_mem_append] at h
    simp only [Stencil.walk]
    exact laws.bind (property s h.1) fun key => walk rest h.2 (v.property key)

end

theorem arguments (as : List Argument) (h : ∀ a ∈ as, ∀ q ∈ a.value.paths, N q.1 q.2)
    (args : Arguments) : R Arguments (i₁.arguments c₁ args as) (i₂.arguments c₂ args as) := by
  induction as generalizing args with
  | nil => exact laws.pure args
  | cons a rest ih =>
    obtain ⟨ha, hrest⟩ := List.forall_mem_cons.1 h
    exact laws.bind (laws.expression a.value ha) fun v => ih hrest (args.add a.key v)

end ExpressionLawsOn

namespace EvaluationLawsOn

variable {N : String → Segment → Prop} {R : Coupling Error (List Event)}
  (laws : EvaluationLawsOn N i₁ i₂ c₁ c₂ R)
include laws

theorem apply (input : Value) (f : Invocation) (h : ∀ q ∈ f.paths, N q.1 q.2) :
    R Value (i₁.apply c₁ input f) (i₂.apply c₂ input f) := by
  have ha : ∀ a ∈ f.arguments, ∀ q ∈ a.value.paths, N q.1 q.2 :=
    fun a ha q hq => h q (List.mem_flatMap.2 ⟨a, ha, hq⟩)
  have hk := laws.known f.name
  unfold Interpreter.apply FilterTable.find
  cases h₁ : i₁.filters.lookup f.name with
  | none =>
    cases h₂ : i₂.filters.lookup f.name with
    | none => exact laws.fail (.unknownFilter f.name)
    | some f₂ => simp [h₁, h₂] at hk
  | some f₁ =>
    cases h₂ : i₂.filters.lookup f.name with
    | none => simp [h₁, h₂] at hk
    | some f₂ =>
      -- a filter that is found is no step of its own
      change R Value (i₁.arguments c₁ _ f.arguments >>= fun args => i₁.call f.name f₁ input args)
        (i₂.arguments c₂ _ f.arguments >>= fun args => i₂.call f.name f₂ input args)
      exact laws.bind (laws.arguments f.arguments ha _) fun args => laws.call f.name h₁ h₂ input args

theorem applyAll (fs : List Invocation) (h : ∀ q ∈ fs.flatMap Invocation.paths, N q.1 q.2)
    (input : Value) : R Value (i₁.applyAll c₁ input fs) (i₂.applyAll c₂ input fs) := by
  induction fs generalizing input with
  | nil => exact laws.pure input
  | cons f rest ih =>
    simp only [List.flatMap_cons, List.forall_mem_append] at h
    exact laws.bind (laws.apply input f h.1) (ih h.2)

theorem pipeline (p : Pipeline) (h : ∀ q ∈ p.paths, N q.1 q.2) :
    R Value (p.eval i₁ c₁) (p.eval i₂ c₂) := by
  obtain ⟨hinitial, hfilters⟩ := List.forall_mem_append.1 h
  exact laws.bind (laws.expression p.initial hinitial) fun v => laws.applyAll p.filters hfilters v

end EvaluationLawsOn

namespace EvaluationLaws

variable {R : Coupling Error (List Event)} (laws : EvaluationLaws i₁ i₂ c₁ c₂ R)
include laws

/-- The laws hold whatever is read. -/
theorem on : EvaluationLawsOn (fun _ _ => True) i₁ i₂ c₁ c₂ R where
  toSequential := laws.toSequential
  fail := laws.fail
  variableValue _ _ _ := laws.variableValue _ _
  known := laws.known
  call := laws.call

theorem expression (e : Expression) : R Value (e.eval i₁ c₁) (e.eval i₂ c₂) :=
  laws.on.expression e fun _ _ => trivial

theorem pipeline (p : Pipeline) : R Value (p.eval i₁ c₁) (p.eval i₂ c₂) :=
  laws.on.pipeline p fun _ _ => trivial

end EvaluationLaws

/-! ## Rendering -/

open Rendering in
/-- What a coupling has to say of the steps of a rendering that binds only names in `T`. -/
structure RenderingLaws (i₁ i₂ : Interpreter) (T : String → Prop) (R : Coupling Error RenderState) :
    Prop extends Sequential R where
  write (s : String) : R Unit (write s) (write s)
  expression (e : Expression) :
    R Value (evaluating fun ctx => e.eval i₁ ctx) (evaluating fun ctx => e.eval i₂ ctx)
  pipeline (p : Pipeline) :
    R Value (evaluating fun ctx => p.eval i₁ ctx) (evaluating fun ctx => p.eval i₂ ctx)
  assign {name : String} (h : T name) (v : Value) : R Unit (assign name v) (assign name v)
  inFrame (frame : Fields) {b₁ b₂ : Rendering Unit} (h : R Unit b₁ b₂) :
    R Unit (inFrame frame b₁) (inFrame frame b₂)
  capturing {b₁ b₂ : Rendering Unit} (h : R Unit b₁ b₂) : R String (capturing b₁) (capturing b₂)

open Rendering in
/-- What it has to say if all accesses are in `A`; tags of the host may be among the nodes. -/
structure RenderingLawsOn (A : Access → Prop) (i₁ i₂ : Interpreter) (R : Coupling Error RenderState) :
    Prop extends Sequential R where
  write (s : String) : R Unit (write s) (write s)
  expression (e : Expression) (h : ∀ q ∈ e.paths, A (.reads q.1 q.2)) :
    R Value (evaluating fun ctx => e.eval i₁ ctx) (evaluating fun ctx => e.eval i₂ ctx)
  pipeline (p : Pipeline) (h : ∀ q ∈ p.paths, A (.reads q.1 q.2)) :
    R Value (evaluating fun ctx => p.eval i₁ ctx) (evaluating fun ctx => p.eval i₂ ctx)
  assign {name : String} (h : A (.binds name)) (v : Value) : R Unit (assign name v) (assign name v)
  inFrame (frame : Fields) {b₁ b₂ : Rendering Unit} (h : R Unit b₁ b₂) :
    R Unit (inFrame frame b₁) (inFrame frame b₂)
  capturing {b₁ b₂ : Rendering Unit} (h : R Unit b₁ b₂) : R String (capturing b₁) (capturing b₂)
  pause (h : A .pauses) : R Unit .pause .pause
  fetch {name : String} (h : A (.fetches name)) :
    R Unit ((Action.fetch name).perform i₁) ((Action.fetch name).perform i₂)

theorem print_eq_write (v : Value) : Rendering.print v = Rendering.write v.output := by
  unfold Rendering.print Rendering.write
  simp only [Value.writeOutput_eq _ v]

namespace RenderingLawsOn

variable {A : Access → Prop} {R : Coupling Error RenderState} (laws : RenderingLawsOn A i₁ i₂ R)
include laws

theorem iterate (item : String) {b₁ b₂ : Rendering Unit} (h : R Unit b₁ b₂) (n : Nat)
    (items : List Value) (k : Nat) :
    R Unit (Stencil.iterate item b₁ n k items) (Stencil.iterate item b₂ n k items) := by
  induction items generalizing k with
  | nil => exact laws.pure ()
  | cons x rest ih => exact laws.bind (laws.inFrame _ h) fun _ => ih (k + 1)

mutual

theorem node : ∀ n : Node, (∀ a ∈ n.accesses, A a) → R Unit (n.render i₁) (n.render i₂)
  | .text s, _ => by
    simp only [Node.render]
    exact laws.write s
  | .output p, h => by
    simp only [Node.accesses, forall_mem_readings] at h
    simp only [Node.render]
    refine laws.bind (laws.pipeline p h) fun v => ?_
    rw [print_eq_write]
    exact laws.write v.output
  | .conditional negate bs otherwise, h => by
    simp only [Node.accesses, List.forall_mem_append] at h
    simp only [Node.render]
    exact branches negate bs h.1 (nodes otherwise h.2)
  | .loop header body otherwise, h => by
    simp only [Node.accesses, List.forall_mem_append, forall_mem_readings] at h
    simp only [Node.render]
    refine laws.bind (laws.expression header.collection h.1) fun v => ?_
    generalize (if header.reversed then (iterationItems v).reverse else iterationItems v) = items
    split
    · exact nodes otherwise h.2.2
    · exact laws.iterate header.item (nodes body h.2.1) items.length items 0
  | .assign name p, h => by
    simp only [Node.accesses, List.forall_mem_cons, forall_mem_readings] at h
    simp only [Node.render]
    exact laws.bind (laws.pipeline p h.2) fun v => laws.assign h.1 v
  | .capture name body, h => by
    simp only [Node.accesses, List.forall_mem_cons] at h
    simp only [Node.render]
    exact laws.bind (laws.capturing (nodes body h.2)) fun s => laws.assign h.1 (.text s)
  | .literal s, _ => by
    simp only [Node.render]
    exact laws.write s
  | .custom _ as, h => by
    simp only [Node.accesses] at h
    simp only [Node.render]
    exact actions as h

theorem nodes : ∀ ns : List Node, (∀ a ∈ nodesAccesses ns, A a) →
    R Unit (renderNodes i₁ ns) (renderNodes i₂ ns)
  | [], _ => by
    simp only [renderNodes]
    exact laws.pure ()
  | n :: rest, h => by
    simp only [nodesAccesses, List.forall_mem_append] at h
    simp only [renderNodes]
    exact laws.bind (node n h.1) fun _ => nodes rest h.2

theorem branches (negate : Bool) : ∀ bs : List Branch, (∀ a ∈ branchesAccesses bs, A a) →
    ∀ {o₁ o₂ : Rendering Unit}, R Unit o₁ o₂ →
    R Unit (renderBranches i₁ negate bs o₁) (renderBranches i₂ negate bs o₂)
  | [], _, _, _, ho => by
    simp only [renderBranches]
    exact ho
  | .mk condition body :: rest, h, _, _, ho => by
    simp only [branchesAccesses, List.forall_mem_append, forall_mem_readings] at h
    simp only [renderBranches]
    refine laws.bind (laws.pipeline condition h.1) fun v => ?_
    split
    · exact nodes body h.2.1
    · exact branches negate rest h.2.2 ho

theorem action : ∀ a : Action, (∀ b ∈ a.accesses, A b) → R Unit (a.perform i₁) (a.perform i₂)
  | .write s, _ => by
    simp only [Action.perform]
    exact laws.write s
  | .pause, h => by
    simp only [Action.perform]
    exact laws.pause (h _ (by simp [Action.accesses]))
  | .fetch name, h => laws.fetch (h _ (by simp [Action.accesses]))
  | .scoped bindings body, h => by
    simp only [Action.accesses] at h
    simp only [Action.perform]
    exact laws.inFrame bindings (nodes body h)

theorem actions : ∀ as : List Action, (∀ b ∈ actionsAccesses as, A b) →
    R Unit (performActions i₁ as) (performActions i₂ as)
  | [], _ => by
    simp only [performActions]
    exact laws.pure ()
  | a :: rest, h => by
    simp only [actionsAccesses, List.forall_mem_append] at h
    simp only [performActions]
    exact laws.bind (action a h.1) fun _ => actions rest h.2

end

end RenderingLawsOn

namespace RenderingLaws

variable {T : String → Prop} {R : Coupling Error RenderState} (laws : RenderingLaws i₁ i₂ T R)
include laws

/-- The laws hold for what built-in tags do. -/
theorem on : RenderingLawsOn (Access.Plain T) i₁ i₂ R where
  toSequential := laws.toSequential
  write := laws.write
  expression e _ := laws.expression e
  pipeline p _ := laws.pipeline p
  assign := laws.assign
  inFrame := laws.inFrame
  capturing := laws.capturing
  pause h := h.elim
  fetch h := h.elim

theorem nodes (ns : List Node) (hb : NodesBuiltin ns) (hT : ∀ x ∈ nodesTargets ns, T x) :
    R Unit (renderNodes i₁ ns) (renderNodes i₂ ns) :=
  laws.on.nodes ns (plain_nodesAccesses ns hb hT)

end RenderingLaws

end Stencil
