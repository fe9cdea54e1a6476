import Stencil.Proofs.Markup.Builtin

/-!
# What templates ask of their surroundings

`Node.accesses` lists what a node may do with its surroundings, at any depth: the paths that it reads,
the names that it binds and, if tags of the host are in it, the names that these fetch and whether they
wait by themselves. A path is listed with its spelling and its first segment, on which the name that is
looked up depends.
-/

namespace Stencil

inductive Access where
  /-- A path that starts with the segment `head`. -/
  | reads (spelling : String) (head : Segment)
  | binds (name : String)
  | fetches (name : String)
  | pauses

/-- The names that a path with this first segment may look up: any, if the segment is only known at
evaluation. -/
def Segment.Names : Segment → String → Prop
  | .key k, name => name = k
  | .index n, name => name = toString n
  | .computed _, _ => True

mutual

/-- The paths in an expression, those inside of brackets included. -/
def Expression.paths : Expression → List (String × Segment)
  | .literal _ _ => []
  | .path _ [] => []
  | .path spelling (head :: rest) => (spelling, head) :: (head.paths ++ segmentsPaths rest)
  | .range _ first last => first.paths ++ last.paths

def Segment.paths : Segment → List (String × Segment)
  | .key _ | .index _ => []
  | .computed e => e.paths

def segmentsPaths : List Segment → List (String × Segment)
  | [] => []
  | s :: rest => s.paths ++ segmentsPaths rest

end

def Invocation.paths (f : Invocation) : List (String × Segment) :=
  f.arguments.flatMap (·.value.paths)

def Pipeline.paths (p : Pipeline) : List (String × Segment) :=
  p.initial.paths ++ p.filters.flatMap Invocation.paths

/-- The paths as accesses. -/
def readings (paths : List (String × Segment)) : List Access :=
  paths.map fun q => .reads q.1 q.2

mutual

def Node.accesses : Node → List Access
  | .text _ | .literal _ => []
  | .output p => readings p.paths
  | .conditional _ branches otherwise => branchesAccesses branches ++ nodesAccesses otherwise
  | .loop header body otherwise =>
    readings header.collection.paths ++ (nodesAccesses body ++ nodesAccesses otherwise)
  | .assign name p => .binds name :: readings p.paths
  | .capture name body => .binds name :: nodesAccesses body
  | .custom _ actions => actionsAccesses actions

def nodesAccesses : List Node → List Access
  | [] => []
  | n :: rest => n.accesses ++ nodesAccesses rest

def branchesAccesses : List Branch → List Access
  | [] => []
  | .mk condition body :: rest =>
    readings condition.paths ++ (nodesAccesses body ++ branchesAccesses rest)

def Action.accesses : Action → List Access
  | .write _ => []
  | .pause => [.pauses]
  | .fetch name => [.fetches name]
  | .scoped _ body => nodesAccesses body

def actionsAccesses : List Action → List Access
  | [] => []
  | a :: rest => a.accesses ++ actionsAccesses rest

end

def Template.accesses (t : Template) : List Access := nodesAccesses t.nodes

/-- A path of the template may look up the name. -/
def Template.Reads (t : Template) (name : String) : Prop :=
  ∃ spelling head, .reads spelling head ∈ t.accesses ∧ head.Names name

theorem forall_mem_readings {A : Access → Prop} {paths : List (String × Segment)} :
    (∀ a ∈ readings paths, A a) ↔ ∀ q ∈ paths, A (.reads q.1 q.2) :=
  List.forall_mem_map

/-- What built-in tags do that bind only names in `T`. -/
def Access.Plain (T : String → Prop) : Access → Prop
  | .reads _ _ => True
  | .binds name => T name
  | .fetches _ | .pauses => False

section
variable {T : String → Prop}

theorem plain_readings (paths : List (String × Segment)) : ∀ a ∈ readings paths, a.Plain T :=
  forall_mem_readings.2 fun _ _ => trivial

mutual

theorem Node.plain_accesses : ∀ n : Node, n.Builtin → (∀ x ∈ n.targets, T x) →
    ∀ a ∈ n.accesses, a.Plain T
  | .text _, _, _ | .literal _, _, _ => by simp [Node.accesses]
  | .output p, _, _ => by
    simp only [Node.accesses]
    exact plain_readings p.paths
  | .conditional _ bs otherwise, hb, hT => by
    simp only [Node.Builtin] at hb
    simp only [Node.targets, List.forall_mem_append] at hT
    simp only [Node.accesses, List.forall_mem_append]
    exact ⟨plain_branchesAccesses bs hb.1 hT.1, plain_nodesAccesses otherwise hb.2 hT.2⟩
  | .loop header body otherwise, hb, hT => by
    simp only [Node.Builtin] at hb
    simp only [Node.targets, List.forall_mem_append] at hT
    simp only [Node.accesses, List.forall_mem_append]
    exact ⟨plain_readings _, plain_nodesAccesses body hb.1 hT.1,
      plain_nodesAccesses otherwise hb.2 hT.2⟩
  | .assign name p, _, hT => by
    simp only [Node.accesses, List.forall_mem_cons]
    exact ⟨hT name (by simp [Node.targets]), plain_readings p.paths⟩
  | .capture name body, hb, hT => by
    simp only [Node.Builtin] at hb
    simp only [Node.targets, List.forall_mem_cons] at hT
    simp only [Node.accesses, List.forall_mem_cons]
    exact ⟨hT.1, plain_nodesAccesses body hb hT.2⟩

theorem plain_nodesAccesses : ∀ ns : List Node, NodesBuiltin ns → (∀ x ∈ nodesTargets ns, T x) →
    ∀ a ∈ nodesAccesses ns, a.Plain T
  | [], _, _ => by simp [nodesAccesses]
  | n :: rest, hb, hT => by
    simp only [NodesBuiltin] at hb
    simp only [nodesTargets, List.forall_mem_append] at hT
    simp only [nodesAccesses, List.forall_mem_append]
    exact ⟨n.plain_accesses hb.1 hT.1, plain_nodesAccesses rest hb.2 hT.2⟩

theorem plain_branchesAccesses : ∀ bs : List Branch, BranchesBuiltin bs →
    (∀ x ∈ branchesTargets bs, T x) → ∀ a ∈ branchesAccesses bs, a.Plain T
  | [], _, _ => by simp [branchesAccesses]
  | .mk condition body :: rest, hb, hT => by
    simp only [BranchesBuiltin] at hb
    simp only [branchesTargets, List.forall_mem_append] at hT
    simp only [branchesAccesses, List.forall_mem_append]
    exact ⟨plain_readings _, plain_nodesAccesses body hb.1 hT.1,
      plain_branchesAccesses rest hb.2 hT.2⟩

end

end

end Stencil
