import Stencil.Markup.Node

/-!
# Templates of built-in tags

`Template.Builtin` says that no node, at any depth, stands for a tag of the host.
`Template.targets` lists the names that some `assign` or `capture` tag binds.
-/

namespace Stencil

mutual

def Node.Builtin : Node → Prop
  | .text _ | .output _ | .assign _ _ | .literal _ => True
  | .conditional _ branches otherwise => BranchesBuiltin branches ∧ NodesBuiltin otherwise
  | .loop _ body otherwise => NodesBuiltin body ∧ NodesBuiltin otherwise
  | .capture _ body => NodesBuiltin body
  | .custom _ _ => False

def NodesBuiltin : List Node → Prop
  | [] => True
  | n :: rest => n.Builtin ∧ NodesBuiltin rest

def BranchesBuiltin : List Branch → Prop
  | [] => True
  | .mk _ body :: rest => NodesBuiltin body ∧ BranchesBuiltin rest

end

mutual

def Node.targets : Node → List String
  | .text _ | .output _ | .literal _ | .custom _ _ => []
  | .conditional _ branches otherwise => branchesTargets branches ++ nodesTargets otherwise
  | .loop _ body otherwise => nodesTargets body ++ nodesTargets otherwise
  | .assign name _ => [name]
  | .capture name body => name :: nodesTargets body

def nodesTargets : List Node → List String
  | [] => []
  | n :: rest => n.targets ++ nodesTargets rest

def branchesTargets : List Branch → List String
  | [] => []
  | .mk _ body :: rest => nodesTargets body ++ branchesTargets rest

end

/-- Made of texts, outputs and built-in tags alone. -/
def Template.Builtin (t : Template) : Prop := NodesBuiltin t.nodes

def Template.targets (t : Template) : List String := nodesTargets t.nodes

end Stencil
