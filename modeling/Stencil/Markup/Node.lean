import Stencil.Pipeline

/-!
# Node trees

A `Template` is a list of nodes in source order. Blocks own the nodes of their bodies. A `custom` node
stands for a tag that the host of the library adds: it lists the `Action`s that the tag performs.
-/

namespace Stencil

/-- What follows the name of a `for` tag. -/
structure LoopHeader where
  item : String
  collection : Expression
  reversed : Bool
  deriving Repr, Inhabited

mutual

inductive Node where
  | text (s : String)
  | output (p : Pipeline)
  /-- The first branch whose condition holds, else the last body. With `negate` a condition holds if
  its value is false. -/
  | conditional (negate : Bool) (branches : List Branch) (otherwise : List Node)
  /-- The body for each item, or the other body if there is none. -/
  | loop (header : LoopHeader) (body otherwise : List Node)
  | assign (name : String) (value : Pipeline)
  /-- Binds the output of the body. -/
  | capture (name : String) (body : List Node)
  /-- Fixed text from a tag. -/
  | literal (s : String)
  | custom (typeName : String) (actions : List Action)

inductive Branch where
  | mk (condition : Pipeline) (body : List Node)

/-- A step of a tag that the host adds. -/
inductive Action where
  | write (s : String)
  /-- Suspends once, by itself. -/
  | pause
  /-- Writes the value of a name from the source of deferred variables, if it knows the name. -/
  | fetch (name : String)
  /-- Renders a body in a frame of its own. -/
  | scoped (bindings : Fields) (body : List Node)

end

deriving instance Repr for Node, Branch, Action

instance : Inhabited Node := ⟨.text ""⟩

/-- A compiled template, with the name it was loaded by. -/
structure Template where
  name : Option String
  nodes : List Node
  deriving Repr, Inhabited

end Stencil
