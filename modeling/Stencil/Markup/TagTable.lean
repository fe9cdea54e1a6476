import Stencil.Markup.Node

/-!
# Tags

A `TagTable` says by name how a tag is read. The built-in tags have rules of their own; a host adds
tags that perform actions, with or without a body.
-/

namespace Stencil

/-- A tag of the host. A tag with a closing name owns the nodes up to the tag of that name; the
actions come from the tag's arguments and its body. -/
structure CustomTag where
  typeName : String
  closing : Option String
  actions : String → List Node → List Action

inductive TagRule where
  | assign
  | capture
  /-- `if`, or `unless` with the test turned around. -/
  | conditional (negate : Bool)
  | loop
  | comment
  | raw
  | custom (t : CustomTag)

structure TagTable where
  lookup : String → Option TagRule

namespace TagTable

def empty : TagTable := ⟨fun _ => none⟩

def register (t : TagTable) (name : String) (rule : TagRule) : TagTable :=
  ⟨fun n => if n = name then some rule else t.lookup n⟩

def ofList (entries : List (String × TagRule)) : TagTable :=
  entries.foldl (fun t (name, rule) => t.register name rule) empty

def contains (t : TagTable) (name : String) : Bool := (t.lookup name).isSome

def builtin : TagTable := ofList [
  ("assign", .assign), ("capture", .capture), ("if", .conditional false),
  ("unless", .conditional true), ("for", .loop), ("comment", .comment), ("raw", .raw)]

end TagTable

end Stencil
