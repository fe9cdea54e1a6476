import Stencil.Deferred

/-!
# Filters

A filter turns an input and evaluated arguments into a value, at once or later, or fails. A
`FilterTable` finds filters by name; registering a name again replaces its filter.
-/

namespace Stencil

/-- Evaluated arguments: positional ones in order, and the named ones if any were given. -/
structure Arguments where
  positional : List Value
  named : Option Fields
  deriving Repr, Inhabited

namespace Arguments

def get? (a : Arguments) (index : Nat) : Option Value := a.positional[index]?

def named? (a : Arguments) (key : String) : Option Value := a.named.bind (Fields.get? · key)

/-- The positional arguments, and the named ones as a last object. -/
def toValues (a : Arguments) : List Value :=
  match a.named with
  | none => a.positional
  | some fields => a.positional ++ [.object fields]

/-- With one more argument, named if it has a key; a key's last value counts. -/
def add (a : Arguments) (key : Option String) (v : Value) : Arguments :=
  match key with
  | none => { a with positional := a.positional ++ [v] }
  | some k => { a with named := some (Fields.insert k v (a.named.getD [])) }

end Arguments

abbrev Filter := Value → Arguments → Except Error Resolution

structure FilterTable where
  lookup : String → Option Filter

namespace FilterTable

def empty : FilterTable := ⟨fun _ => none⟩

def register (t : FilterTable) (name : String) (f : Filter) : FilterTable :=
  ⟨fun n => if n = name then some f else t.lookup n⟩

def ofList (entries : List (String × Filter)) : FilterTable :=
  entries.foldl (fun t (name, f) => t.register name f) empty

def contains (t : FilterTable) (name : String) : Bool := (t.lookup name).isSome

/-- The filter of a name, or the error that there is none. -/
def find (t : FilterTable) (name : String) : Except Error Filter :=
  match t.lookup name with
  | some f => .ok f
  | none => .error (.unknownFilter name)

end FilterTable

/-- A filter that settles at once. -/
def Filter.immediate (f : Value → Arguments → Except Error Value) : Filter :=
  fun input args => (f input args).map .settled

end Stencil
