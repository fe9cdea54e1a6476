import Stencil.Association
import Stencil.Source.Path
import Stencil.Source.Reader

/-!
# Templates in memory

A `Shelf` holds template texts by name. Names are made canonical: empty steps and `.` are dropped,
`..` drops the step before it, and the extension is added to names that have none.
-/

namespace Stencil

structure Shelf where
  extname : String
  texts : List (String × String)
  deriving Repr, Inhabited

namespace Shelf

def empty (extname : String) : Shelf := ⟨extname, []⟩

/-- One step from a canonical name; a step to the parent of nothing goes nowhere. -/
def enter (steps : List (List Char)) (step : List Char) : List (List Char) :=
  if step = [] ∨ step = ['.'] then steps
  else if step = ['.', '.'] then steps.dropLast
  else steps ++ [step]

/-- The key of a name: its canonical form. -/
def key (s : Shelf) (name : String) : String :=
  let steps := (Text.pieces ['/'] name.toList).foldl enter []
  Path.withExtension ("/".intercalate (steps.map String.ofList)) s.extname

def get? (s : Shelf) (key : String) : Option String := s.texts.lookup key

def erase (s : Shelf) (key : String) : Shelf := { s with texts := s.texts.filter (·.1 != key) }

/-- Puts a text on the shelf in place of an earlier one of an equivalent name. -/
def add (s : Shelf) (name text : String) : Shelf :=
  let k := s.key name
  { s with texts := (k, text) :: (s.erase k).texts }

def remove (s : Shelf) (name : String) : Shelf := s.erase (s.key name)

def clear (s : Shelf) : Shelf := empty s.extname

/-- A name has one candidate, its canonical form. -/
def reader (s : Shelf) : SourceReader where
  candidates name := [s.key name]
  read key :=
    match s.get? key with
    | some text => .ok text
    | none => .error (.sourceNotFound key)

@[simp] theorem key_add (s : Shelf) (name text other : String) :
    (s.add name text).key other = s.key other := rfl

@[simp] theorem key_remove (s : Shelf) (name other : String) :
    (s.remove name).key other = s.key other := rfl

theorem get?_erase (s : Shelf) (k k' : String) :
    (s.erase k).get? k' = if k' = k then none else s.get? k' :=
  lookup_filter_ne k' k s.texts

theorem get?_add (s : Shelf) (name text k : String) :
    (s.add name text).get? k = if k = s.key name then some text else s.get? k := by
  have h := get?_erase s (s.key name) k
  simp only [get?, add, lookup_cons_ite] at h ⊢
  split <;> simp_all

end Shelf

end Stencil
