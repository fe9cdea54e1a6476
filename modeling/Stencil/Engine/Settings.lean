import Stencil.Cache.Policy
import Stencil.Value

/-!
# Engine settings

How an engine finds its templates, keeps them and looks up variables. Settings can be read from data:
from an object whose fields are named, or from a list of the fields in order. What is missing takes
its default; a field of the wrong kind makes the whole invalid.
-/

namespace Stencil

structure Settings where
  /-- Directories that hold templates, searched in order. -/
  roots : List String := ["."]
  /-- Appended to template names that have no extension. -/
  extname : String := ""
  cache : CachePolicy := .disabled
  /-- Undefined variables are errors. -/
  strict : Bool := false
  /-- Variables that every render sees, below its data. -/
  globals : Fields := []
  deriving Repr, Inhabited

namespace Settings

def text? : Value → Option String
  | .text s => some s
  | _ => none

def bool? : Value → Option Bool
  | .bool b => some b
  | _ => none

def texts? : Value → Option (List String)
  | .list items => items.mapM text?
  | _ => none

def fields? : Value → Option Fields
  | .object fields => some fields
  | _ => none

end Settings

/-- A truth value turns caching on or off, an integer of 64 bits limits it. -/
def CachePolicy.ofValue? : Value → Option CachePolicy
  | .bool b => some (.ofBool b)
  | .number n => n.int64?.map .ofInt
  | _ => none

namespace Settings

/-- A field's value if the field is there, read by `read`, else its default. -/
def field {α : Type} (read : Value → Option α) (default : α) : Option Value → Option α
  | none => some default
  | some v => read v

/-- Settings from the values of their fields: roots, extension, cache, strictness and globals. -/
def ofFields? (root extname cache strict globals : Option Value) : Option Settings := do
  let defaults : Settings := {}
  return {
    roots := ← field texts? defaults.roots root
    extname := ← field text? defaults.extname extname
    cache := ← field CachePolicy.ofValue? defaults.cache cache
    strict := ← field bool? defaults.strict strict
    globals := ← field fields? defaults.globals globals }

/-- Settings from an object or a list; fields of other names are ignored, items too many are not. -/
def ofValue? : Value → Option Settings
  | .object fields =>
    ofFields? (Fields.get? fields "root") (Fields.get? fields "extname") (Fields.get? fields "cache")
      (Fields.get? fields "strict_variables") (Fields.get? fields "globals")
  | .list items =>
    if 5 < items.length then none
    else ofFields? items[0]? items[1]? items[2]? items[3]? items[4]?
  | _ => none

end Settings

end Stencil
