import Stencil.Deferred
import Stencil.Text.Occurrence

/-!
# Contexts

The variables of one render: a bottom frame with the render data, the frames of the blocks that are
open, and globals below them all. Look-up goes from the innermost frame outwards and then to the
globals. A source of deferred variables, if there is one, is asked separately.
-/

namespace Stencil

/-- Answers for names that it knows, at once or later. -/
abbrev VariableSource := String → Option Resolution

structure Context where
  bottom : Fields
  /-- Frames of open blocks, innermost first. -/
  inner : List Fields := []
  globals : Fields := []
  source : Option VariableSource := none
  /-- Unknown names are errors. -/
  strict : Bool := false

namespace Context

/-- All frames, innermost first. -/
def frames (c : Context) : List Fields := c.inner ++ [c.bottom]

def depth (c : Context) : Nat := c.frames.length

def push (c : Context) (frame : Fields) : Context := { c with inner := frame :: c.inner }

/-- Leaves the innermost block; the bottom frame stays. -/
def pop (c : Context) : Context := { c with inner := c.inner.tail }

/-- The frame that `pop` takes away. -/
def top? (c : Context) : Option Fields := c.inner.head?

/-- Sets a name in the innermost frame. -/
def set (c : Context) (name : String) (v : Value) : Context :=
  match c.inner with
  | [] => { c with bottom := Fields.insert name v c.bottom }
  | frame :: rest => { c with inner := Fields.insert name v frame :: rest }

/-- Sets a name in the bottom frame, so that it outlives the open blocks. -/
def assign (c : Context) (name : String) (v : Value) : Context :=
  { c with bottom := Fields.insert name v c.bottom }

/-- The value of a name in the frames, else in the globals. -/
def find? (c : Context) (name : String) : Option Value :=
  (c.frames.findSome? (Fields.get? · name)).or (Fields.get? c.globals name)

/-- One step of a dotted path. -/
def child? (part : List Char) : Value → Option Value
  | .object fields => Fields.get? fields (String.ofList part)
  | .list items => (Decimal.natural? part).bind (items[·]?)
  | _ => none

/-- The value at a dotted path. -/
def get? (c : Context) (path : String) : Option Value :=
  match Text.pieces ['.'] path.toList with
  | [] => none
  | name :: parts =>
    parts.foldl (fun v part => v.bind (child? part)) (c.find? (String.ofList name))

@[simp] theorem pop_push (c : Context) (frame : Fields) : (c.push frame).pop = c := rfl

@[simp] theorem inner_assign (c : Context) (name : String) (v : Value) :
    (c.assign name v).inner = c.inner := rfl

/-- In frames that do not shadow it, an assigned name has the assigned value. -/
theorem find?_assign (c : Context) (name : String) (v : Value)
    (h : c.inner.findSome? (Fields.get? · name) = none) : (c.assign name v).find? name = some v := by
  have h' : List.findSome? (fun x : Fields => Fields.get? x name) c.inner = none := h
  simp [find?, frames, assign, h', Fields.get?_insert]

end Context

end Stencil
