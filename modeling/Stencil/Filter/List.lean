import Stencil.Filter.Table
import Stencil.Value.Output

/-!
# List filters

Sizes, ends and order of lists, and joining their items to a text. `default` stands in for values
that hold nothing.
-/

namespace Stencil.Filter

/-- The number of items, fields or characters; zero for values that have none of them. -/
def size : Filter := .immediate fun input _ =>
  .ok <| match input with
    | .list _ | .text _ | .object _ => input.property (.text "size")
    | _ => .int 0

/-- Joins the output texts of the items; the separator is a space unless given. -/
def join : Filter := .immediate fun input args =>
  let separator := ((args.get? 0).map Value.output).getD " "
  .ok <| .text <| match input with
    | .list items => separator.intercalate (items.map Value.output)
    | other => other.output

def first : Filter := .immediate fun input _ => .ok (input.property (.text "first"))

def last : Filter := .immediate fun input _ => .ok (input.property (.text "last"))

/-- Reverses a list and leaves other values as they are. -/
def reverse : Filter := .immediate fun input _ =>
  .ok <| match input with
    | .list items => .list items.reverse
    | other => other

/-- Nil, the empty text and the empty list hold nothing; false does unless it is to be allowed. -/
def holdsNothing (allowFalse : Bool) : Value → Bool
  | .null => true
  | .bool b => !b && !allowFalse
  | .text s => s.isEmpty
  | .list items => items.isEmpty
  | _ => false

/-- The first argument, or nil, in place of a value that holds nothing. -/
def default : Filter := .immediate fun input args =>
  let allowFalse := (args.named? "allow_false").any Value.truthy
  .ok (if holdsNothing allowFalse input then (args.get? 0).getD .null else input)

end Stencil.Filter
