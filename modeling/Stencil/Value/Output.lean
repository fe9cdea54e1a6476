import Stencil.Value.Json

/-!
# What templates see of a value

Truth, output text and properties. Only nil and false count as false. The output text of a list is
that of its items one after another; nil has none; an object shows as JSON. `Value.property` reads a
field, an item by its index, or one of the properties that lists and texts have of themselves.
-/

namespace Stencil

namespace Value

def truthy : Value → Bool
  | .null => false
  | .bool b => b
  | _ => true

mutual

/-- Appends the output text of a value. -/
def writeOutput (out : String) : Value → String
  | .null => out
  | .bool b => out ++ if b then "true" else "false"
  | .number n => out ++ n.text
  | .text s => out ++ s
  | .list items => writeOutputs out items
  | .object fields => out ++ (Value.object fields).json

def writeOutputs (out : String) : List Value → String
  | [] => out
  | v :: rest => writeOutputs (v.writeOutput out) rest

end

def output (v : Value) : String := v.writeOutput ""

mutual

theorem writeOutput_eq (out : String) : ∀ v : Value, v.writeOutput out = out ++ v.output
  | .null => by simp [output, writeOutput]
  | .bool b => by simp [output, writeOutput]
  | .number n => by simp [output, writeOutput]
  | .text s => by simp [output, writeOutput]
  | .list items => by
    have h1 := writeOutputs_eq out items
    have h2 := writeOutputs_eq "" items
    simp [output, writeOutput, h1]
  | .object fields => by simp [output, writeOutput]

theorem writeOutputs_eq (out : String) :
    ∀ vs : List Value, writeOutputs out vs = out ++ writeOutputs "" vs
  | [] => by simp [writeOutputs]
  | v :: rest => by
    rw [writeOutputs, writeOutputs, writeOutputs_eq _ rest, writeOutputs_eq (writeOutput "" v) rest,
      writeOutput_eq out v, String.append_assoc]
    rfl

end

/-- The item at an index; a negative index counts from the end. -/
def item? (items : List Value) (i : Int) : Option Value :=
  let index := if i < 0 then items.length + i else i
  if index < 0 then none else items[index.toNat]?

/-- The property `key` of a value; nil if there is none. -/
def property : Value → Value → Value
  | .object fields, .text k =>
    match Fields.get? fields k with
    | some v => v
    | none => if k = "size" then .int fields.length else .null
  | .list items, .number n =>
    match n.int64? with
    | some i => (item? items i).getD .null
    | none => .null
  | .list items, .text k =>
    if k = "size" then .int items.length
    else if k = "first" then items.head?.getD .null
    else if k = "last" then items.getLast?.getD .null
    else .null
  | .text s, .text k => if k = "size" then .int s.length else .null
  | _, _ => .null

end Value

end Stencil
