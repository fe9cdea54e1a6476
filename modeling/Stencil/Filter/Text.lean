import Stencil.Filter.Table
import Stencil.Value.Output
import Stencil.Text.Case
import Stencil.Text.Occurrence

/-!
# Text filters

They work on the output text of their input and arguments.
-/

namespace Stencil.Filter

/-- Positional argument `index` as text, or the failure that it is missing. -/
def textArgument (filter : String) (args : Arguments) (index : Nat) : Except Error String :=
  match args.get? index with
  | some v => .ok v.output
  | none => .error (.filterFailed filter ("missing argument " ++ toString (index + 1)))

/-- Applies a function on characters to the output text. -/
def onText (f : List Char → List Char) (input : Value) : Value :=
  .text (String.ofList (f input.output.toList))

def upcase : Filter := .immediate fun input _ => .ok (onText Text.upcase input)

def downcase : Filter := .immediate fun input _ => .ok (onText Text.downcase input)

def capitalize : Filter := .immediate fun input _ => .ok (onText Text.capitalize input)

def strip : Filter := .immediate fun input _ => .ok (onText Text.trim input)

def append : Filter := .immediate fun input args => do
  return .text (input.output ++ (← textArgument "append" args 0))

def prepend : Filter := .immediate fun input args => do
  return .text ((← textArgument "prepend" args 0) ++ input.output)

/-- Replaces every occurrence of the first argument by the second one, or by nothing. -/
def replace : Filter := .immediate fun input args => do
  let old ← textArgument "replace" args 0
  let new := ((args.get? 1).map Value.output).getD ""
  return onText (Text.replaceAll old.toList new.toList) input

/-- Cuts at a separator; an empty one cuts between all characters. -/
def split : Filter := .immediate fun input args => do
  let separator := (← textArgument "split" args 0).toList
  let text := input.output.toList
  let parts := if separator.isEmpty then text.map ([·]) else Text.pieces separator text
  return .list (parts.map fun part => .text (String.ofList part))

end Stencil.Filter
