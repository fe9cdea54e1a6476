import Stencil.Snippet
import Stencil.Text.Quoted
import Stencil.Text.Trim

/-!
# Errors

Each constructor of `Error` is a cause; `Error.message` is its wording. A fault in the markup
carries its place and a snippet of the source, and the name of the template once that is known.
-/

namespace Stencil

/-- A place where rendering may have to wait for a value. -/
inductive SuspensionPoint where
  | variable (name : String)
  | filter (name : String)
  | tag (description : String)
  /-- Somewhere inside a tag that waited by itself. -/
  | evaluation
  deriving DecidableEq, Repr, Inhabited

def SuspensionPoint.text : SuspensionPoint → String
  | .variable name => "variable '" ++ name ++ "'"
  | .filter name => "filter '" ++ name ++ "'"
  | .tag description => "tag '" ++ description ++ "'"
  | .evaluation => "tag evaluation"

/-- A fault in template markup. -/
structure MarkupFault where
  message : String
  line : Nat
  column : Nat
  file : Option String
  snippet : Option Snippet
  deriving DecidableEq, Repr, Inhabited

inductive Error where
  /-- An expression or filter call that does not parse. -/
  | malformed (expression message : String)
  | unknownFilter (name : String)
  /-- A synchronous run met a value that has not arrived. -/
  | pendingInSync (point : SuspensionPoint)
  | sourceNotFound (name : String)
  | markup (fault : MarkupFault)
  | undefinedVariable (path : String)
  | filterFailed (filter message : String)
  | rangeTooLarge (first last : Int) (limit : Nat)
  /-- A source that exists but cannot be read. -/
  | unreadable (reason : String)
  | invalidOption (message : String)
  deriving DecidableEq, Repr, Inhabited

def MarkupFault.text (f : MarkupFault) : String :=
  let file := match f.file with
    | none => "None"
    | some name => "Some(" ++ Text.quote name ++ ")"
  let snippet := match f.snippet with
    | none => ""
    | some s => s.text
  "Parse error in " ++ file ++ ": " ++ f.message ++ " at line " ++ toString f.line ++ ", column " ++
    toString f.column ++ "\n" ++ snippet

namespace Error

def message : Error → String
  | .malformed expression message =>
    "Malformed filter expression '" ++ expression ++ "': " ++ message
  | .unknownFilter name => "Unknown filter: " ++ name
  | .pendingInSync point => "Synchronous render observed a pending value at " ++ point.text
  | .sourceNotFound name => "Template not found: " ++ name
  | .markup fault => fault.text
  | .undefinedVariable path => "Undefined variable: " ++ path
  | .filterFailed filter message => "Filter '" ++ filter ++ "' failed: " ++ message
  | .rangeTooLarge first last limit =>
    "Range (" ++ toString first ++ ".." ++ toString last ++ ") exceeds " ++ toString limit ++ " items"
  | .unreadable reason => "IO error: " ++ reason
  | .invalidOption message => "Invalid option: " ++ message

/-- A malformed expression, shown without the blanks around it. -/
def malformedIn (expression : List Char) (message : String) : Error :=
  .malformed (String.ofList (Text.trim expression)) message

/-- A fault at a byte offset of a source. -/
def markupAt (source : String) (offset : Nat) (message : String) : Error :=
  let (line, column) := Text.lineColumn source.toList offset
  .markup { message, line, column, file := none, snippet := some (.around source line column) }

/-- Names the template of a markup fault; other errors stay as they are. -/
def inFile (name : String) : Error → Error
  | .markup fault => .markup { fault with file := some name }
  | e => e

end Error

end Stencil
