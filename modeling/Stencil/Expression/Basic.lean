import Stencil.Expression.Scanner
import Stencil.Value

/-!
# Expressions

An `Expression` is a literal, a property path or a range, and keeps its spelling. It is read from a
`Token` by scanning the token's text once more; `ofTokenAt` recurs on a bound for the nesting of
brackets and ranges, which `ofToken` takes from the length of the text.
-/

namespace Stencil

mutual

inductive Expression where
  | literal (spelling : String) (value : Value)
  | path (spelling : String) (segments : List Segment)
  /-- All integers from `first` to `last`. -/
  | range (spelling : String) (first last : Expression)

/-- A step of a property path. -/
inductive Segment where
  | key (name : String)
  /-- A negative index counts from the end. -/
  | index (i : Int)
  /-- A bracket whose value is only known at evaluation. -/
  | computed (e : Expression)

end

deriving instance Repr for Expression, Segment

instance : Inhabited Expression := ⟨.literal "" .null⟩

namespace Expression

def spelling : Expression → String
  | .literal s _ => s
  | .path s _ => s
  | .range s _ _ => s

/-- An expression is shown as it is spelt. -/
instance : ToString Expression := ⟨spelling⟩

/-- A path of one name and nothing else. -/
def isName (e : Expression) (name : String) : Bool :=
  match e with
  | .path _ [.key k] => k == name
  | _ => false

/-- Resolves the escapes of a literal's body. -/
def unescape : List Char → List Char
  | [] => []
  | c :: s =>
    if c = '\\' then
      match s with
      | [] => ['\\']
      | d :: s =>
        (if d = 'n' then '\n' else if d = 't' then '\t' else if d = 'r' then '\r' else d) :: unescape s
    else c :: unescape s

/-- The text that a quoted literal stands for. -/
def unquote (text : List Char) : String := String.ofList (unescape (text.drop 1).dropLast)

/-- An integer of 64 bits if the spelling is one, else a finite double. -/
def numeral (text : List Char) : Except Error Value :=
  match Decimal.integer? text with
  | some i => .ok (.int i)
  | none =>
    match Decimal.float? text with
    | some f => if f.isFinite then .ok (.float f) else .error (.malformedIn text "invalid number")
    | none => .error (.malformedIn text "invalid number")

section
variable (inner : Token → Except Error Expression)

/-- A bracket around a text or an integer is the same as the dotted form. -/
def bracketSegment (e : Expression) : Segment :=
  match e with
  | .literal _ (.text k) => .key k
  | .literal _ (.number n) =>
    match n.int64? with
    | some i => .index i
    | none => .computed e
  | _ => .computed e

/-- The segments of the path that is left, at most `n` of them. -/
def segments : Nat → Scan (List Segment)
  | 0 => pure []
  | n + 1 => do
    if ← Scanner.atEnd then return []
    if ← Scanner.eat '.' then
      if let some k ← Scanner.name? then return .key k :: (← segments n)
      if let some ds ← Scanner.digits? then
        match Decimal.integer? ds.toList with
        | some i => return .index i :: (← segments n)
        | none => Scanner.fail "invalid index"
      Scanner.fail "expected a property name after '.'"
    if ← Scanner.eat '[' then
      Scanner.skipBlanks
      let some t ← Scanner.value? | Scanner.fail "expected a value inside '[...]'"
      Scanner.skipBlanks
      Scanner.require (← Scanner.eat ']') "expected ']'"
      let e ← Scanner.lift (inner t)
      return bracketSegment e :: (← segments n)
    Scanner.fail "invalid property path"

def pathSegments : Scan (List Segment) := do
  let n := (← get).rest.length
  match ← Scanner.name? with
  | some k => return .key k :: (← segments inner n)
  | none => segments inner n

def rangeEnds : Scan (Expression × Expression) := do
  let _ ← Scanner.eat '('
  Scanner.skipBlanks
  let some first ← Scanner.value? | Scanner.fail "expected range start"
  Scanner.skipBlanks
  let _ ← Scanner.eatAll ['.', '.']
  Scanner.skipBlanks
  let some last ← Scanner.value? | Scanner.fail "expected range end"
  return (← Scanner.lift (inner first), ← Scanner.lift (inner last))

/-- Runs a reader on a whole text. -/
def readIn {α : Type} (reader : Scan α) (text : List Char) : Except Error α :=
  Scanner.outcome (reader (Scanner.ofChars text))

def ofTokenWith (t : Token) : Except Error Expression :=
  let text := t.text.toList
  match t.kind with
  | .quoted => .ok (.literal t.text (.text (unquote text)))
  | .number => (numeral text).map (.literal t.text)
  | .boolean => .ok (.literal t.text (.bool (t.text = "true")))
  | .null => .ok (.literal t.text .null)
  | .path => (readIn (pathSegments inner) text).map (.path t.text)
  | .range => (readIn (rangeEnds inner) text).map fun (first, last) => .range t.text first last

end

/-- The expression of a token in which brackets and ranges nest less than `depth` deep. -/
def ofTokenAt : Nat → Token → Except Error Expression
  | 0, t => .error (.malformedIn t.text.toList "expected a value")
  | depth + 1, t => ofTokenWith (ofTokenAt depth) t

def ofToken (t : Token) : Except Error Expression := ofTokenAt (t.text.length + 1) t

/-- Reads exactly one value, blanks around it aside. -/
def reader : Scan Expression := do
  Scanner.skipBlanks
  let some t ← Scanner.value? | Scanner.fail "expected a value"
  Scanner.skipBlanks
  unless ← Scanner.atEnd do
    let rest := (← get).rest
    Scanner.fail ("unexpected '" ++ String.ofList (Text.trim rest) ++ "' after value")
  Scanner.lift (ofToken t)

def ofChars (text : List Char) : Except Error Expression := readIn reader text

def parse (text : String) : Except Error Expression := ofChars text.toList

end Expression

end Stencil
