import Stencil.Expression.Span

/-!
# The expression scanner

A `Scanner` is a place in a text: what is left of it and the byte offset reached. Its readers take a
name, a number, a quoted literal, a range or a property path, and `value?` takes any of them as a
`Token`. A reader that finds nothing takes nothing; one that fails keeps the place it failed at.

Values nest: a bracket or a range holds further values. Depth is bounded by the text, so `valueAt`
recurs on a bound and `value?` starts it with the length of what is left.
-/

namespace Stencil

inductive TokenKind where
  | quoted
  | number
  | boolean
  | null
  | path
  | range
  deriving DecidableEq, Repr, Inhabited

/-- A value's spelling, and what kind of value it spells. -/
structure Token where
  kind : TokenKind
  text : String
  deriving DecidableEq, Repr, Inhabited

structure Scanner where
  input : List Char
  /-- Offset in bytes. -/
  pos : Nat
  rest : List Char
  deriving DecidableEq, Repr, Inhabited

/-- A reader: it moves the scanner, also when it fails. -/
abbrev Scan := EStateM Error Scanner

namespace Scanner

def ofChars (input : List Char) : Scanner := ⟨input, 0, input⟩

/-- The place is a character boundary of the input, and `rest` is the input from there on. -/
def Valid (s : Scanner) : Prop :=
  ∃ taken, s.input = taken ++ s.rest ∧ s.pos = Text.byteLength taken

theorem valid_ofChars (input : List Char) : (ofChars input).Valid := ⟨[], rfl, rfl⟩

/-- The place after `chunk`, where `rest` follows. -/
def past (s : Scanner) (chunk rest : List Char) : Scanner :=
  { s with pos := s.pos + Text.byteLength chunk, rest }

theorem Valid.past {s : Scanner} (h : s.Valid) {chunk rest : List Char}
    (e : s.rest = chunk ++ rest) : (s.past chunk rest).Valid := by
  obtain ⟨taken, hi, hp⟩ := h
  exact ⟨taken ++ chunk, by simp [Scanner.past, hi, e], by simp [Scanner.past, hp]⟩

/-- The place of a byte offset of the input; an offset inside a character is no place. -/
def at? (s : Scanner) (pos : Nat) : Option Scanner :=
  (Text.dropBytes? s.input pos).map fun rest => { s with pos, rest }

/-- What a reader ends with, its place aside. -/
def outcome {α : Type} : EStateM.Result Error Scanner α → Except Error α
  | .ok a _ => .ok a
  | .error e _ => .error e

/-! ## Readers of characters -/

def fail {α : Type} (message : String) : Scan α := fun s => .error (.malformedIn s.input message) s

/-- Fails if the condition does not hold. -/
def require (condition : Bool) (message : String) : Scan Unit :=
  if condition then pure () else fail message

def lift {α : Type} (r : Except Error α) : Scan α := fun s =>
  match r with
  | .ok a => .ok a s
  | .error e => .error e s

/-- The text that a reader takes. -/
def taking (reader : Scan Unit) : Scan String := fun s =>
  match reader s with
  | .ok _ s' => .ok (String.ofList (s.rest.take (s.rest.length - s'.rest.length))) s'
  | .error e s' => .error e s'

/-- A reader that goes back to where it was if it finds nothing. -/
def attempt {α : Type} (reader : Scan (Option α)) : Scan (Option α) := fun s =>
  match reader s with
  | .ok none _ => .ok none s
  | r => r

def atEnd : Scan Bool := fun s => .ok s.rest.isEmpty s

def peek : Scan (Option Char) := fun s => .ok s.rest.head? s

def eat (c : Char) : Scan Bool := fun s =>
  match s.rest with
  | [] => .ok false s
  | d :: rest => if d = c then .ok true (s.past [d] rest) else .ok false s

def eatAll (word : List Char) : Scan Bool := fun s =>
  if word.isPrefixOf s.rest then .ok true (s.past word (s.rest.drop word.length)) else .ok false s

def skipBlanks : Scan Unit := fun s =>
  .ok () (s.past (s.rest.takeWhile Text.isBlank) (s.rest.dropWhile Text.isBlank))

/-- Takes the chunk that `split` cuts off the front of what is left. -/
def chunk? (split : List Char → Option (List Char × List Char)) : Scan (Option String) := fun s =>
  match split s.rest with
  | none => .ok none s
  | some (chunk, rest) => .ok (some (String.ofList chunk)) (s.past chunk rest)

def splitName : List Char → Option (List Char × List Char)
  | [] => none
  | c :: s =>
    if Text.startsName c then
      some (c :: s.takeWhile Text.continuesName, s.dropWhile Text.continuesName)
    else none

def splitDigits (s : List Char) : Option (List Char × List Char) :=
  if (s.takeWhile Char.isDigit).isEmpty then none
  else some (s.takeWhile Char.isDigit, s.dropWhile Char.isDigit)

/-- A point and digits after it. A point without digits is left, so that `1..5` starts with `1`. -/
def splitFraction : List Char → List Char × List Char
  | '.' :: s =>
    match splitDigits s with
    | some (ds, rest) => ('.' :: ds, rest)
    | none => ([], '.' :: s)
  | s => ([], s)

def splitMinus : List Char → List Char × List Char
  | '-' :: s => (['-'], s)
  | s => ([], s)

/-- A number; digits that a letter or `_` follows are none. -/
def splitNumber (s : List Char) : Option (List Char × List Char) :=
  let (minus, body) := splitMinus s
  match splitDigits body with
  | none => none
  | some (whole, rest) =>
    let (fraction, rest) := splitFraction rest
    if rest.head?.any Text.startsName then none else some (minus ++ whole ++ fraction, rest)

/-- A point and a name or an index after it. -/
def splitDotted : List Char → Option (List Char × List Char)
  | '.' :: s =>
    match splitName s with
    | some (name, rest) => some ('.' :: name, rest)
    | none => (splitDigits s).map fun (ds, rest) => ('.' :: ds, rest)
  | _ => none

/-- A name: a letter or `_`, then letters, numerals, `_` and `-`. -/
def name? : Scan (Option String) := chunk? splitName

def digits? : Scan (Option String) := chunk? splitDigits

/-- A number: an optional minus, digits, and an optional fraction. -/
def number? : Scan (Option String) := chunk? splitNumber

/-- A quoted literal, its quotes included. -/
def quoted? : Scan (Option String) := fun s =>
  match s.rest with
  | [] => .ok none s
  | q :: rest =>
    if Span.isQuote q then
      match Span.literalEnd q rest with
      | some (body, rest) => .ok (some (String.ofList (q :: body))) (s.past (q :: body) rest)
      | none => fail "unterminated string literal" s
    else .ok none s

/-- Moves to the first of `stops` at the top level and gives it, or to the end. -/
def skipTo (stops : List Char) : Scan (Option Char) := fun s =>
  match Span.seek stops 0 s.rest with
  | .ok rest => .ok rest.head? (s.past (s.rest.take (s.rest.length - rest.length)) rest)
  | .error rest =>
    fail "unterminated string literal" (s.past (s.rest.take (s.rest.length - rest.length)) rest)

/-! ## Readers of values -/

def startsPath (c : Char) : Bool := c == '[' || Text.startsName c

section
variable (inner : Scan (Option Token))

/-- `[value]` -/
def bracket : Scan Unit := do
  let _ ← eat '['
  skipBlanks
  require (← inner).isSome "expected a value inside '[...]'"
  skipBlanks
  require (← eat ']') "expected ']'"

/-- `(value..value)` -/
def parentheses : Scan Unit := do
  let _ ← eat '('
  skipBlanks
  require (← inner).isSome "expected range start"
  skipBlanks
  require (← eatAll ['.', '.']) "expected '..' in range"
  skipBlanks
  require (← inner).isSome "expected range end"
  skipBlanks
  require (← eat ')') "expected ')' to close range"

def rangeOf : Scan (Option String) := do
  if (← peek) == some '(' then return some (← taking (parentheses inner)) else return none

/-- Dotted and bracketed segments, at most `n` of them. -/
def segmentsOf : Nat → Scan Unit
  | 0 => pure ()
  | n + 1 => do
    match ← peek with
    | some '.' => if (← chunk? splitDotted).isSome then segmentsOf n
    | some '[' => do bracket inner; segmentsOf n
    | _ => pure ()

/-- A name or a bracket, then further segments. -/
def segmented : Scan Unit := do
  if (← peek) == some '[' then bracket inner
  else do let _ ← name?
  segmentsOf inner (← get).rest.length

def pathOf : Scan (Option String) := do
  if (← peek).any startsPath then return some (← taking (segmented inner)) else return none

end

/-- The kind of value that a path-like spelling stands for. -/
def wordKind (word : String) : TokenKind :=
  if word = "true" ∨ word = "false" then .boolean
  else if word = "nil" ∨ word = "null" then .null
  else .path

/-- A value in which brackets and ranges nest less than `depth` deep. -/
def valueAt : Nat → Scan (Option Token)
  | 0 => pure none
  | depth + 1 => do
    if let some text ← quoted? then return some ⟨.quoted, text⟩
    if let some text ← rangeOf (valueAt depth) then return some ⟨.range, text⟩
    if let some text ← number? then return some ⟨.number, text⟩
    if let some text ← pathOf (valueAt depth) then return some ⟨wordKind text, text⟩
    return none

/-- Any value. -/
def value? : Scan (Option Token) := fun s => valueAt (s.rest.length + 1) s

/-- A range: two values with two points between them, in parentheses. -/
def range? : Scan (Option String) := rangeOf value?

/-- A property path: a name or a bracket, then dotted and bracketed segments. -/
def path? : Scan (Option String) := pathOf value?

end Scanner

end Stencil
