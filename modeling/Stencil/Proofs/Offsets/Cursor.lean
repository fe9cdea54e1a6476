import Stencil.Expression.Scanner
import Stencil.Proofs.Offsets.Slice
import Stencil.Proofs.Offsets.Slicing

/-!
# Cursors

A `Cursor` is a text and a byte offset in it, and nothing else: its readers cut what they look at out
of the text each time, and move the offset by numbers of bytes. They are the scanner's readers, with a
search, a walk over bytes or a difference of lengths for each number. A loop has a bound on its steps
and is stuck if the bound runs out.
-/

namespace Stencil

structure Cursor where
  input : List Char
  /-- Offset in bytes. -/
  pos : Nat
  deriving DecidableEq, Repr

/-- A reader at a byte offset: it moves the cursor, also when it fails. -/
abbrev Walk (α : Type) := Slicing Cursor α

namespace Cursor

open Slicing (stuck cut)

def ofChars (input : List Char) : Cursor := ⟨input, 0⟩

/-! ## Readers of characters -/

/-- The text from the offset on. -/
def rest : Walk (List Char) := do
  let c ← get
  cut (Text.sliceFrom? c.input c.pos)

def offset : Walk Nat := return (← get).pos

def advance (n : Nat) : Walk Unit := modify fun c => { c with pos := c.pos + n }

/-- Goes back to an offset. -/
def reset (n : Nat) : Walk Unit := modify fun c => { c with pos := n }

/-- The text from an earlier offset up to this one. -/
def since (start : Nat) : Walk String := do
  let c ← get
  return String.ofList (← cut (Text.slice? c.input start c.pos))

def fail {α : Type} (message : String) : Walk α := do
  let c ← get
  throw (.malformedIn c.input message)

def require (condition : Bool) (message : String) : Walk Unit :=
  if condition then pure () else fail message

def atEnd : Walk Bool := do
  let c ← get
  return decide (Text.byteLength c.input ≤ c.pos)

def peek : Walk (Option Char) := return (← rest).head?

def eat (c : Char) : Walk Bool := do
  if (← peek) == some c then
    advance c.utf8Size
    return true
  else return false

def eatAll (word : List Char) : Walk Bool := do
  if word.isPrefixOf (← rest) then
    advance (Text.byteLength word)
    return true
  else return false

def skipBlanks : Walk Unit := do
  let left ← rest
  advance (← cut (Text.minus? (Text.byteLength left) (Text.byteLength (Text.trimStart left))))

/-- Moves over the first `n` bytes of what is left, and gives them. -/
def take (left : List Char) (n : Nat) : Walk String := do
  advance n
  return String.ofList (← cut (Text.sliceTo? left n))

def name? : Walk (Option String) := do
  let left ← rest
  match Text.indices left with
  | [] => return none
  | (_, c) :: further =>
    if Text.startsName c then
      let stop := (Text.firstOf (fun c => !Text.continuesName c) further).getD (Text.byteLength left)
      return some (← take left stop)
    else return none

def digits? : Walk (Option String) := do
  let left ← rest
  let stop := (Text.firstOf (fun c => !c.isDigit) (Text.indices left)).getD (Text.byteLength left)
  if stop = 0 then return none
  else return some (← take left stop)

/-- A number, by its bytes; only a character decides what may follow it. -/
def number? : Walk (Option String) := do
  let left ← rest
  let bytes := Text.bytes left
  let start := if bytes.head? = some 45 then 1 else 0
  let whole := Text.digitsEnd bytes start
  if whole = start then return none
  else
    let stop := if Text.pointsAt bytes whole then Text.digitsEnd bytes (whole + 1) else whole
    if (← cut (Text.sliceFrom? left stop)).head?.any Text.startsName then return none
    else return some (← take left stop)

/-- The offset behind the quote that closes a literal. -/
def closing? (q : Char) (escaped : Bool) : List (Nat × Char) → Option Nat
  | [] => none
  | (i, c) :: further =>
    if escaped then closing? q false further
    else if c = '\\' then closing? q true further
    else if c = q then some (i + c.utf8Size)
    else closing? q false further

def quoted? : Walk (Option String) := do
  let left ← rest
  match left.head? with
  | none => return none
  | some q =>
    if Span.isQuote q then
      match closing? q false ((Text.indices left).drop 1) with
      | some stop => return some (← take left stop)
      | none => fail "unterminated string literal"
    else return none

/-- Moves on to a stop at the top level, with `depth` brackets open, in fewer than `n` steps. -/
def skipFrom (stops : List Char) : Nat → Nat → Walk (Option Char)
  | 0, _ => stuck
  | n + 1, depth => do
    match ← peek with
    | none => return none
    | some c =>
      if Span.isQuote c then
        let _ ← quoted?
        skipFrom stops n depth
      else if c = '[' ∨ c = '(' then
        advance c.utf8Size
        skipFrom stops n (depth + 1)
      else if c = ']' ∨ c = ')' then
        advance c.utf8Size
        skipFrom stops n (depth - 1)
      else if depth = 0 ∧ c ∈ stops then return some c
      else
        advance c.utf8Size
        skipFrom stops n depth

def skipTo (stops : List Char) : Walk (Option Char) := do
  skipFrom stops ((← get).input.length + 1) 0

/-! ## Readers of values -/

section
variable (inner : Walk (Option Token))

/-- `[value]` -/
def bracket : Walk Unit := do
  let _ ← eat '['
  skipBlanks
  require (← inner).isSome "expected a value inside '[...]'"
  skipBlanks
  require (← eat ']') "expected ']'"

/-- `(value..value)` -/
def parentheses : Walk Unit := do
  advance 1
  skipBlanks
  require (← inner).isSome "expected range start"
  skipBlanks
  require (← eatAll ['.', '.']) "expected '..' in range"
  skipBlanks
  require (← inner).isSome "expected range end"
  skipBlanks
  require (← eat ')') "expected ')' to close range"

def rangeOf : Walk (Option String) := do
  if (← peek) == some '(' then
    let start ← offset
    parentheses inner
    return some (← since start)
  else return none

/-- Dotted and bracketed segments, fewer than `n` of them. A point that no word follows is left. -/
def segmentsOf : Nat → Walk Unit
  | 0 => stuck
  | n + 1 => do
    match ← peek with
    | some '.' =>
      let before ← offset
      advance 1
      if (← name?).isSome then segmentsOf n
      else if (← digits?).isSome then segmentsOf n
      else reset before
    | some '[' => do bracket inner; segmentsOf n
    | _ => pure ()

def segmentsOn : Walk Unit := do segmentsOf inner ((← get).input.length + 1)

def pathOf : Walk (Option String) := do
  let start ← offset
  if (← peek) == some '[' then
    bracket inner
    segmentsOn inner
    return some (← since start)
  else if (← name?).isSome then
    segmentsOn inner
    return some (← since start)
  else return none

end

/-- A value in which brackets and ranges nest less than `depth` deep. -/
def valueAt : Nat → Walk (Option Token)
  | 0 => stuck
  | depth + 1 => do
    if let some text ← quoted? then return some ⟨.quoted, text⟩
    if let some text ← rangeOf (valueAt depth) then return some ⟨.range, text⟩
    if let some text ← number? then return some ⟨.number, text⟩
    if let some text ← pathOf (valueAt depth) then return some ⟨Scanner.wordKind text, text⟩
    return none

/-- Any value. -/
def value? : Walk (Option Token) := do valueAt ((← get).input.length + 1)

end Cursor

end Stencil
