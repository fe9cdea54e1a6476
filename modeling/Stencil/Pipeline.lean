import Stencil.Expression.Basic

/-!
# Pipelines

A `Pipeline` is an initial expression piped through filters: `user.name | prepend: "Dear " | upcase`.
Each `Invocation` names a filter and lists its arguments, positional or with a key, in the order of
the source. Text between a value and the next top-level separator is skipped.
-/

namespace Stencil

/-- An argument of a filter; without a key it is positional. -/
structure Argument where
  key : Option String
  value : Expression
  deriving Repr, Inhabited

/-- A filter's name and its arguments. -/
structure Invocation where
  name : String
  arguments : List Argument
  deriving Repr, Inhabited

structure Pipeline where
  initial : Expression
  filters : List Invocation
  deriving Repr, Inhabited

namespace Invocation

/-- A name and a colon after it, or nothing. -/
def key? : Scan (Option String) := Scanner.attempt do
  let some k ← Scanner.name? | return none
  Scanner.skipBlanks
  if ← Scanner.eat ':' then return some k else return none

/-- The arguments that are left, at most `n` of them. -/
def argumentsOf : Nat → Scan (List Argument)
  | 0 => pure []
  | n + 1 => do
    Scanner.skipBlanks
    match ← Scanner.peek with
    | none => return []
    | some ':' => Scanner.fail "named argument with empty key"
    | some ',' => Scanner.fail "empty argument"
    | some _ =>
      let key ← key?
      Scanner.skipBlanks
      match ← Scanner.value? with
      | none =>
        match key with
        | some k => Scanner.fail ("named argument '" ++ k ++ "' has no value")
        | none =>
          let rest := (← get).rest
          Scanner.fail ("unexpected '" ++ String.ofList (Text.trim rest) ++ "'")
      | some t =>
        let value ← Scanner.lift (Expression.ofToken t)
        if (← Scanner.skipTo [',']).isNone then return [{ key, value }]
        let _ ← Scanner.eat ','
        return { key, value } :: (← argumentsOf n)

/-- A filter's name, then a colon or a comma and its arguments if it has any. -/
def reader : Scan Invocation := do
  Scanner.skipBlanks
  let some name ← Scanner.name? | Scanner.fail "missing filter name"
  Scanner.skipBlanks
  if ← Scanner.atEnd then return { name, arguments := [] }
  unless ← Scanner.eat ':' do
    unless ← Scanner.eat ',' do
      Scanner.fail ("expected ':' after filter name '" ++ name ++ "'")
  return { name, arguments := ← argumentsOf ((← get).rest.length + 1) }

def ofChars (text : List Char) : Except Error Invocation := Expression.readIn reader text

/-- Reads the text that follows a bar. -/
def parse (text : String) : Except Error Invocation := ofChars text.toList

end Invocation

namespace Pipeline

/-- The filters that are left, each up to the next bar, at most `n` of them. -/
def filtersOf : Nat → Scan (List Invocation)
  | 0 => pure []
  | n + 1 => do
    unless ← Scanner.eat '|' do return []
    let span ← Scanner.taking do let _ ← Scanner.skipTo ['|']
    let filter ← Scanner.lift (Invocation.parse span)
    return filter :: (← filtersOf n)

def leading : Scan Expression := do
  Scanner.skipBlanks
  let some t ← Scanner.value? | Scanner.fail "missing initial value"
  Scanner.lift (Expression.ofToken t)

/-- An initial value and filters; what stands between the value and the first bar is skipped. -/
def reader : Scan Pipeline := do
  let initial ← leading
  let _ ← Scanner.skipTo ['|']
  return { initial, filters := ← filtersOf (← get).rest.length }

def ofChars (text : List Char) : Except Error Pipeline := Expression.readIn reader text

def parse (text : String) : Except Error Pipeline := ofChars text.toList

end Pipeline

end Stencil
