import Stencil.Filter.Table
import Stencil.Decimal.Reading
import Stencil.Text.Trim

/-!
# Arithmetic filters

Two integers give an integer of 64 bits or an overflow error; with a double on either side the
result is a double. Texts count as the number they spell, true as one, all else as zero. Integer
division rounds down.
-/

namespace Stencil.Filter

/-- The number that a value counts as. -/
def operandOf : Value → Number
  | .number n =>
    match n.int64? with
    | some i => .int i
    | none => .float n.toFloat
  | .text s =>
    let s := Text.trim s.toList
    match Decimal.integer? s with
    | some i => .int i
    | none =>
      match Decimal.float? s with
      | some f => .float f
      | none => .int 0
  | .bool true => .int 1
  | _ => .int 0

def operand (filter : String) (args : Arguments) : Except Error Number :=
  match args.get? 0 with
  | some v => .ok (operandOf v)
  | none => .error (.filterFailed filter "missing operand")

def numberValue : Number → Value
  | .int i => .int i
  | .float f => .float f

/-- Computes with integers where both sides are, else with doubles. -/
def arithmetic (filter : String) (onInts : Int → Int → Option Int) (onFloats : Float → Float → Float)
    (input : Value) (args : Arguments) : Except Error Value := do
  match operandOf input, ← operand filter args with
  | .int a, .int b =>
    match onInts a b with
    | some c => return .int c
    | none => throw (.filterFailed filter "integer overflow")
  | a, b => return .float (onFloats a.toFloat b.toFloat)

/-- The result of an integer operation, if it fits 64 bits. -/
def checked (op : Int → Int → Int) (a b : Int) : Option Int := Decimal.int64? (op a b)

/-- The quotient rounded down, corrected from the one rounded toward zero. -/
def floorDiv (a b : Int) : Option Int :=
  if b = 0 then none
  else do
    let q ← Decimal.int64? (a.tdiv b)
    if a.tmod b ≠ 0 ∧ (decide (a < 0) != decide (b < 0)) = true then some (q - 1) else some q

def plus : Filter := .immediate (arithmetic "plus" (checked (· + ·)) (· + ·))

def minus : Filter := .immediate (arithmetic "minus" (checked (· - ·)) (· - ·))

def times : Filter := .immediate (arithmetic "times" (checked (· * ·)) (· * ·))

/-- Fails on a divisor that is zero as a double. -/
def dividedBy : Filter := .immediate fun input args => do
  if (← operand "divided_by" args).toFloat == 0 then
    throw (.filterFailed "divided_by" "division by zero")
  arithmetic "divided_by" floorDiv (· / ·) input args

end Stencil.Filter
