import Stencil.Decimal.Nearest

/-!
# Reading numbers

`integer?` reads a signed integer of 64 bits, `natural?` an unsigned one, `float?` a decimal with an
optional fraction and exponent, or one of the words for infinity and not-a-number. Each takes the
whole text or nothing. `digitsValue_eq` says what a run of digits is worth.
-/

namespace Stencil.Decimal

-- Powers are those of the natural numbers and integers, whatever algebra is imported.
attribute [local instance (high)] instPowNat

/-- The number `n` with one more digit written behind it. -/
def withDigit (n : Nat) (c : Char) : Nat := 10 * n + (c.toNat - '0'.toNat)

/-- The value of a run of digits, cut in halves `cuts` times. -/
def halvesValue : Nat → List Char → Nat
  | 0, ds => ds.foldl withDigit 0
  | cuts + 1, ds =>
    let front := ds.take (ds.length / 2)
    let back := ds.drop (ds.length / 2)
    halvesValue cuts front * 10 ^ back.length + halvesValue cuts back

/-- The value of a run of digits. A long run is cut first, so that most of the multiplications are
of short numbers. -/
def digitsValue (ds : List Char) : Nat := halvesValue (ds.length / 256 + 1).log2 ds

theorem foldl_withDigit (n : Nat) (ds : List Char) :
    ds.foldl withDigit n = n * 10 ^ ds.length + ds.foldl withDigit 0 := by
  induction ds generalizing n with
  | nil => simp
  | cons c ds ih =>
    rw [List.foldl_cons, ih, List.foldl_cons, ih (withDigit 0 c), List.length_cons, Nat.pow_succ]
    simp only [withDigit, Nat.add_mul, Nat.mul_zero, Nat.zero_add]
    rw [Nat.add_assoc, Nat.mul_comm 10 n, Nat.mul_assoc, Nat.mul_comm 10]

theorem halvesValue_eq (cuts : Nat) (ds : List Char) :
    halvesValue cuts ds = ds.foldl withDigit 0 := by
  induction cuts generalizing ds with
  | zero => rfl
  | succ cuts ih =>
    simp only [halvesValue, ih]
    rw [← foldl_withDigit, ← List.foldl_append, List.take_append_drop]

/-- The cuts do not show: each digit is worth ten times the next one. -/
theorem digitsValue_eq (ds : List Char) : digitsValue ds = ds.foldl withDigit 0 :=
  halvesValue_eq _ ds

/-- A non-empty text of ASCII digits. -/
def isDigits (s : List Char) : Bool := !s.isEmpty && s.all Char.isDigit

/-- `i`, if it fits 64 bits with a sign. -/
def int64? (i : Int) : Option Int :=
  if -2 ^ (63 : Nat) ≤ i ∧ i < 2 ^ (63 : Nat) then some i else none

/-- The sign in front of a number, and what follows. -/
def splitSign : List Char → Bool × List Char
  | '-' :: s => (true, s)
  | '+' :: s => (false, s)
  | s => (false, s)

def signed (negative : Bool) (n : Nat) : Int := if negative then -(n : Int) else n

def integer? (s : List Char) : Option Int :=
  let (negative, ds) := splitSign s
  if isDigits ds then int64? (signed negative (digitsValue ds)) else none

def natural? (s : List Char) : Option Nat :=
  let ds := match s with
    | '+' :: ds => ds
    | ds => ds
  if isDigits ds ∧ digitsValue ds < 2 ^ (64 : Nat) then some (digitsValue ds) else none

/-- Past this an exponent takes no more digits. -/
def exponentLimit : Nat := 0x10000

/-- The size of an exponent: its digits are taken from the left as long as the number they make is
below `exponentLimit`, and those behind are passed over. -/
def exponentValue (ds : List Char) : Nat :=
  ds.foldl (fun n c => if n < exponentLimit then withDigit n c else n) 0

/-- The power of ten after the digits of a decimal. -/
def exponent? : List Char → Option Int
  | [] => some 0
  | c :: s =>
    if c = 'e' ∨ c = 'E' then
      let (negative, ds) := splitSign s
      if isDigits ds then some (signed negative (exponentValue ds)) else none
    else none

/-- Digits with at most one point among them, split there. -/
def splitPoint (s : List Char) : List Char × List Char × List Char :=
  let rest := s.dropWhile Char.isDigit
  match rest with
  | '.' :: rest => (s.takeWhile Char.isDigit, rest.takeWhile Char.isDigit, rest.dropWhile Char.isDigit)
  | rest => (s.takeWhile Char.isDigit, [], rest)

def decimal? (negative : Bool) (s : List Char) : Option Float :=
  let (whole, fraction, rest) := splitPoint s
  if whole.isEmpty && fraction.isEmpty then none
  else
    let ds := (whole ++ fraction).dropWhile (· == '0')
    (exponent? rest).map fun e =>
      nearest negative (digitsValue ds) ds.length (e - fraction.length)

def float? (s : List Char) : Option Float :=
  let (negative, body) := splitSign s
  match String.ofList (body.map Char.toLower) with
  | "inf" | "infinity" => some (ofBits negative infinityBits)
  | "nan" => some (Float.ofBits 0x7FF8000000000000)
  | _ => decimal? negative body

end Stencil.Decimal
