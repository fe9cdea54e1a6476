/-!
# The shortest decimal of a double

`shortest` finds the fewest digits that read back as the same double, and of those the nearest; a
tie goes to the even digit. It works on the exact fraction behind the double: for one digit, two
digits and so on it looks at the two neighbours of the value on that decimal grid and takes the
first grid with a neighbour that rounds to the double. `text` writes the digits: positionally while
the exponent of the first digit lies within the bounds of a `Layout`, else with an exponent.
-/

namespace Stencil.Decimal

-- Powers are those of the natural numbers and integers, whatever algebra is imported.
attribute [local instance (high)] instPowNat

/-- A positive double as `mantissa * 2 ^ exponent`; `narrow` says that the doubles below it lie
closer than those above. -/
structure Binary where
  mantissa : Nat
  exponent : Int
  narrow : Bool

def Binary.ofBits (bits : Nat) : Binary :=
  let field : Nat := bits / 2 ^ (52 : Nat) % 2 ^ (11 : Nat)
  let fraction : Nat := bits % 2 ^ (52 : Nat)
  if field = 0 then ⟨fraction, -1074, false⟩
  else ⟨2 ^ (52 : Nat) + fraction, (field : Int) - 1075, fraction == 0 && decide (1 < field)⟩

/-- The value and the ends of the interval that rounds to it, as `value / den`, `low / den` and
`high / den`. -/
structure Interval where
  low : Nat
  value : Nat
  high : Nat
  den : Nat
  closed : Bool

def Binary.interval (b : Binary) : Interval :=
  let e := b.exponent - 2
  let up := 2 ^ e.toNat
  { low := (4 * b.mantissa - if b.narrow then 1 else 2) * up
    value := 4 * b.mantissa * up
    high := (4 * b.mantissa + 2) * up
    den := 2 ^ (-e).toNat
    closed := b.mantissa % 2 == 0 }

/-- The interval in units of `10 ^ k`. -/
def Interval.inUnits (i : Interval) (k : Int) : Interval :=
  let up := 10 ^ (-k).toNat
  { i with low := i.low * up, value := i.value * up, high := i.high * up, den := i.den * 10 ^ k.toNat }

/-- The whole number `x` rounds to the value. -/
def Interval.holds (i : Interval) (x : Nat) : Bool :=
  let y := x * i.den
  if i.closed then decide (i.low ≤ y ∧ y ≤ i.high) else decide (i.low < y ∧ y < i.high)

/-- The whole number nearest to the value among its neighbours that round to it. -/
def Interval.whole? (i : Interval) : Option Nat :=
  let below := i.value / i.den
  let rest := i.value % i.den
  match i.holds below, i.holds (below + 1) with
  | true, false => some below
  | false, true => some (below + 1)
  | false, false => none
  | true, true =>
    some (if 2 * rest < i.den then below
      else if i.den < 2 * rest then below + 1
      else below + below % 2)

def digitCount (n : Nat) : Nat := (Nat.toDigits 10 n).length

/-- The exponent of the first decimal digit of the value. -/
def Interval.leading (i : Interval) : Int :=
  if i.den ≤ i.value then digitCount (i.value / i.den) - 1
  else
    let j := digitCount (i.den / i.value)
    if i.den ≤ i.value * 10 ^ (j - 1) then -((j - 1 : Nat) : Int) else -(j : Int)

/-- Tries `17 - left` digits and more; gives the digits as a number and their unit's exponent. -/
def Interval.search (i : Interval) (leading : Int) : Nat → Nat × Int
  | 0 => (i.value / i.den, 0)
  | left + 1 =>
    let k := leading - (16 - left : Nat)
    match (i.inUnits k).whole? with
    | some x => (x, k)
    | none => i.search leading left

/-- Digits of a positive double, and the exponent of the first. -/
def shortest (bits : Nat) : List Char × Int :=
  let i := (Binary.ofBits bits).interval
  let (x, k) := i.search i.leading 17
  let ds := Nat.toDigits 10 x
  ((ds.reverse.dropWhile (· == '0')).reverse, k + ds.length - 1)

/-- Exponents of the first digit from `lowest` to `highest` are written positionally. -/
structure Layout where
  lowest : Int
  highest : Int

def zeros (n : Nat) : List Char := List.replicate n '0'

/-- A number with its point in place and a digit on either side of it. -/
def positional (ds : List Char) (exponent : Int) : List Char :=
  if exponent < 0 then ['0', '.'] ++ zeros (-exponent - 1).toNat ++ ds
  else
    let whole := exponent.toNat + 1
    if ds.length ≤ whole then ds ++ zeros (whole - ds.length) ++ ['.', '0']
    else ds.take whole ++ '.' :: ds.drop whole

/-- One digit before the point, and the exponent with its sign. -/
def scientific (ds : List Char) (exponent : Int) : List Char :=
  let mantissa := match ds with
    | d :: e :: ds => d :: '.' :: e :: ds
    | ds => ds
  mantissa ++ 'e' :: (if exponent < 0 then '-' else '+') :: Nat.toDigits 10 exponent.natAbs

def Layout.write (l : Layout) (ds : List Char) (exponent : Int) : List Char :=
  if l.lowest ≤ exponent ∧ exponent ≤ l.highest then positional ds exponent
  else scientific ds exponent

/-- The text of a finite double. -/
def text (l : Layout) (f : Float) : String :=
  let bits := f.toBits.toNat
  let magnitude := bits % 2 ^ (63 : Nat)
  let body :=
    if magnitude = 0 then ['0', '.', '0']
    else
      let (ds, e) := shortest magnitude
      l.write ds e
  String.ofList (if 2 ^ (63 : Nat) ≤ bits then '-' :: body else body)

end Stencil.Decimal
