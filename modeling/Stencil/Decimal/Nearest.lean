/-!
# The nearest double

`nearestBits n d` is the bit pattern of the double nearest to the positive fraction `n / d`, ties
going to the even mantissa; past the largest double it is the pattern of infinity. The work is done
on natural numbers.
-/

namespace Stencil.Decimal

-- Powers are those of the natural numbers and integers, whatever algebra is imported.
attribute [local instance (high)] instPowNat

/-- `n / d` divided by `2 ^ e`, as a fraction. -/
def scaleDown (n d : Nat) (e : Int) : Nat × Nat :=
  if 0 ≤ e then (n, d * 2 ^ e.toNat) else (n * 2 ^ (-e).toNat, d)

/-- The natural number nearest to `n / d`, ties to even. -/
def roundHalfEven (n d : Nat) : Nat :=
  let q := n / d
  let r := n % d
  if 2 * r < d then q else if d < 2 * r then q + 1 else q + q % 2

def infinityBits : Nat := 0x7FF0000000000000

def signBit : Nat := 0x8000000000000000

/-- The exponent that gives `n / d` a mantissa of 53 bits, or the smallest one there is. -/
def exponentOf (n d : Nat) : Int :=
  let e : Int := (n.log2 : Int) - d.log2 - 52
  let (a, b) := scaleDown n d e
  max (if a / b < 2 ^ (52 : Nat) then e - 1 else e) (-1074)

def nearestBits (n d : Nat) : Nat :=
  let e := exponentOf n d
  let (a, b) := scaleDown n d e
  min ((e + 1074).toNat * 2 ^ (52 : Nat) + roundHalfEven a b) infinityBits

def ofBits (negative : Bool) (bits : Nat) : Float :=
  Float.ofBits (UInt64.ofNat (if negative then signBit + bits else bits))

/-- The double nearest to `± digits * 10 ^ exponent`; `count` is the number of decimal digits. -/
def nearest (negative : Bool) (digits count : Nat) (exponent : Int) : Float :=
  ofBits negative <|
    if digits = 0 then 0
    else if 310 < count + exponent then infinityBits
    else if count + exponent < -330 then 0
    else if 0 ≤ exponent then nearestBits (digits * 10 ^ exponent.toNat) 1
    else nearestBits digits (10 ^ (-exponent).toNat)

/-- The double nearest to an integer. -/
def ofInt (i : Int) : Float :=
  ofBits (decide (i < 0)) (if i = 0 then 0 else nearestBits i.natAbs 1)

end Stencil.Decimal
