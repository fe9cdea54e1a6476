import Stencil.Expression.Basic
import Stencil.Proofs.Expression.Words

/-!
# Number literals

A number literal is an optional minus, digits and an optional fraction. It stands for the integer that
it spells, if there is no fraction and 64 bits hold the integer, and else for the nearest double, which
has to be finite.
-/

namespace Stencil

open Scanner (IsDigits Breaks)

-- Powers are those of the natural numbers and integers, whatever algebra is imported.
attribute [local instance (high)] instPowNat

abbrev Digits := { s : List Char // IsDigits s }

structure NumberLiteral where
  minus : Bool
  whole : Digits
  /-- The digits behind the point, if there is one. -/
  fraction : Option Digits

namespace NumberLiteral

variable (n : NumberLiteral)

def sign : List Char := if n.minus then ['-'] else []

def decimals : List Char := (n.fraction.map Subtype.val).getD []

def point : List Char := (n.fraction.map fun ds => '.' :: ds.val).getD []

def spelling : List Char := n.sign ++ (n.whole ++ n.point)

/-- The integer that is spelt, if it is one of 64 bits. -/
def int64? : Option Int :=
  match n.fraction with
  | none => Decimal.int64? (Decimal.signed n.minus (Decimal.digitsValue n.whole))
  | some _ => none

/-- The nearest double. -/
def double : Float :=
  let ds := (n.whole ++ n.decimals).dropWhile (· == '0')
  Decimal.nearest n.minus (Decimal.digitsValue ds) ds.length (-n.decimals.length)

/-- The number does not overflow both the integers and the finite doubles. -/
def Fits : Prop := n.int64?.isSome = true ∨ n.double.isFinite = true

def value : Value :=
  match n.int64? with
  | some i => .int i
  | none => .float n.double

end NumberLiteral

/-! ## Digits as the number readers take them -/

namespace Decimal

variable {ds s : List Char}

theorem isDigits_iff : isDigits s = true ↔ IsDigits s := by
  simp [isDigits, IsDigits]

theorem splitSign_digits (h : IsDigits ds) : splitSign (ds ++ s) = (false, ds ++ s) := by
  obtain ⟨hn, hd⟩ := h
  obtain ⟨c, cs, rfl⟩ := List.exists_cons_of_ne_nil hn
  have hc := hd c List.mem_cons_self
  unfold splitSign
  split
  · rename_i e
    rw [(List.cons.inj e).1] at hc
    cases hc
  · rename_i e
    rw [(List.cons.inj e).1] at hc
    cases hc
  · rfl

/-- Digits are read as the number they make, if 64 bits hold it. -/
theorem integer?_digits (h : IsDigits ds) :
    integer? ds = if digitsValue ds < 2 ^ (63 : Nat) then some (digitsValue ds : Int) else none := by
  have hs : splitSign ds = (false, ds) := by simpa using splitSign_digits (s := []) h
  simp only [integer?, hs, isDigits_iff.2 h, if_true, signed, int64?]
  by_cases hl : digitsValue ds < 2 ^ (63 : Nat)
  · rw [if_pos hl, if_neg Bool.false_ne_true, if_pos (by omega)]
  · rw [if_neg hl, if_neg Bool.false_ne_true, if_neg (by omega)]

/-- A sign or a point among the characters makes a text no digits. -/
theorem isDigits_eq_false {c : Char} (hc : c.isDigit = false) (hm : c ∈ s) : isDigits s = false := by
  have h : s.all Char.isDigit = false := List.all_eq_false.2 ⟨c, hm, by simp [hc]⟩
  simp [isDigits, h]

theorem toLower_of_isDigit {c : Char} (h : c.isDigit = true) : c.toLower = c := by
  have hc := Scanner.toNat_of_isDigit h
  unfold Char.toLower
  rw [dif_neg]
  rintro ⟨hl, -⟩
  have hl : 65 ≤ c.toNat := hl
  omega

/-- A text that starts with a digit is no word. -/
theorem lower_ne_of_digits (h : IsDigits ds) {word : String}
    (hw : word.toList.head?.any Char.isDigit = false) :
    String.ofList ((ds ++ s).map Char.toLower) ≠ word := by
  rintro rfl
  obtain ⟨hn, hd⟩ := h
  obtain ⟨c, cs, rfl⟩ := List.exists_cons_of_ne_nil hn
  have hc := hd c List.mem_cons_self
  simp [toLower_of_isDigit hc, hc] at hw

theorem float?_of_digits (h : IsDigits ds) {negative : Bool} {text : List Char}
    (hs : splitSign text = (negative, ds ++ s)) : float? text = decimal? negative (ds ++ s) := by
  rw [float?, hs]
  dsimp only
  split
  · exact absurd ‹_› (lower_ne_of_digits h (by decide))
  · exact absurd ‹_› (lower_ne_of_digits h (by decide))
  · exact absurd ‹_› (lower_ne_of_digits h (by decide))
  · rfl

end Decimal

namespace NumberLiteral

open Decimal

variable (n : NumberLiteral)

theorem splitSign_spelling : splitSign n.spelling = (n.minus, n.whole ++ n.point) := by
  unfold spelling sign
  cases n.minus with
  | true => rfl
  | false => simpa using splitSign_digits n.whole.2

theorem splitPoint_unsigned : splitPoint (n.whole ++ n.point) = (n.whole.val, n.decimals, []) := by
  unfold point decimals
  cases n.fraction with
  | none =>
    obtain ⟨ht, hd⟩ := Scanner.span_iff.2 ⟨rfl, n.whole.2.2, (rfl : Breaks Char.isDigit [])⟩
    simp only [splitPoint, Option.map_none, Option.getD_none, ht, hd]
  | some ds =>
    obtain ⟨ht, hd⟩ :=
      Scanner.span_iff.2 ⟨rfl, n.whole.2.2, (rfl : Breaks Char.isDigit ('.' :: ds.val))⟩
    obtain ⟨ht', hd'⟩ := Scanner.span_iff.2 ⟨rfl, ds.2.2, (rfl : Breaks Char.isDigit [])⟩
    rw [List.append_nil] at ht' hd'
    simp only [splitPoint, Option.map_some, Option.getD_some, ht, hd, ht', hd']

theorem integer?_spelling : integer? n.spelling = n.int64? := by
  rw [integer?, n.splitSign_spelling, int64?]
  dsimp only
  unfold point
  cases n.fraction with
  | none => simp [isDigits_iff.2 n.whole.2]
  | some ds =>
    rw [isDigits_eq_false (c := '.') rfl (by simp)]
    rfl

theorem float?_spelling : float? n.spelling = some n.double := by
  have hne : ¬ (n.whole.val.isEmpty && n.decimals.isEmpty) = true := by
    simp [n.whole.2.1]
  rw [float?_of_digits n.whole.2 n.splitSign_spelling, decimal?, n.splitPoint_unsigned]
  dsimp only
  rw [if_neg hne, double]
  simp [exponent?]

/-- A number literal that fits is read as its value. -/
theorem numeral_of_fits (h : n.Fits) : Expression.numeral n.spelling = .ok n.value := by
  rw [Expression.numeral, value, integer?_spelling]
  cases hi : n.int64? with
  | some i => rfl
  | none =>
    have hf : n.double.isFinite = true := by simpa [Fits, hi] using h
    rw [float?_spelling]
    exact if_pos hf

theorem numeral_of_not_fits (h : ¬ n.Fits) :
    Expression.numeral n.spelling = .error (.malformedIn n.spelling "invalid number") := by
  obtain ⟨hi, hf⟩ := not_or.1 h
  rw [Expression.numeral, integer?_spelling, Option.not_isSome_iff_eq_none.1 hi, float?_spelling]
  exact if_neg hf

end NumberLiteral

end Stencil
