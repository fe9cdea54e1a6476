import Mathlib
import Stencil.Filter.Arithmetic
import Stencil.Proofs.Decimal.Doubles
import Stencil.Proofs.Decimal.Integers

/-!
# Arithmetic on integers

What the arithmetic filters do where both sides count as integers of 64 bits. `CountsAs` says which
values count as which integer, without the readers of numbers. Sums, differences and products are
exact or do not fit; the quotient is rounded down, and every number on the way to it fits.
-/

namespace Stencil

-- Powers are those of the natural numbers and integers, whatever algebra is imported.
attribute [local instance (high)] instPowNat

namespace Filter

open Decimal (IsInt64 Spells)

/-- The values that count as an integer of 64 bits, and the integer. -/
inductive CountsAs : Value → Int → Prop
  | int {i : Int} (h : IsInt64 i) : CountsAs (.int i) i
  | text {s : String} {i : Int} (h : Spells (Text.trim s.toList) i) (hi : IsInt64 i) :
      CountsAs (.text s) i
  | noNumber {s : String} (h : Decimal.float? (Text.trim s.toList) = none) : CountsAs (.text s) 0
  | yes : CountsAs (.bool true) 1
  | no : CountsAs (.bool false) 0
  | null : CountsAs .null 0
  | list (items : List Value) : CountsAs (.list items) 0
  | object (fields : List (String × Value)) : CountsAs (.object fields) 0

variable {input operand v : Value} {a b i : Int} {args : Arguments} {name : String}

theorem operandOf_of_countsAs (h : CountsAs v i) : operandOf v = .int i := by
  cases h with
  | int h => simp only [operandOf, Value.int, Number.int64?, Decimal.int64?_of_isInt64 h]
  | text h hi => simp only [operandOf, Decimal.integer?_eq_some_iff.2 ⟨h, hi⟩]
  | noNumber h =>
    have hint := Decimal.integer?_eq_none fun i hi => absurd h (Decimal.float?_ne_none_of_spells hi)
    simp only [operandOf, hint, h]
  | yes => rfl
  | no => rfl
  | null => rfl
  | list items => rfl
  | object fields => rfl

/-- No other values count as integers. -/
theorem countsAs_of_operandOf (h : operandOf v = .int i) : CountsAs v i := by
  unfold operandOf at h
  split at h
  · rename_i n
    split at h
    · rename_i j hj
      cases n with
      | int k =>
        obtain ⟨hk, rfl⟩ := Decimal.int64?_eq_some_iff.1 hj
        cases h
        exact .int hk
      | float f => cases hj
    · cases h
  · rename_i s
    dsimp only at h
    split at h
    · rename_i j hj
      cases h
      obtain ⟨hs, hi⟩ := Decimal.integer?_eq_some_iff.1 hj
      exact .text hs hi
    · split at h
      · cases h
      · rename_i hf
        cases h
        exact .noNumber hf
  · cases h
    exact .yes
  · rename_i hnumber htext htrue
    cases h
    cases v with
    | null => exact .null
    | bool b =>
      cases b with
      | false => exact .no
      | true => exact absurd rfl htrue
    | number n => exact absurd rfl (hnumber n)
    | text s => exact absurd rfl (htext s)
    | list items => exact .list items
    | object fields => exact .object fields

theorem operandOf_eq_int_iff : operandOf v = .int i ↔ CountsAs v i :=
  ⟨countsAs_of_operandOf, operandOf_of_countsAs⟩

theorem CountsAs.isInt64 (h : CountsAs v i) : IsInt64 i := by
  cases h with
  | int h => exact h
  | text _ hi => exact hi
  | _ => decide

/-! ## Sums, differences and products -/

/-- An exact result, where it fits. -/
def fitting (name : String) (i : Int) : Except Error Resolution :=
  if IsInt64 i then .ok (.settled (.int i)) else .error (.filterFailed name "integer overflow")

section Operands

variable (ha : CountsAs input a) (harg : args.get? 0 = some operand) (hb : CountsAs operand b)

include harg hb in
theorem operand_of_countsAs : Filter.operand name args = .ok (.int b) := by
  rw [Filter.operand, harg]
  exact congrArg Except.ok (operandOf_of_countsAs hb)

include ha harg hb

theorem arithmetic_of_countsAs {onInts : Int → Int → Option Int} {onFloats : Float → Float → Float} :
    arithmetic name onInts onFloats input args =
      match onInts a b with
      | some c => .ok (.int c)
      | none => .error (.filterFailed name "integer overflow") := by
  rw [arithmetic, operandOf_of_countsAs ha, operand_of_countsAs harg hb]
  rfl

theorem immediate_checked {op : Int → Int → Int} {onFloats : Float → Float → Float} :
    Filter.immediate (arithmetic name (checked op) onFloats) input args = fitting name (op a b) := by
  rw [Filter.immediate, arithmetic_of_countsAs ha harg hb, checked, fitting]
  by_cases h : IsInt64 (op a b)
  · rw [Decimal.int64?_of_isInt64 h, if_pos h]
    rfl
  · rw [Decimal.int64?_of_not_isInt64 h, if_neg h]
    rfl

end Operands

/-! ## Quotients -/

/-- The one quotient of integers of 64 bits, other than by zero, that does not fit. -/
def Overflows (a b : Int) : Prop := a = -2 ^ (63 : Nat) ∧ b = -1

/-- Every number on the way to the quotient rounded down fits 64 bits. -/
structure Steps (a b : Int) : Prop where
  quotient : IsInt64 (a.tdiv b)
  remainder : IsInt64 (a.tmod b)
  decrement : a.tmod b ≠ 0 → IsInt64 (a.tdiv b - 1)

theorem natAbs_le (h : IsInt64 a) : a.natAbs ≤ 2 ^ 63 := by
  unfold IsInt64 at h
  omega

theorem isInt64_of_natAbs_lt (h : a.natAbs < 2 ^ 63) : IsInt64 a := by
  unfold IsInt64
  omega

/-- Division by two or more halves the number, so that nothing gets near the bounds. -/
theorem natAbs_tdiv_le (h : IsInt64 a) (hb : 2 ≤ b.natAbs) : (a.tdiv b).natAbs ≤ 2 ^ 62 := by
  rw [Int.natAbs_tdiv]
  calc a.natAbs / b.natAbs ≤ a.natAbs / 2 := Nat.div_le_div_left hb (by decide)
    _ ≤ 2 ^ 62 := by have := natAbs_le h; omega

/-- A remainder is smaller than the divisor, which fits. -/
theorem isInt64_tmod (hb : b ≠ 0) (h : IsInt64 b) : IsInt64 (a.tmod b) := by
  apply isInt64_of_natAbs_lt
  rw [Int.natAbs_tmod]
  exact Nat.lt_of_lt_of_le (Nat.mod_lt _ (Int.natAbs_pos.2 hb)) (natAbs_le h)

theorem steps (ha : IsInt64 a) (hb : IsInt64 b) (hzero : b ≠ 0) (hover : ¬ Overflows a b) :
    Steps a b := by
  by_cases hlarge : 2 ≤ b.natAbs
  · have hq := natAbs_tdiv_le ha hlarge
    exact ⟨isInt64_of_natAbs_lt (by omega), isInt64_tmod hzero hb,
      fun _ => isInt64_of_natAbs_lt (by omega)⟩
  · -- By one and its opposite there is no remainder.
    obtain rfl | rfl : b = 1 ∨ b = -1 := by omega
    · rw [← Int.tdiv_one a] at ha
      exact ⟨ha, isInt64_tmod hzero hb, fun h => absurd (Int.tmod_one a) h⟩
    · have hq : a.tdiv (-1) = -a := by rw [Int.tdiv_neg, Int.tdiv_one]
      have hfit : IsInt64 (-a) := by
        unfold Overflows IsInt64 at *
        omega
      refine ⟨hq ▸ hfit, isInt64_tmod hzero hb, fun h => absurd ?_ h⟩
      rw [Int.tmod_neg, Int.tmod_one]

/-- The quotient rounded down is the one rounded toward zero, corrected where the signs differ. -/
theorem fdiv_eq_corrected (hb : b ≠ 0) :
    a.fdiv b = if a.tmod b ≠ 0 ∧ (decide (a < 0) != decide (b < 0)) = true then a.tdiv b - 1
      else a.tdiv b := by
  have hdvd : b ∣ a ↔ a.tmod b = 0 := Int.dvd_iff_tmod_eq_zero
  rw [Int.fdiv_eq_tdiv]
  by_cases hr : a.tmod b = 0
  · simp [hr, hdvd]
  · obtain ha | ha := lt_or_ge a 0 <;> obtain hb | hb := lt_or_gt_of_ne hb
    · simp [hr, hdvd, ha, hb, ha.not_ge, hb.not_ge, Int.sign_eq_neg_one_of_neg hb]
    · simp [hr, hdvd, ha, ha.not_ge, hb.not_gt, hb.le, Int.sign_eq_one_of_pos hb]
    · simp [hr, hdvd, ha, ha.not_gt, hb, hb.not_ge]
    · simp [hr, hdvd, ha, ha.not_gt, hb.not_gt, hb.le]

theorem floorDiv_of_steps (hb : b ≠ 0) (h : Steps a b) : floorDiv a b = some (a.fdiv b) := by
  rw [floorDiv, if_neg hb, Decimal.int64?_of_isInt64 h.quotient, fdiv_eq_corrected hb]
  exact (apply_ite some _ _ _).symm

theorem Steps.isInt64_fdiv (hb : b ≠ 0) (h : Steps a b) : IsInt64 (a.fdiv b) := by
  rw [fdiv_eq_corrected hb]
  split
  · rename_i hc
    exact h.decrement hc.1
  · exact h.quotient

theorem floorDiv_of_overflows (h : Overflows a b) : floorDiv a b = none := by
  obtain ⟨rfl, rfl⟩ := h
  decide

/-- `q` is the quotient rounded down: the floor of the fraction, with a remainder that is smaller than
the divisor and has its sign. -/
structure Quotient (a b q : Int) : Prop where
  floor : q = ⌊(a / b : ℚ)⌋
  remainder : ∃ r, a = b * q + r ∧ |r| < |b| ∧ (r = 0 ∨ r.sign = b.sign)

theorem fdiv_eq_floor (a b : Int) : a.fdiv b = ⌊(a / b : ℚ)⌋ := by
  have hpos : ∀ a b : Int, 0 ≤ b → a.fdiv b = ⌊(a / b : ℚ)⌋ := by
    intro a b hb
    lift b to Nat using hb
    rw [Int.fdiv_eq_ediv_of_nonneg a (Int.natCast_nonneg _)]
    exact (Rat.floor_intCast_div_natCast a _).symm
  obtain hb | hb := le_total 0 b
  · exact hpos a b hb
  · simpa using hpos (-a) (-b) (by omega)

theorem fmod_of_pos (hb : 0 < b) :
    |a.fmod b| < |b| ∧ (a.fmod b = 0 ∨ (a.fmod b).sign = b.sign) := by
  have h₀ := Int.fmod_nonneg_of_pos a hb
  have h₁ := Int.fmod_lt_of_pos a hb
  refine ⟨by rwa [abs_of_nonneg h₀, abs_of_pos hb], h₀.eq_or_lt.imp Eq.symm fun h => ?_⟩
  rw [Int.sign_eq_one_of_pos h, Int.sign_eq_one_of_pos hb]

theorem quotient_fdiv (hb : b ≠ 0) : Quotient a b (a.fdiv b) := by
  refine ⟨fdiv_eq_floor a b, a.fmod b, (Int.mul_fdiv_add_fmod a b).symm, ?_⟩
  obtain hneg | hpos := lt_or_gt_of_ne hb
  · obtain ⟨hlt, hsign⟩ := fmod_of_pos (a := -a) (b := -b) (by omega)
    rw [Int.neg_fmod_neg] at hlt hsign
    simpa using And.intro hlt hsign
  · exact fmod_of_pos hpos

/-! ## The filters -/

/-- As a double, no integer but zero is zero. -/
theorem toFloat_beq_zero (h : IsInt64 b) : ((Number.int b).toFloat == 0) = decide (b = 0) := by
  refine Decimal.ofInt_beq_zero ?_
  obtain rfl | hb := eq_or_ne b 0
  · decide
  · have hlt : b.natAbs < 2 ^ 64 := by have := natAbs_le h; omega
    have := (Nat.log2_lt (Int.natAbs_ne_zero.2 hb)).2 hlt
    omega

theorem dividedBy_of_countsAs (ha : CountsAs input a) (harg : args.get? 0 = some operand)
    (hb : CountsAs operand b) : dividedBy input args =
      if b = 0 then .error (.filterFailed "divided_by" "division by zero")
      else match floorDiv a b with
        | some q => .ok (.settled (.int q))
        | none => .error (.filterFailed "divided_by" "integer overflow") := by
  rw [dividedBy, Filter.immediate, operand_of_countsAs harg hb, arithmetic_of_countsAs ha harg hb]
  simp only [bind, Except.bind, toFloat_beq_zero hb.isInt64, decide_eq_true_eq]
  by_cases hzero : b = 0
  · rw [if_pos hzero, if_pos hzero]
    rfl
  · rw [if_neg hzero, if_neg hzero]
    cases floorDiv a b <;> rfl

/-- Where input and operand count as integers, sums, differences and products are exact if they fit,
and errors otherwise. A quotient is rounded down; it fails for a zero divisor, told by its double, and
for the one quotient that does not fit. Nothing on the way to it leaves the 64 bits. -/
theorem integer_arithmetic (ha : CountsAs input a) (harg : args.get? 0 = some operand)
    (hb : CountsAs operand b) :
    plus input args = fitting "plus" (a + b) ∧
    minus input args = fitting "minus" (a - b) ∧
    times input args = fitting "times" (a * b) ∧
    ((operandOf operand).toFloat == 0) = decide (b = 0) ∧
    (b = 0 → dividedBy input args = .error (.filterFailed "divided_by" "division by zero")) ∧
    (Overflows a b →
      dividedBy input args = .error (.filterFailed "divided_by" "integer overflow")) ∧
    (b ≠ 0 → ¬ Overflows a b → Steps a b ∧
      ∃ q, dividedBy input args = .ok (.settled (.int q)) ∧ IsInt64 q ∧ Quotient a b q) := by
  have hdivided := dividedBy_of_countsAs ha harg hb
  refine ⟨immediate_checked ha harg hb, immediate_checked ha harg hb, immediate_checked ha harg hb,
    ?_, fun hzero => ?_, fun hover => ?_, fun hzero hover => ?_⟩
  · rw [operandOf_of_countsAs hb, toFloat_beq_zero hb.isInt64]
  · rw [hdivided, if_pos hzero]
  · have hzero : b ≠ 0 := by
      rw [hover.2]
      decide
    rw [hdivided, if_neg hzero, floorDiv_of_overflows hover]
  · have hsteps := steps ha.isInt64 hb.isInt64 hzero hover
    refine ⟨hsteps, a.fdiv b, ?_, hsteps.isInt64_fdiv hzero, quotient_fdiv hzero⟩
    rw [hdivided, if_neg hzero, floorDiv_of_steps hzero hsteps]

/-- Minus seven, divided by a text that spells two, is minus four. -/
theorem integer_arithmetic_mixed_signs :
    CountsAs (.int (-7)) (-7) ∧ CountsAs (.text " +2 ") 2 ∧
      dividedBy (.int (-7)) ⟨[.text " +2 "], none⟩ = .ok (.settled (.int (-4))) := by
  have ha : CountsAs (.int (-7)) (-7) := .int (by decide)
  have hb : CountsAs (.text " +2 ") 2 := by
    have htrim : Text.trim " +2 ".toList = ['+', '2'] := by decide
    exact .text (htrim ▸ .plus (Decimal.isDigits_iff.1 (by decide))) (by decide)
  have hargs : Arguments.get? ⟨[.text " +2 "], none⟩ 0 = some (.text " +2 ") := rfl
  obtain ⟨-, -, -, -, -, -, h⟩ := integer_arithmetic ha hargs hb
  obtain ⟨-, q, hq, -, hfloor, -⟩ := h (by decide) (by unfold Overflows; decide)
  obtain rfl : q = -4 := by
    rw [hfloor, ← fdiv_eq_floor]
    decide
  exact ⟨ha, hb, hq⟩

end Filter

end Stencil
