import Mathlib
import Stencil.Decimal.Nearest

/-!
# The doubles of integers

Bit patterns are related to the numbers they stand for. The main results are about the double of an
integer: it is zero for zero only, and cut back to an integer it is as large as its power of two.
-/

namespace Stencil.Decimal

open Float.Model (Format UnpackedFloat)
open Float.Model.UnpackedFloat (Sign)

/-! ## Patterns of normal numbers -/

def signOf (negative : Bool) : Sign := if negative then .negative else .positive

variable {s : Sign} {E : BitVec 11} {f : BitVec 52}

theorem toNat_implicit (f : BitVec 52) : (1#1 ++ f).toNat = 2 ^ 52 + f.toNat := by
  rw [BitVec.toNat_append, ← Nat.shiftLeft_add_eq_or_of_lt f.isLt, Nat.shiftLeft_eq]
  rfl

theorem unpack_packComponents (hz : E ≠ 0#11) (hm : E ≠ -1#11) :
    UnpackedFloat.unpack Format.binary64 (UnpackedFloat.packComponents Format.binary64 s E f) =
      .finite s (2 ^ 52 + f.toNat) (E.toNat - 1075) (by omega) := by
  simp only [UnpackedFloat.unpack, UnpackedFloat.unpackExponent_packComponents, if_neg hz, if_neg hm,
    UnpackedFloat.unpackMantissa_packComponents, UnpackedFloat.unpackSign_packComponents,
    Sign.ofBitVec_toBitVec, toNat_implicit]
  rfl

theorem toNat_packComponents :
    (UnpackedFloat.packComponents Format.binary64 s E f).toNat =
      s.toBitVec.toNat * 2 ^ 63 + E.toNat * 2 ^ 52 + f.toNat := by
  have hE : E.toNat < 2048 := E.isLt
  have hf : f.toNat < 2 ^ 52 := f.isLt
  change (s.toBitVec ++ E ++ f).toNat = _
  rw [BitVec.toNat_append, BitVec.toNat_append, ← Nat.shiftLeft_add_eq_or_of_lt hf,
    ← Nat.shiftLeft_add_eq_or_of_lt hE, Nat.shiftLeft_eq, Nat.shiftLeft_eq]
  omega

/-- The pattern of a double from its sign, its exponent field and its fraction. -/
theorem toBitVec_eq_packComponents (negative : Bool) {E f : Nat} (hE : E < 2048) (hf : f < 2 ^ 52) :
    (UInt64.ofNat (if negative then signBit + (E * 2 ^ 52 + f) else E * 2 ^ 52 + f)).toBitVec =
      UnpackedFloat.packComponents Format.binary64 (signOf negative) (BitVec.ofNat 11 E)
        (BitVec.ofNat 52 f) := by
  apply BitVec.eq_of_toNat_eq
  have hE' : (BitVec.ofNat 11 E).toNat = E := Nat.mod_eq_of_lt hE
  have hf' : (BitVec.ofNat 52 f).toNat = f := Nat.mod_eq_of_lt hf
  rw [toNat_packComponents, hE', hf', UInt64.toNat_toBitVec, UInt64.toNat_ofNat']
  cases negative with
  | false =>
    have hsign : (signOf false).toBitVec.toNat = 0 := rfl
    rw [hsign, if_neg Bool.false_ne_true]
    omega
  | true =>
    have hsign : (signOf true).toBitVec.toNat = 1 := rfl
    rw [hsign, if_pos rfl, signBit]
    omega

/-- The double of a pattern whose exponent field is neither that of zero nor that of infinity. -/
theorem unpack_ofBits (negative : Bool) {E f : Nat} (hz : 0 < E) (hm : E < 2047) (hf : f < 2 ^ 52) :
    (ofBits negative (E * 2 ^ 52 + f)).toModel.unpack =
      .finite (signOf negative) (2 ^ 52 + f) ((E : Int) - 1075) (by omega) := by
  have hE : (BitVec.ofNat 11 E).toNat = E := Nat.mod_eq_of_lt (by omega)
  have hf' : (BitVec.ofNat 52 f).toNat = f := Nat.mod_eq_of_lt hf
  have hz' : BitVec.ofNat 11 E ≠ 0#11 := fun h => by
    have := congrArg BitVec.toNat h
    rw [hE] at this
    exact Nat.ne_of_gt hz this
  have hm' : BitVec.ofNat 11 E ≠ -1#11 := fun h => by
    have := congrArg BitVec.toNat h
    rw [hE] at this
    exact Nat.ne_of_lt hm this
  have hnan : UnpackedFloat.isNaNBits (UnpackedFloat.packComponents Format.binary64
      (signOf negative) (BitVec.ofNat 11 E) (BitVec.ofNat 52 f)) = false := by
    rw [UnpackedFloat.isNaNBits, UnpackedFloat.unpackExponent_packComponents]
    exact decide_eq_false fun h => hm' h.1
  -- A pattern is packed again once to make a double.
  change UnpackedFloat.unpack Format.binary64 (UnpackedFloat.pack Format.binary64
    (UnpackedFloat.unpack Format.binary64 (UInt64.ofNat _).toBitVec)) = _
  rw [toBitVec_eq_packComponents negative (by omega) hf, UnpackedFloat.pack_unpack, hnan,
    if_neg Bool.false_ne_true, unpack_packComponents hz' hm']
  simp only [hE, hf']

/-! ## Doubles of integers -/

theorem roundHalfEven_bounds (n d : Nat) :
    n / d ≤ roundHalfEven n d ∧ roundHalfEven n d ≤ n / d + 1 := by
  unfold roundHalfEven
  have := Nat.mod_lt (n / d) (by omega : 0 < 2)
  dsimp only
  split
  · omega
  · split <;> omega

/-- Scaled by its power of two, a positive integer has a mantissa of 53 bits. -/
theorem mantissa_bounds {n : Nat} (hn : 0 < n) :
    2 ^ 52 ≤ (scaleDown n 1 (n.log2 - 52)).1 / (scaleDown n 1 (n.log2 - 52)).2 ∧
      (scaleDown n 1 (n.log2 - 52)).1 / (scaleDown n 1 (n.log2 - 52)).2 < 2 ^ 53 := by
  obtain ⟨hle, hlt⟩ := (Nat.log2_eq_iff (Nat.ne_of_gt hn)).1 rfl
  unfold scaleDown
  split
  · obtain ⟨j, hj⟩ : ∃ j, n.log2 = 52 + j := ⟨n.log2 - 52, by omega⟩
    have he : ((n.log2 : Int) - 52).toNat = j := by omega
    rw [hj, Nat.pow_add] at hle
    rw [hj, Nat.add_right_comm, Nat.pow_add] at hlt
    simp only [he, Nat.one_mul]
    exact ⟨(Nat.le_div_iff_mul_le (Nat.two_pow_pos j)).2 hle,
      (Nat.div_lt_iff_lt_mul (Nat.two_pow_pos j)).2 hlt⟩
  · obtain ⟨j, hj⟩ : ∃ j, 52 = n.log2 + j := ⟨52 - n.log2, by omega⟩
    have he : (-((n.log2 : Int) - 52)).toNat = j := by omega
    have h₁ : 2 ^ 52 = 2 ^ n.log2 * 2 ^ j := by rw [← Nat.pow_add, ← hj]
    have h₂ : 2 ^ 53 = 2 ^ (n.log2 + 1) * 2 ^ j := by rw [← Nat.pow_add]; congr 1; omega
    simp only [he, Nat.div_one]
    rw [h₁, h₂]
    exact ⟨Nat.mul_le_mul_right _ hle, Nat.mul_lt_mul_of_pos_right hlt (Nat.two_pow_pos j)⟩

theorem exponentOf_one {n : Nat} (hn : 0 < n) : exponentOf n 1 = (n.log2 : Int) - 52 := by
  have hone : Nat.log2 1 = 0 := by decide
  have hm := (mantissa_bounds hn).1
  simp only [exponentOf, hone, Int.ofNat_zero, Int.sub_zero, if_neg (Nat.not_lt.2 hm)]
  omega

/-- The double of a positive integer lies between the powers of two on both sides. -/
theorem nearestBits_one_bounds {n : Nat} (hn : 0 < n) (hk : n.log2 < 1023) :
    (n.log2 + 1023) * 2 ^ 52 ≤ nearestBits n 1 ∧ nearestBits n 1 ≤ (n.log2 + 1024) * 2 ^ 52 := by
  have he : ((n.log2 : Int) - 52 + 1074).toNat = n.log2 + 1022 := by omega
  obtain ⟨hm₁, hm₂⟩ := mantissa_bounds hn
  obtain ⟨hr₁, hr₂⟩ :=
    roundHalfEven_bounds (scaleDown n 1 (n.log2 - 52)).1 (scaleDown n 1 (n.log2 - 52)).2
  simp only [nearestBits, exponentOf_one hn, he, infinityBits]
  generalize roundHalfEven _ _ = r at hr₁ hr₂ ⊢
  generalize (scaleDown n 1 (n.log2 - 52)).1 / _ = q at hm₁ hm₂ hr₁ hr₂
  generalize n.log2 = k at hk ⊢
  omega

/-- The double of an integer other than zero is finite, of the same sign, and no smaller than its
power of two. -/
theorem unpack_ofInt {i : Int} (hi : i ≠ 0) (hk : i.natAbs.log2 < 1022) :
    ∃ m e h, (ofInt i).toModel.unpack = .finite (signOf (decide (i < 0))) m e h ∧
      2 ^ 52 ≤ m ∧ (i.natAbs.log2 : Int) - 52 ≤ e := by
  obtain ⟨hle, hge⟩ := nearestBits_one_bounds (n := i.natAbs) (by omega) (by omega)
  obtain ⟨E, f, hbits, hf⟩ : ∃ E f, nearestBits i.natAbs 1 = E * 2 ^ 52 + f ∧ f < 2 ^ 52 :=
    ⟨_, _, (Nat.div_add_mod' _ (2 ^ 52)).symm, Nat.mod_lt _ (Nat.two_pow_pos 52)⟩
  rw [ofInt, if_neg hi, hbits]
  exact ⟨_, _, _, unpack_ofBits _ (by omega) (by omega) hf, Nat.le_add_right .., by omega⟩

theorem ofInt_beq_zero {i : Int} (hk : i.natAbs.log2 < 1022) : (ofInt i == 0) = decide (i = 0) := by
  by_cases hi : i = 0
  · subst hi
    rfl
  · obtain ⟨m, e, h, hu, -⟩ := unpack_ofInt hi hk
    have hzero : (0 : Float).toModel.unpack = .zero .positive := rfl
    change UnpackedFloat.beq (ofInt i).toModel.unpack (0 : Float).toModel.unpack = _
    rw [hu, hzero, decide_eq_false hi]
    cases decide (i < 0) <;> rfl

/-- A number with no places behind the point is cut nowhere. -/
theorem roundToInt_of_nonneg {m : Nat} {e : Int} (he : 0 ≤ e) :
    UnpackedFloat.roundToInt s m e = s.apply ((m * 2 ^ e.toNat : Nat) : Int) := by
  have hshift : (e - 0).toNat = e.toNat := by rw [Int.sub_zero]
  have hrest : (0 - (e - (e.toNat : Int))).toNat = 0 := by omega
  simp only [UnpackedFloat.roundToInt, UnpackedFloat.decreaseExponent,
    UnpackedFloat.shiftToExponent, hshift, hrest, Nat.shiftLeft_eq]
  rfl

theorem toInt_ofIntClamp_large {i : Int} (hi : 2 ^ 63 - 1 ≤ i) :
    (Int64.ofIntClamp i).toInt = 2 ^ 63 - 1 := by
  rw [Int64.ofIntClamp, dif_pos (by rw [Int64.toInt_minValue]; omega)]
  split
  · rename_i hr
    rw [Int64.toInt_maxValue] at hr
    rw [Int64.toInt_ofIntLE]
    omega
  · exact Int64.toInt_maxValue

/-- The double of an integer past those of 64 bits with a sign is cut to the largest of them. -/
theorem toInt64_ofInt_large {i : Int} (hi : 2 ^ 63 ≤ i) (hk : i.natAbs.log2 < 1022) :
    (ofInt i).toModel.toInt64.toInt = 2 ^ 63 - 1 := by
  have hlog : 63 ≤ i.natAbs.log2 := (Nat.le_log2 (by omega)).2 (by omega)
  obtain ⟨m, e, h, hu, hm, he⟩ := unpack_ofInt (by omega : i ≠ 0) hk
  have hpow : 2 ^ 11 ≤ 2 ^ e.toNat := Nat.pow_le_pow_right (by decide) (by omega)
  have hlarge : 2 ^ 63 ≤ m * 2 ^ e.toNat :=
    calc 2 ^ 63 = 2 ^ 52 * 2 ^ 11 := by decide
      _ ≤ m * 2 ^ e.toNat := Nat.mul_le_mul hm hpow
  change (UnpackedFloat.toInt64 (ofInt i).toModel.unpack).toInt = _
  rw [hu, decide_eq_false (by omega : ¬ i < 0), UnpackedFloat.toInt64, UnpackedFloat.toInt,
    roundToInt_of_nonneg (by omega)]
  change (Int64.ofIntClamp ((m * 2 ^ e.toNat : Nat) : Int)).toInt = _
  exact toInt_ofIntClamp_large (by omega)

end Stencil.Decimal
