import Mathlib
import Stencil.Render.Evaluate
import Stencil.Proofs.Decimal.Doubles
import Stencil.Proofs.Decimal.Integers

/-!
# Ranges

A range literal evaluates its two bounds, counts them as integers of 64 bits and lists the integers
from one to the other, unless there are too many. `Value.Bounds` says what a value counts as.
-/

namespace Stencil

open Decimal (IsInt64 Spells)

-- Powers are those of the natural numbers and integers, whatever algebra is imported.
attribute [local instance (high)] instPowNat

variable {v w : Value} {s e : Int}

/-- The integer of 64 bits that a value counts as where it bounds a range. -/
inductive Value.Bounds : Value → Int → Prop
  | int {i : Int} (h : IsInt64 i) : Bounds (.int i) i
  | unsigned {i : Int} (h : 2 ^ (63 : Nat) ≤ i) (h' : i < 2 ^ (64 : Nat)) :
      Bounds (.int i) (2 ^ (63 : Nat) - 1)
  /-- A double is cut toward zero, to the nearest bound where it is past them. -/
  | double (f : Float) : Bounds (.number (.float f)) f.toModel.toInt64.toInt
  | text {t : String} {i : Int} (h : Spells (Text.trim t.toList) i) (hi : IsInt64 i) :
      Bounds (.text t) i
  | otherText {t : String} (h : ∀ i, Spells (Text.trim t.toList) i → ¬ IsInt64 i) :
      Bounds (.text t) 0
  | null : Bounds .null 0
  | bool (b : Bool) : Bounds (.bool b) 0
  | list (items : List Value) : Bounds (.list items) 0
  | object (fields : List (String × Value)) : Bounds (.object fields) 0

theorem Value.Bounds.isInt64 (h : v.Bounds s) : IsInt64 s := by
  cases h with
  | int h => exact h
  | double f =>
    have h₁ := Int64.le_toInt f.toModel.toInt64
    have h₂ := Int64.toInt_lt f.toModel.toInt64
    exact ⟨h₁, h₂⟩
  | text _ hi => exact hi
  | _ => decide

theorem rangeBound_of_bounds (h : v.Bounds s) : rangeBound v = s := by
  cases h with
  | int h => simp only [rangeBound, Value.int, Number.int64?, Decimal.int64?_of_isInt64 h]
  | @unsigned i h h' =>
    have hlog : i.natAbs.log2 < 64 := (Nat.log2_lt (by omega)).2 (by omega)
    simp only [rangeBound, Value.int, Number.int64?,
      Decimal.int64?_of_not_isInt64 (fun hi : IsInt64 i => absurd hi.2 (Int.not_lt.2 h))]
    exact Decimal.toInt64_ofInt_large h (by omega)
  | double f => rfl
  | text h hi => simp only [rangeBound, Decimal.integer?_eq_some_iff.2 ⟨h, hi⟩, Option.getD_some]
  | otherText h => simp only [rangeBound, Decimal.integer?_eq_none h, Option.getD_none]
  | null => rfl
  | bool b => rfl
  | list items => rfl
  | object fields => rfl

/-! ## Evaluation -/

namespace Mode

variable {σ α β : Type} {a : α} {st st' : σ}

/-- What follows a computation that ends well is driven from where it ends. -/
theorem drive_bind_of_ok (mode : Mode) {m : Coroutine Error σ α} (f : α → Coroutine Error σ β)
    (h : mode.drive (m st) = .ok a st') : mode.drive ((m >>= f) st) = mode.drive (f a st') := by
  cases mode with
  | async =>
    change (m st).result = _ at h
    change ((m >>= f) st).result = (f a st').result
    rw [Coroutine.result_bind, h]
  | sync =>
    change (m st).once _ = _ at h
    change ((m st).bind f).once _ = (f a st').once _
    cases hm : m st with
    | done r =>
      rw [hm] at h
      cases h
      rfl
    | waiting s next =>
      rw [hm] at h
      cases h

theorem drive_pure (mode : Mode) : mode.drive ((pure a : Coroutine Error σ α) st) = .ok a st := by
  cases mode <;> rfl

theorem drive_fail (mode : Mode) (e : Error) :
    mode.drive ((.fail e : Coroutine Error σ α) st) = .error e st := by
  cases mode <;> rfl

end Mode

theorem rangeItems_of_small (h : e - s + 1 ≤ 1000000) :
    rangeItems s e =
      .ok (.list ((List.range (e - s + 1).toNat).map fun (k : Nat) => .int (s + k))) :=
  if_neg (by unfold rangeLimit; omega)

theorem rangeItems_of_large (h : 1000000 < e - s + 1) :
    rangeItems s e = .error (.rangeTooLarge s e 1000000) :=
  if_pos (by unfold rangeLimit; omega)

variable {i : Interpreter} {ctx : Context} {first last : Expression} {h h₁ h₂ : List Event}

theorem Expression.drive_eval_range (spelling : String)
    (hv : i.mode.drive (first.eval i ctx h) = .ok v h₁)
    (hw : i.mode.drive (last.eval i ctx h₁) = .ok w h₂) :
    let items : Evaluation Value := Coroutine.lift (rangeItems (rangeBound v) (rangeBound w))
    i.mode.drive ((Expression.range spelling first last).eval i ctx h) = i.mode.drive (items h₂) := by
  rw [Expression.eval, i.mode.drive_bind_of_ok _ hv, i.mode.drive_bind_of_ok _ hw]

/-- **Ranges.** Where the bounds evaluate to values that count as `s` and `e`, the range fails if it
has more than a million items, and else lists them in order; from a larger bound to a smaller one it
is empty. The items are integers of 64 bits, and their number fits 128. -/
theorem Expression.eval_range (spelling : String)
    (hv : i.mode.drive (first.eval i ctx h) = .ok v h₁)
    (hw : i.mode.drive (last.eval i ctx h₁) = .ok w h₂) (hs : v.Bounds s) (he : w.Bounds e) :
    let range := i.mode.drive ((Expression.range spelling first last).eval i ctx h)
    (IsInt64 s ∧ IsInt64 e) ∧
    (-2 ^ (127 : Nat) ≤ e - s ∧ e - s + 1 < 2 ^ (127 : Nat)) ∧
    (range = .error (.rangeTooLarge s e 1000000) h₂ ↔ 1000000 < e - s + 1) ∧
    (e - s + 1 ≤ 1000000 → ∃ items : List Value, range = .ok (.list items) h₂ ∧
      (items.length : Int) = max 0 (e - s + 1) ∧
      ∀ k (hk : k < items.length), IsInt64 (s + k) ∧ items[k] = .int (s + k)) := by
  intro range
  have hrange : range = _ := Expression.drive_eval_range spelling hv hw
  rw [rangeBound_of_bounds hs, rangeBound_of_bounds he] at hrange
  obtain ⟨hs₁, hs₂⟩ := hs.isInt64
  obtain ⟨he₁, he₂⟩ := he.isInt64
  refine ⟨⟨hs.isInt64, he.isInt64⟩, by omega, ⟨fun hr => ?_, fun hlarge => ?_⟩, fun hsmall => ?_⟩
  · by_contra hsmall
    rw [hrange, rangeItems_of_small (Int.not_lt.1 hsmall), Coroutine.lift, Mode.drive_pure] at hr
    cases hr
  · rw [hrange, rangeItems_of_large hlarge, Coroutine.lift, Mode.drive_fail]
  · rw [hrange, rangeItems_of_small hsmall, Coroutine.lift, Mode.drive_pure]
    refine ⟨_, rfl, ?_, fun k hk => ?_⟩
    · rw [List.length_map, List.length_range]
      omega
    · rw [List.length_map, List.length_range] at hk
      exact ⟨⟨by omega, by omega⟩, by simp⟩

/-- Up to the last integer of 64 bits, with a text for the first bound and one past the integers with
a sign for the last. -/
theorem Expression.eval_range_to_the_end :
    let i : Interpreter := ⟨.empty, .sync⟩
    let ctx : Context := ⟨[], [], [], none, false⟩
    let first : Expression := .literal "first" (.text " +9223372036854775806 ")
    let last : Expression := .literal "last" (.int 18446744073709551615)
    i.mode.drive ((Expression.range "(first..last)" first last).eval i ctx []) =
      .ok (.list [.int 9223372036854775806, .int 9223372036854775807]) [] := by
  intro i ctx first last
  have htrim : Text.trim " +9223372036854775806 ".toList = "+9223372036854775806".toList := by decide
  have hfirst : (Value.text " +9223372036854775806 ").Bounds 9223372036854775806 :=
    .text (htrim ▸ .plus (Decimal.isDigits_iff.1 (by decide))) (by decide)
  have hlast : (Value.int 18446744073709551615).Bounds 9223372036854775807 :=
    .unsigned (by decide) (by decide)
  have hv : i.mode.drive (first.eval i ctx []) = .ok (.text " +9223372036854775806 ") [] := by
    rw [Expression.eval, Mode.drive_pure]
  have hw : i.mode.drive (last.eval i ctx []) = .ok (.int 18446744073709551615) [] := by
    rw [Expression.eval, Mode.drive_pure]
  obtain ⟨-, -, -, hitems⟩ := Expression.eval_range "(first..last)" hv hw hfirst hlast
  obtain ⟨items, hrange, hlength, hget⟩ := hitems (by decide)
  obtain ⟨a, b, rfl⟩ := List.length_eq_two.1 (by omega : items.length = 2)
  obtain ⟨-, rfl⟩ := hget 0 Nat.zero_lt_two
  obtain ⟨-, rfl⟩ := hget 1 Nat.one_lt_two
  exact hrange

end Stencil
