import Stencil.Filter.List
import Stencil.Proofs.Decimal.Integers

/-!
# Items by their index

A natural index counts from the front, and `-1 - k` counts `k` from the back (`Value.item?_back`). So an
index of the reversed list is the opposite one of the list, and the first and the last item are those at
zero and at minus one.
-/

namespace Stencil

open Decimal (IsInt64)

-- Powers are those of the natural numbers and integers, whatever algebra is imported.
attribute [local instance (high)] instPowNat

namespace Value

variable (items : List Value)

theorem item?_front (k : Nat) : item? items k = items[k]? := by
  have hk : ¬ (k : Int) < 0 := by omega
  simp only [item?, if_neg hk, Int.toNat_natCast]

/-- Counted from the back are the items of the reversed list. -/
theorem item?_back (k : Nat) : item? items (-1 - k) = items.reverse[k]? := by
  have hneg : (-1 - k : Int) < 0 := by omega
  rw [item?, if_pos hneg]
  by_cases hk : k < items.length
  · have hindex : ¬ (items.length + (-1 - k) : Int) < 0 := by omega
    have hnat : (items.length + (-1 - k) : Int).toNat = items.length - 1 - k := by omega
    show (if (items.length + (-1 - k) : Int) < 0 then none else _) = _
    rw [if_neg hindex, hnat, List.getElem?_reverse hk]
  · have hindex : (items.length + (-1 - k) : Int) < 0 := by omega
    show (if (items.length + (-1 - k) : Int) < 0 then none else _) = _
    rw [if_pos hindex, List.getElem?_eq_none (by rw [List.length_reverse]; omega)]

/-- An index is a count from the front or from the back. -/
theorem front_or_back (i : Int) : (∃ k : Nat, i = k) ∨ ∃ k : Nat, i = -1 - k := by
  by_cases h : 0 ≤ i
  · exact .inl ⟨i.toNat, by omega⟩
  · exact .inr ⟨(-1 - i).toNat, by omega⟩

theorem item?_reverse (i : Int) : item? items.reverse i = item? items (-1 - i) := by
  obtain ⟨k, rfl⟩ | ⟨k, rfl⟩ := front_or_back i
  · rw [item?_front, item?_back]
  · have hopposite : (-1 - (-1 - k) : Int) = k := by omega
    rw [item?_back, List.reverse_reverse, hopposite, item?_front]

/-- Outside of its length a list has no items. -/
theorem item?_outside {i : Int} (h : i < -items.length ∨ items.length ≤ i) : item? items i = none := by
  obtain ⟨k, rfl⟩ | ⟨k, rfl⟩ := front_or_back i
  · rw [item?_front]
    exact List.getElem?_eq_none (by omega)
  · rw [item?_back]
    exact List.getElem?_eq_none (by rw [List.length_reverse]; omega)

theorem item?_zero : item? items 0 = items.head? := by
  rw [List.head?_eq_getElem?]
  exact item?_front items 0

theorem item?_minus_one : item? items (-1) = items.getLast? := by
  rw [← List.head?_reverse, List.head?_eq_getElem?]
  exact item?_back items 0

variable {items}

theorem property_int {i : Int} (h : IsInt64 i) :
    (list items).property (.int i) = (item? items i).getD .null := by
  have hi : (Number.int i).int64? = some i := Decimal.int64?_of_isInt64 h
  rw [Value.int, property, hi]

theorem property_first : (list items).property (.text "first") = (list items).property (.int 0) := by
  rw [property_int (by decide), item?_zero, property]
  rfl

theorem property_last : (list items).property (.text "last") = (list items).property (.int (-1)) := by
  rw [property_int (by decide), item?_minus_one, property]
  rfl

/-- A list that 64 bits can count has every item at its two indices. -/
theorem property_getElem (h : items.length < 2 ^ (63 : Nat)) (k : Nat) (hk : k < items.length) :
    (list items).property (.int k) = items[k] ∧
    (list items).property (.int (k - items.length)) = items[k] := by
  have hback : (k - items.length : Int) = -1 - (items.length - 1 - k : Nat) := by omega
  constructor
  · rw [property_int ⟨by omega, by omega⟩, item?_front, List.getElem?_eq_getElem hk]
    rfl
  · rw [property_int ⟨by omega, by omega⟩, hback, item?_back,
      List.getElem?_reverse (by omega), List.getElem?_eq_getElem (by omega)]
    show items[items.length - 1 - (items.length - 1 - k)] = items[k]
    congr 1
    omega

end Value

/-- **Indices from both ends mirror each other.** In a list that 64 bits can count, and for any index of
64 bits, nothing leaves the 64 bits: not the length, not the sum of the length and a negative index, not
the opposite index. The reversed list has at the index what the list has at the opposite one. Outside of
the list there is nil, inside every item has its two indices. The first and the last item, by filter or
as a property of the list, are those at zero and at minus one. -/
theorem Filter.mirrored_indices {items : List Value} (hlength : items.length < 2 ^ (63 : Nat)) {i : Int}
    (hi : IsInt64 i) (args : Arguments) :
    IsInt64 items.length ∧ (i < 0 → IsInt64 (items.length + i)) ∧ IsInt64 (-1 - i) ∧
    reverse (.list items) args = .ok (.settled (.list items.reverse)) ∧
    (Value.list items.reverse).property (.int i) = (Value.list items).property (.int (-1 - i)) ∧
    (i < -items.length ∨ items.length ≤ i → (Value.list items).property (.int i) = .null) ∧
    (∀ (k : Nat) (hk : k < items.length), (Value.list items).property (.int k) = items[k] ∧
      (Value.list items).property (.int (k - items.length)) = items[k]) ∧
    first (.list items) args = .ok (.settled ((Value.list items).property (.int 0))) ∧
    last (.list items) args = .ok (.settled ((Value.list items).property (.int (-1)))) ∧
    (Value.list items).property (.text "first") = (Value.list items).property (.int 0) ∧
    (Value.list items).property (.text "last") = (Value.list items).property (.int (-1)) := by
  have hopposite : IsInt64 (-1 - i) := by
    unfold IsInt64 at *
    omega
  refine ⟨⟨by omega, by omega⟩, fun hneg => ?_, hopposite, rfl, ?_, fun hout => ?_,
    Value.property_getElem hlength, ?_, ?_, Value.property_first, Value.property_last⟩
  · unfold IsInt64 at *
    omega
  · rw [Value.property_int hi, Value.property_int hopposite, Value.item?_reverse]
  · rw [Value.property_int hi, Value.item?_outside items hout]
    rfl
  · rw [← Value.property_first]
    rfl
  · rw [← Value.property_last]
    rfl

/-- The least index of 64 bits is nil, and its opposite is the greatest. -/
theorem Filter.mirrored_indices_least :
    let items : List Value := [.text "a", .text "b", .text "c"]
    let least : Int := -2 ^ (63 : Nat)
    items.length < 2 ^ (63 : Nat) ∧ IsInt64 least ∧ IsInt64 (items.length + least) ∧
    (Value.list items.reverse).property (.int least) = .null ∧
    (Value.list items).property (.int (2 ^ (63 : Nat) - 1)) = .null ∧
    (Value.list items).property (.int (-2)) = .text "b" ∧
    (Value.list items).property (.text "last") = .text "c" := by
  intro items least
  have hlength : items.length < 2 ^ (63 : Nat) := by decide
  have hleast : IsInt64 least := by decide
  have hgreatest : IsInt64 (2 ^ (63 : Nat) - 1) := by decide
  obtain ⟨-, hsum, -, -, hmirror, -, hinside, -, -, -, hlast⟩ :=
    mirrored_indices hlength hleast ⟨[], none⟩
  obtain ⟨-, -, -, -, -, houtside, -⟩ := mirrored_indices hlength hgreatest ⟨[], none⟩
  have hnil := houtside (.inr (by decide))
  exact ⟨hlength, hleast, hsum (by decide), hmirror.trans hnil, hnil, (hinside 1 (by decide)).2,
    hlast.trans (hinside 2 (by decide)).2⟩

end Stencil
