import Stencil.Proofs.Expression.Numbers

/-!
# Texts of integers

Which texts spell an integer of 64 bits, and which integer: the reader `Decimal.integer?` from its
results.
-/

namespace Stencil

open Scanner (IsDigits)

-- Powers are those of the natural numbers and integers, whatever algebra is imported.
attribute [local instance (high)] instPowNat

namespace Decimal

/-- The integers of 64 bits with a sign. -/
def IsInt64 (i : Int) : Prop := -2 ^ (63 : Nat) ≤ i ∧ i < 2 ^ (63 : Nat)

instance (i : Int) : Decidable (IsInt64 i) := inferInstanceAs (Decidable (_ ∧ _))

variable {s ds : List Char} {i j : Int}

theorem int64?_of_isInt64 (h : IsInt64 i) : int64? i = some i := if_pos h

theorem int64?_of_not_isInt64 (h : ¬ IsInt64 i) : int64? i = none := if_neg h

theorem int64?_eq_some_iff : int64? i = some j ↔ IsInt64 i ∧ i = j := by
  by_cases h : IsInt64 i
  · simp [int64?_of_isInt64 h, h]
  · simp [int64?_of_not_isInt64 h, h]

/-- Digits with at most a sign in front, and the integer that they spell. -/
inductive Spells : List Char → Int → Prop
  | plain {ds : List Char} (h : IsDigits ds) : Spells ds (digitsValue ds)
  | plus {ds : List Char} (h : IsDigits ds) : Spells ('+' :: ds) (digitsValue ds)
  | minus {ds : List Char} (h : IsDigits ds) : Spells ('-' :: ds) (-(digitsValue ds : Int))

theorem splitSign_of_isDigits (h : IsDigits ds) : splitSign ds = (false, ds) := by
  simpa using splitSign_digits (s := []) h

theorem spells_iff : Spells s i ↔
    IsDigits (splitSign s).2 ∧ i = signed (splitSign s).1 (digitsValue (splitSign s).2) := by
  constructor
  · intro h
    cases h with
    | plain h =>
      rw [splitSign_of_isDigits h]
      exact ⟨h, rfl⟩
    | plus h => exact ⟨h, rfl⟩
    | minus h => exact ⟨h, rfl⟩
  · rintro ⟨h, rfl⟩
    unfold splitSign at h
    split at h
    · exact .minus h
    · exact .plus h
    · rw [splitSign_of_isDigits h]
      exact .plain h

theorem integer?_eq_some_iff : integer? s = some i ↔ Spells s i ∧ IsInt64 i := by
  rw [spells_iff, integer?]
  dsimp only
  by_cases h : IsDigits (splitSign s).2
  · rw [if_pos (isDigits_iff.2 h), int64?_eq_some_iff]
    constructor
    · rintro ⟨hi, rfl⟩
      exact ⟨⟨h, rfl⟩, hi⟩
    · rintro ⟨⟨-, rfl⟩, hi⟩
      exact ⟨hi, rfl⟩
  · simp [mt isDigits_iff.1 h, h]

theorem integer?_eq_none (h : ∀ i, Spells s i → ¬ IsInt64 i) : integer? s = none := by
  rw [Option.eq_none_iff_forall_ne_some]
  intro i hi
  obtain ⟨hs, hi⟩ := integer?_eq_some_iff.1 hi
  exact h i hs hi

/-- Whatever spells an integer is read as a double too. -/
theorem float?_ne_none_of_spells (h : Spells s i) : float? s ≠ none := by
  obtain ⟨hds, -⟩ := spells_iff.1 h
  obtain ⟨ht, hd⟩ := Scanner.span_iff.2
    ⟨(List.append_nil _).symm, hds.2, (rfl : Scanner.Breaks Char.isDigit [])⟩
  have hpoint : splitPoint (splitSign s).2 = ((splitSign s).2, [], []) := by
    simp only [splitPoint, ht, hd]
  have hsign : splitSign s = ((splitSign s).1, (splitSign s).2 ++ []) := by rw [List.append_nil]
  rw [float?_of_digits hds hsign, List.append_nil, decimal?, hpoint]
  simp [hds.1, exponent?]

end Decimal

end Stencil
