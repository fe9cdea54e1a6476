/-!
# Association lists

Lists of pairs that are looked up by their first component. A pair put in front hides the others of
its key, and removing a key's pairs leaves the other keys as they are.
-/

namespace Stencil

variable {κ α : Type} [DecidableEq κ]

theorem lookup_cons_ite (k j : κ) (v : α) (rest : List (κ × α)) :
    List.lookup k ((j, v) :: rest) = if k = j then some v else rest.lookup k := by
  rw [List.lookup_cons]
  by_cases h : k = j
  · simp [h]
  · simp [h, show (k == j) = false by simpa using h]

theorem lookup_filter_ne (k j : κ) (entries : List (κ × α)) :
    List.lookup k (entries.filter (·.1 != j)) = if k = j then none else entries.lookup k := by
  induction entries with
  | nil => simp
  | cons e rest ih =>
    obtain ⟨i, v⟩ := e
    by_cases hi : i = j
    · simp only [List.filter_cons, hi, bne_self_eq_false, Bool.false_eq_true, ↓reduceIte, ih,
        lookup_cons_ite]
      split <;> rfl
    · have : (i != j) = true := by simpa using hi
      simp only [List.filter_cons, this, ↓reduceIte, lookup_cons_ite, ih]
      split
      · next h => subst h; simp [hi]
      · rfl

end Stencil
