/-!
# Tables of code points

`Ranges` lists code points by their ends. `Ranges.covers` searches an ascending table and stops at
the first range that lies past the code point.
-/

namespace Stencil.Text

/-- Ascending, disjoint ranges of code points, both ends included. -/
abbrev Ranges := List (Nat × Nat)

/-- `c` lies in one of the ranges. -/
def Ranges.covers : Ranges → Nat → Bool
  | [], _ => false
  | (lo, hi) :: rest, c => if c < lo then false else if c ≤ hi then true else covers rest c

/-- The code points of a table, one by one. -/
def Ranges.points (t : Ranges) : List Nat := t.flatMap fun (lo, hi) => List.range' lo (hi + 1 - lo)

theorem Ranges.mem_points_of_covers {t : Ranges} {c : Nat} (h : Ranges.covers t c = true) :
    c ∈ Ranges.points t := by
  induction t with
  | nil => cases h
  | cons r t ih =>
    obtain ⟨lo, hi⟩ := r
    rw [points, List.flatMap_cons, List.mem_append]
    unfold covers at h
    split at h
    · cases h
    · split at h
      · exact .inl (by simp; omega)
      · exact .inr (ih h)

end Stencil.Text
