/-!
# Runs of readers

A reader that is composed of others runs as they do, one after another: these lemmas follow a run
that is known to end well, and take one apart that did.
-/

namespace Stencil

variable {ε σ α β : Type} {m : EStateM ε σ α} {f : α → EStateM ε σ β} {s s' : σ}

theorem bind_of_ok {a : α} (h : m s = .ok a s') : (m >>= f) s = f a s' := by
  change EStateM.bind m f s = _
  rw [EStateM.bind, h]

theorem bind_of_error {e : ε} (h : m s = .error e s') : (m >>= f) s = .error e s' := by
  change EStateM.bind m f s = _
  rw [EStateM.bind, h]

/-- A composed run that ends well did so in both parts. -/
theorem bind_eq_ok_iff {b : β} :
    (m >>= f) s = .ok b s' ↔ ∃ a s₁, m s = .ok a s₁ ∧ f a s₁ = .ok b s' := by
  constructor
  · intro h
    cases hm : m s with
    | ok a s₁ =>
      rw [bind_of_ok hm] at h
      exact ⟨a, s₁, rfl, h⟩
    | error e s₁ =>
      rw [bind_of_error hm] at h
      cases h
  · rintro ⟨a, s₁, hm, hf⟩
    rw [bind_of_ok hm, hf]

end Stencil
