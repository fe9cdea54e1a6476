import Stencil.Coroutine

/-!
# Laws of sequencing

Coroutines are a lawful monad. What follows a computation matters only where the computation ends
well (`Coroutine.bind_eq_bind`).
-/

namespace Stencil

variable {ε σ α β γ : Type}

namespace Polled

theorem bind_ok (p : Polled ε σ α) : p.bind (fun a s => done (.ok a s)) = p := by
  induction p with
  | done r => cases r <;> rfl
  | waiting s next ih => exact congrArg (waiting s) (funext ih)

theorem bind_assoc (p : Polled ε σ α) (f : α → σ → Polled ε σ β) (g : β → σ → Polled ε σ γ) :
    (p.bind f).bind g = p.bind fun a s => (f a s).bind g := by
  induction p with
  | done r => cases r <;> rfl
  | waiting s next ih => exact congrArg (waiting s) (funext ih)

theorem bind_congr {f g : α → σ → Polled ε σ β} (p : Polled ε σ α)
    (h : ∀ a s, p.result = .ok a s → f a s = g a s) : p.bind f = p.bind g := by
  induction p with
  | done r =>
    cases r with
    | ok a s => exact h a s rfl
    | error e s => rfl
  | waiting s next ih => exact congrArg (waiting s) (funext fun u => ih u h)

end Polled

instance : LawfulMonad (Coroutine ε σ) :=
  .mk' _ (fun m => funext fun s => (m s).bind_ok) (fun _ _ => rfl)
    fun m f g => funext fun s => (m s).bind_assoc f g

theorem Coroutine.bind_eq_bind {m₁ m₂ : Coroutine ε σ α} {f₁ f₂ : α → Coroutine ε σ β} {s : σ}
    (hm : m₁ s = m₂ s) (hf : ∀ a s', (m₁ s).result = .ok a s' → f₁ a s' = f₂ a s') :
    (m₁ >>= f₁) s = (m₂ >>= f₂) s := by
  change (m₁ s).bind f₁ = (m₂ s).bind f₂
  rw [← hm]
  exact (m₁ s).bind_congr hf

end Stencil
