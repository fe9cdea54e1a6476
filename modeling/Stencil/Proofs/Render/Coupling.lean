import Stencil.Coroutine

/-!
# Couplings of two runs

A `Coupling` relates the computations of one run to those of another. If it is `Sequential`, it holds
of composed computations once it holds of their steps. In `Simulates P` the two runs start from states
that `P` relates, and end alike in states that `P` relates.

`Coroutine.Leads` speaks of one run: of the state at its start and the one at its end. A run that only
adds to a history `Adds` to the list that it starts with.
-/

namespace Stencil

variable {ε σ τ α β : Type}

abbrev Coupling (ε σ : Type) := ∀ α : Type, Coroutine ε σ α → Coroutine ε σ α → Prop

/-- A coupling that sequencing keeps. -/
structure Sequential (R : Coupling ε σ) : Prop where
  pure {α : Type} (a : α) : R α (pure a) (pure a)
  bind {α β : Type} {m₁ m₂ : Coroutine ε σ α} {f₁ f₂ : α → Coroutine ε σ β} :
    R α m₁ m₂ → (∀ a, R β (f₁ a) (f₂ a)) → R β (m₁ >>= f₁) (m₂ >>= f₂)

/-- The same outcome, in states that `P` relates. -/
def Ending.Alike (P : σ → σ → Prop) (r₁ r₂ : Ending ε σ α) : Prop :=
  r₁.outcome = r₂.outcome ∧ P r₁.state r₂.state

theorem Ending.Alike.map {P : σ → σ → Prop} {Q : τ → τ → Prop} {r₁ r₂ : Ending ε σ α}
    {v₁ v₂ : α → σ → β} {g₁ g₂ : σ → τ} (h : r₁.Alike P r₂)
    (hv : ∀ a s₁ s₂, P s₁ s₂ → v₁ a s₁ = v₂ a s₂) (hg : ∀ s₁ s₂, P s₁ s₂ → Q (g₁ s₁) (g₂ s₂)) :
    (r₁.map v₁ g₁).Alike Q (r₂.map v₂ g₂) := by
  obtain ⟨ho, hp⟩ := h
  cases r₁ <;> cases r₂ <;> cases ho
  · exact ⟨congrArg Except.ok (hv _ _ _ hp), hg _ _ hp⟩
  · exact ⟨rfl, hg _ _ hp⟩

/-- From states that `P` relates both computations end alike. -/
def Simulates (P : σ → σ → Prop) : Coupling ε σ := fun _ m₁ m₂ =>
  ∀ s₁ s₂, P s₁ s₂ → (m₁ s₁).result.Alike P (m₂ s₂).result

theorem Simulates.sequential (P : σ → σ → Prop) : Sequential (Simulates (ε := ε) P) where
  pure _ _ _ h := ⟨rfl, h⟩
  bind {_ _ m₁ m₂ _ _} hm hf s₁ s₂ h := by
    have hs := hm s₁ s₂ h
    rw [Coroutine.result_bind, Coroutine.result_bind]
    cases h₁ : (m₁ s₁).result <;> cases h₂ : (m₂ s₂).result <;> rw [h₁, h₂] at hs <;>
      obtain ⟨ho, hp⟩ := hs
    · cases ho
      exact hf _ _ _ hp
    · cases ho
    · cases ho
    · cases ho
      exact ⟨rfl, hp⟩

/-- However the computation ends, `P` relates the state at the start to the state then. -/
def Coroutine.Leads (P : σ → σ → Prop) (m : Coroutine ε σ α) : Prop := ∀ s, P s (m s).result.state

theorem Coroutine.Leads.bind {P : σ → σ → Prop} {m : Coroutine ε σ α} {f : α → Coroutine ε σ β}
    (trans : ∀ {s s' s''}, P s s' → P s' s'' → P s s'') (hm : m.Leads P) (hf : ∀ a, (f a).Leads P) :
    (m >>= f).Leads P := by
  intro s
  have h := hm s
  rw [Coroutine.result_bind]
  cases hr : (m s).result with
  | ok a s' =>
    rw [hr] at h
    exact trans h (hf a s')
  | error e s' =>
    rw [hr] at h
    exact h

/-- `h'` is `h` behind new members, each of which is in `P`. -/
def Adds (P : α → Prop) (h h' : List α) : Prop := ∃ new, h' = new ++ h ∧ ∀ e ∈ new, P e

namespace Adds

variable {P : α → Prop}

theorem refl (h : List α) : Adds P h h := ⟨[], rfl, by simp⟩

theorem step {e : α} (he : P e) (h : List α) : Adds P h (e :: h) := ⟨[e], rfl, by simpa using he⟩

theorem trans {h h' h'' : List α} (a : Adds P h h') (a' : Adds P h' h'') : Adds P h h'' := by
  obtain ⟨new, rfl, hn⟩ := a
  obtain ⟨new', rfl, hn'⟩ := a'
  exact ⟨new' ++ new, by simp, List.forall_mem_append.2 ⟨hn', hn⟩⟩

end Adds

end Stencil
