/-!
# Disciplines of readers

A reader moves a state, also when it fails. A `Discipline` says from which states readers start, how
they move on and with which errors they fail; `Obeys` says that a reader keeps to it and gives values
of a kind.
-/

namespace Stencil

variable {ε σ α β : Type}

structure Discipline (ε σ : Type) where
  Good : σ → Prop
  Moves : σ → σ → Prop
  Fails : ε → Prop
  refl (s : σ) : Moves s s
  trans {s s' s'' : σ} : Moves s s' → Moves s' s'' → Moves s s''
  good {s s' : σ} : Good s → Moves s s' → Good s'

/-- A reader may end so from `s`, with a value in `Q`. -/
def Discipline.Allows (d : Discipline ε σ) (s : σ) (Q : α → Prop) : EStateM.Result ε σ α → Prop
  | .ok a s' => d.Moves s s' ∧ Q a
  | .error e _ => d.Fails e

/-- From a good state the reader moves on to a value in `Q`, or fails as it may. -/
def Obeys (d : Discipline ε σ) (m : EStateM ε σ α) (Q : α → Prop) : Prop :=
  ∀ s, d.Good s → d.Allows s Q (m s)

/-- The discipline with other failures. -/
def Discipline.failing (d : Discipline ε σ) (F : ε → Prop) : Discipline ε σ := { d with Fails := F }

namespace Discipline.Allows

variable {d : Discipline ε σ} {s : σ} {Q : α → Prop} {r : EStateM.Result ε σ α}

theorem stay {a : α} (h : Q a) : d.Allows s Q (.ok a s) := ⟨d.refl s, h⟩

/-- What is allowed after a move is allowed before it. -/
theorem of_moves {s' : σ} (hm : d.Moves s s') (h : d.Allows s' Q r) : d.Allows s Q r := by
  cases r with
  | ok a s'' => exact ⟨d.trans hm h.1, h.2⟩
  | error e s'' => exact h

end Discipline.Allows

namespace Obeys

variable {d : Discipline ε σ} {m : EStateM ε σ α} {f : α → EStateM ε σ β} {Q : α → Prop}
  {R : β → Prop}

theorem pure {a : α} (h : Q a) : Obeys d (pure a) Q := fun _ _ => .stay h

theorem throw {e : ε} (h : d.Fails e) : Obeys d (throw e) Q := fun _ _ => h

theorem get : Obeys d (get : EStateM ε σ σ) fun _ => True := fun _ _ => .stay trivial

/-- A reading that ends well from a good state. -/
theorem of_ok (h : Obeys d m Q) {s s' : σ} {a : α} (hs : d.Good s) (hm : m s = .ok a s') :
    d.Moves s s' ∧ Q a := by
  have ha := h s hs
  rwa [hm] at ha

theorem bind (hm : Obeys d m Q) (hf : ∀ a, Q a → Obeys d (f a) R) : Obeys d (m >>= f) R := by
  intro s hs
  have h := hm s hs
  change d.Allows s R (EStateM.bind m f s)
  unfold EStateM.bind
  cases hr : m s with
  | error e s' =>
    rw [hr] at h
    exact h
  | ok a s' =>
    rw [hr] at h
    exact .of_moves h.1 (hf a h.2 s' (d.good hs h.1))

theorem failing {F : ε → Prop} (h : Obeys d m Q) (hF : ∀ e, d.Fails e → F e) :
    Obeys (d.failing F) m Q := by
  intro s hs
  have h := h s hs
  cases hr : m s with
  | ok a s' =>
    rw [hr] at h
    exact h
  | error e s' =>
    rw [hr] at h
    exact hF e h

/-- What follows a failure does not matter. -/
theorem bind_of_fails (hm : Obeys d m fun _ => False) : Obeys d (m >>= f) R :=
  hm.bind fun _ h => h.elim

end Obeys

end Stencil
