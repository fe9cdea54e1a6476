import Stencil.Error
import Stencil.Proofs.Readers

/-!
# Readers that cut

A `Slicing` is a reader that cuts texts at byte offsets. It ends with a value or an error and with a
state, or is stuck: at a cut that gives no text, or when a bound on its steps runs out. One that
`Follows` a reader of characters is not stuck, and ends as that reader does.
-/

namespace Stencil

/-- A value or an error, and the state then; nothing if the reader is stuck. -/
abbrev Slicing (τ α : Type) := ExceptT Error (StateT τ Option) α

/-- What a reader ends with, the state as the view shows it. -/
def seen {σ τ α : Type} (view : σ → τ) : EStateM.Result Error σ α → Except Error α × τ
  | .ok a s => (.ok a, view s)
  | .error e s => (.error e, view s)

namespace Slicing

variable {σ τ α β : Type}

def stuck : Slicing τ α := fun _ => none

/-- The text of a cut. -/
def cut (text : Option α) : Slicing τ α := fun t => text.map fun a => (.ok a, t)

/-- The value or error of a reading apart. -/
def lift (r : Option (Except Error α)) : Slicing τ α := fun t => r.map fun r => (r, t)

/-- From the view of a state the reader ends as `m` does from the state. -/
def Follows (view : σ → τ) (w : Slicing τ α) (m : EStateM Error σ α) (s : σ) : Prop :=
  w (view s) = some (seen view (m s))

section
variable {view : σ → τ} {w : Slicing τ α} {m : EStateM Error σ α} {f : α → Slicing τ β}
  {g : α → EStateM Error σ β} {s : σ}

theorem bind_ok {t t' : τ} {a : α} (h : w t = some (.ok a, t')) : (w >>= f) t = f a t' := by
  change (w t).bind _ = _
  rw [h]
  rfl

theorem bind_error {t t' : τ} {e : Error} (h : w t = some (.error e, t')) :
    (w >>= f) t = some (.error e, t') := by
  change (w t).bind _ = _
  rw [h]
  rfl

theorem get_bind {f : τ → Slicing τ β} {t : τ} : (get >>= f) t = f t t := rfl

theorem bind_cut {a : α} {t : τ} : (cut (some a) >>= f) t = f a t := rfl

namespace Follows

theorem bind (h : Follows view w m s)
    (hf : ∀ a s', m s = .ok a s' → Follows view (f a) (g a) s') :
    Follows view (w >>= f) (m >>= g) s := by
  unfold Follows at h ⊢
  cases hm : m s with
  | ok a s' =>
    rw [hm] at h
    rw [bind_ok h, bind_of_ok hm]
    exact hf a s' hm
  | error e s' =>
    rw [hm] at h
    rw [bind_error h, bind_of_error hm]
    rfl

theorem pure (a : α) : Follows view (pure a) (pure a) s := rfl

end Follows

end

end Slicing

end Stencil
