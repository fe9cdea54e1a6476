import Stencil.Deferred

/-!
# Computations that may wait

A computation that may wait is driven by polls. `Polled` is what they show of it: polls that find it
waiting, each with the state of that moment, and then its `Ending`. A `Coroutine` is such a
computation from a given state on. Who can wait polls to the end, `Polled.result`; who cannot polls
once, `Polled.once`.
-/

namespace Stencil

variable {ε σ τ α β : Type}

/-- How a computation ends: with a value or an error, in a state. -/
inductive Ending (ε σ α : Type) where
  | ok (a : α) (s : σ)
  | error (e : ε) (s : σ)

namespace Ending

def state : Ending ε σ α → σ
  | ok _ s => s
  | error _ s => s

def outcome : Ending ε σ α → Except ε α
  | ok a _ => .ok a
  | error e _ => .error e

/-- With `v` for the value and `g` for the state. -/
def map (v : α → σ → β) (g : σ → τ) : Ending ε σ α → Ending ε τ β
  | ok a s => ok (v a s) (g s)
  | error e s => error e (g s)

@[simp] theorem state_map (v : α → σ → β) (g : σ → τ) (r : Ending ε σ α) :
    (r.map v g).state = g r.state := by
  cases r <;> rfl

end Ending

inductive Polled (ε σ α : Type) where
  | done (r : Ending ε σ α)
  /-- This poll finds nothing and leaves the state `s`; `next` is the next poll. -/
  | waiting (s : σ) (next : Unit → Polled ε σ α)

namespace Polled

/-- Goes on with `f` after a good end. -/
def bind (f : α → σ → Polled ε σ β) : Polled ε σ α → Polled ε σ β
  | done (.ok a s) => f a s
  | done (.error e s) => done (.error e s)
  | waiting s next => waiting s fun _ => (next ()).bind f

/-- With `w` for the states of waiting, `v` for the value and `g` for the state of the end. -/
def map (w : σ → τ) (v : α → σ → β) (g : σ → τ) : Polled ε σ α → Polled ε τ β
  | done r => done (r.map v g)
  | waiting s next => waiting (w s) fun _ => (next ()).map w v g

/-- The end, after as many polls as it takes. -/
def result : Polled ε σ α → Ending ε σ α
  | done r => r
  | waiting _ next => (next ()).result

/-- The end if the first poll finds it, else the failure `e` in the state of that poll. -/
def once (e : ε) : Polled ε σ α → Ending ε σ α
  | done r => r
  | waiting s _ => .error e s

theorem result_bind (f : α → σ → Polled ε σ β) (p : Polled ε σ α) :
    (p.bind f).result = match p.result with
      | .ok a s => (f a s).result
      | .error e s => .error e s := by
  induction p with
  | done r => cases r <;> rfl
  | waiting s next ih => exact ih ()

@[simp] theorem result_map (w : σ → τ) (v : α → σ → β) (g : σ → τ) (p : Polled ε σ α) :
    (p.map w v g).result = p.result.map v g := by
  induction p with
  | done r => rfl
  | waiting s next ih => exact ih ()

end Polled

/-- A computation that changes a state, may fail and may wait. -/
def Coroutine (ε σ α : Type) : Type := σ → Polled ε σ α

instance : Monad (Coroutine ε σ) where
  pure a := fun s => .done (.ok a s)
  bind m f := fun s => (m s).bind f

namespace Coroutine

def fail (e : ε) : Coroutine ε σ α := fun s => .done (.error e s)

def lift : Except ε α → Coroutine ε σ α
  | .ok a => pure a
  | .error e => fail e

def modify (g : σ → σ) : Coroutine ε σ Unit := fun s => .done (.ok () (g s))

/-- Waits for one poll. -/
def pause : Coroutine ε σ Unit := fun s => .waiting s fun _ => .done (.ok () s)

theorem result_bind (m : Coroutine ε σ α) (f : α → Coroutine ε σ β) (s : σ) :
    ((m >>= f) s).result = match (m s).result with
      | .ok a s => (f a s).result
      | .error e s => .error e s :=
  Polled.result_bind f (m s)

end Coroutine

/-- Waits for a deferred value. -/
def Deferred.await : Deferred → Coroutine Error σ Value
  | .arrived outcome => .lift outcome
  | .waiting next => fun s => .waiting s fun _ => next.await s

/-- However many polls it takes, a deferred value ends with its outcome. -/
theorem Deferred.result_await (d : Deferred) (s : σ) :
    (d.await s).result = (Coroutine.lift d.outcome s).result := by
  induction d with
  | arrived outcome => rfl
  | waiting next ih => exact ih

end Stencil
