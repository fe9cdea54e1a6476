/-!
# Requests one after another

`serve` takes requests in turn from one state to the next. What holds at the start and is kept by every
request holds after all of them, `serve_invariant`; there the answers stand newest first.
-/

namespace Stencil

variable {σ ι ο : Type}

/-- The answers to requests taken in turn from the state `s` on, and the state that they leave. -/
def serve (step : σ → ι → ο × σ) (s : σ) : List ι → List ο × σ
  | [] => ([], s)
  | request :: later =>
    let (answer, s) := step s request
    let (answers, s) := serve step s later
    (answer :: answers, s)

theorem serve_cons (step : σ → ι → ο × σ) (s : σ) (request : ι) (later : List ι) :
    serve step s (request :: later) =
      ((step s request).1 :: (serve step (step s request).2 later).1,
        (serve step (step s request).2 later).2) := rfl

/-- What every request keeps, from answers that were there before on. -/
theorem serve_keeps {step : σ → ι → ο × σ} {P : List ο → σ → Prop}
    (next : ∀ answers s request, P answers s →
      P ((step s request).1 :: answers) (step s request).2)
    (requests : List ι) {before : List ο} {s : σ} (h : P before s) :
    P ((serve step s requests).1.reverse ++ before) (serve step s requests).2 := by
  induction requests generalizing before s with
  | nil => exact h
  | cons request later ih =>
    have h' := ih (next before s request h)
    rw [serve_cons, List.reverse_cons, List.append_assoc]
    exact h'

theorem serve_invariant {step : σ → ι → ο × σ} {P : List ο → σ → Prop} {s : σ} (start : P [] s)
    (next : ∀ answers s request, P answers s →
      P ((step s request).1 :: answers) (step s request).2)
    (requests : List ι) :
    P (serve step s requests).1.reverse (serve step s requests).2 := by
  have h := serve_keeps next requests start
  rwa [List.append_nil] at h

end Stencil
