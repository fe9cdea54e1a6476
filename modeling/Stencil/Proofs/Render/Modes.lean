import Mathlib
import Stencil.Proofs.Render.Prompt

/-!
# Synchronous runs follow asynchronous ones

The two modes take the same steps up to the first deferred value. If the asynchronous run awaits none,
the runs are the same; else the synchronous one fails there, after the lookup or the call that gave
the deferred value.
-/

namespace Stencil

variable {σ τ α β : Type}

namespace Event

/-- The point whose deferred value was awaited. -/
def awaits? : Event → Option SuspensionPoint
  | .awaited p => some p
  | _ => none

/-- The event gave the value that is waited for at the point. -/
def Asks : Event → SuspensionPoint → Prop
  | .lookup name, p => p = .variable name
  | .call filter _ _, p => p = .filter filter
  | .awaited _, _ => False

theorem Asks.variable_or_filter {e : Event} {p : SuspensionPoint} (h : e.Asks p) :
    (∃ name, p = .variable name) ∨ ∃ name, p = .filter name := by
  cases e with
  | lookup name => exact .inl ⟨name, h⟩
  | call filter input args => exact .inr ⟨filter, h⟩
  | awaited q => exact h.elim

end Event

/-- From the history `h` to `h'` nothing was awaited. -/
def Quiet (h h' : List Event) : Prop := ∃ new, h' = new ++ h ∧ ∀ e ∈ new, e.awaits? = none

namespace Quiet

theorem refl (h : List Event) : Quiet h h := Adds.refl h

theorem step {e : Event} (he : e.awaits? = none) (h : List Event) : Quiet h (e :: h) :=
  Adds.step (P := fun e : Event => e.awaits? = none) he h

theorem trans {h h' h'' : List Event} (q : Quiet h h') (q' : Quiet h' h'') : Quiet h h'' :=
  Adds.trans q q'

theorem awaits_reverse {h : List Event} (q : Quiet [] h) : ∀ e ∈ h.reverse, e.awaits? = none := by
  obtain ⟨new, rfl, hn⟩ := q
  simpa using hn

/-- What is awaited after a quiet history is the first that is awaited at all. -/
theorem first_awaits {h : List Event} (q : Quiet [] h) (p : SuspensionPoint) (later : List Event) :
    (h.reverse ++ .awaited p :: later).findSome? Event.awaits? = some p := by
  rw [List.findSome?_append, List.findSome?_eq_none_iff.2 q.awaits_reverse]
  rfl

end Quiet

/-- The ending of a synchronous run beside that of the asynchronous one, both from the history `h` on:
the same without any wait, or cut off where the asynchronous run waits for the first time. -/
inductive Follows (history : σ → List Event) (h : List Event) :
    Ending Error σ α → Ending Error σ α → Prop where
  | same {r : Ending Error σ α} (quiet : Quiet h (history r.state)) : Follows history h r r
  | cut {r : Ending Error σ α} {p : SuspensionPoint} {s : σ} {e : Event} {before : List Event}
    (quiet : Quiet h (history s)) (last : history s = e :: before) (asks : e.Asks p)
    (goesOn : .awaited p :: history s <:+ history r.state) :
    Follows history h r (.error (.pendingInSync p) s)

namespace Follows

variable {history : σ → List Event} {h : List Event} {r₁ r₂ : Ending Error σ α}

theorem after {h' : List Event} (q : Quiet h h') (f : Follows history h' r₁ r₂) :
    Follows history h r₁ r₂ := by
  cases f with
  | same quiet => exact .same (q.trans quiet)
  | cut quiet last asks goesOn => exact .cut (q.trans quiet) last asks goesOn

/-- The asynchronous run only adds to the history. -/
theorem grows (f : Follows history h r₁ r₂) : h <:+ history r₁.state := by
  cases f with
  | same quiet =>
    obtain ⟨new, e, -⟩ := quiet
    exact ⟨new, e.symm⟩
  | cut quiet last asks goesOn =>
    obtain ⟨new, e, -⟩ := quiet
    rw [e] at goesOn
    exact (List.suffix_append _ h).trans ((List.suffix_cons _ _).trans goesOn)

theorem map {history' : τ → List Event} (v : α → σ → β) {g : σ → τ}
    (hg : ∀ s, history' (g s) = history s) (f : Follows history h r₁ r₂) :
    Follows history' h (r₁.map v g) (r₂.map v g) := by
  cases f with
  | same quiet => exact .same (by rwa [Ending.state_map, hg])
  | cut quiet last asks goesOn =>
    rw [← hg] at quiet last goesOn
    exact .cut quiet last asks (by rwa [Ending.state_map, hg r₁.state])

end Follows

/-- From every state the second computation follows the first. -/
def Tracks (history : σ → List Event) : Coupling Error σ := fun _ m₁ m₂ =>
  ∀ s, Follows history (history s) (m₁ s).result (m₂ s).result

theorem Tracks.sequential (history : σ → List Event) : Sequential (Tracks history) where
  pure _ s := .same (.refl _)
  bind {_ _ m₁ m₂ f₁ _} hm hf s := by
    have h := hm s
    rw [Coroutine.result_bind, Coroutine.result_bind]
    generalize (m₁ s).result = r₁ at h ⊢
    generalize (m₂ s).result = r₂ at h ⊢
    cases h with
    | same quiet =>
      cases r₁ with
      | ok a s' => exact (hf a s').after quiet
      | error e s' => exact .same quiet
    | cut quiet last asks goesOn =>
      cases r₁ with
      | ok a s' => exact .cut quiet last asks (goesOn.trans (hf a s').grows)
      | error e s' => exact .cut quiet last asks goesOn

section
variable (filters : FilterTable)

/-- The steps that may wait come right after the event that asks for their value. -/
theorem settle_follows (r : Resolution) {p : SuspensionPoint} {e : Event} (he : e.Asks p)
    (before : List Event) :
    Follows id (e :: before) (Interpreter.settle ⟨filters, .async⟩ r p (e :: before)).result
      (Interpreter.settle ⟨filters, .sync⟩ r p (e :: before)).result := by
  cases r with
  | settled v => exact .same (.refl _)
  | pending d =>
    refine .cut (.refl _) rfl he ?_
    simp only [Interpreter.settle, Interpreter.record, Coroutine.result_bind, Coroutine.modify,
      Polled.result, Deferred.result_await]
    cases d.outcome <;> exact List.suffix_refl _

theorem variableValue_tracks (c : Context) (spelling name : String) :
    Tracks id Value (Interpreter.variableValue ⟨filters, .async⟩ c spelling name)
      (Interpreter.variableValue ⟨filters, .sync⟩ c spelling name) := by
  intro before
  unfold Interpreter.variableValue Interpreter.ask
  cases c.find? name with
  | some v => exact .same (.refl _)
  | none =>
    cases c.source with
    | none => cases c.strict <;> exact .same (.refl _)
    | some source =>
      have q : Quiet before (.lookup name :: before) := .step rfl before
      cases hr : source name with
      | none =>
        simp only [hr]
        cases c.strict <;> exact .same q
      | some r =>
        have asks : Event.Asks (.lookup name) (.variable name) := rfl
        simp only [hr]
        exact (settle_follows filters r asks before).after q

theorem call_tracks (name : String) (f : Filter) (input : Value) (args : Arguments) :
    Tracks id Value (Interpreter.call ⟨filters, .async⟩ name f input args)
      (Interpreter.call ⟨filters, .sync⟩ name f input args) := by
  intro before
  unfold Interpreter.call
  have q : Quiet before (.call name input args :: before) := .step rfl before
  cases f input args with
  | error e => exact .same q
  | ok r =>
    have asks : Event.Asks (.call name input args) (.filter name) := rfl
    exact (settle_follows filters r asks before).after q

theorem trackedEvaluation (c : Context) :
    EvaluationLaws ⟨filters, .async⟩ ⟨filters, .sync⟩ c c (Tracks id) where
  toSequential := Tracks.sequential id
  fail _ _ := .same (.refl _)
  variableValue := variableValue_tracks filters c
  known _ := rfl
  call name f₁ f₂ h₁ h₂ input args := by
    cases h₁.symm.trans h₂
    exact call_tracks filters name f₁ input args

theorem Rendering.evaluating_tracks {f₁ f₂ : Context → Evaluation α}
    (hf : ∀ c, Tracks id α (f₁ c) (f₂ c)) :
    Tracks RenderState.history α (evaluating f₁) (evaluating f₂) := by
  intro st
  simp only [evaluating, Polled.result_map]
  exact (hf st.context st.history).map _ fun _ => rfl

theorem trackedRendering :
    RenderingLaws ⟨filters, .async⟩ ⟨filters, .sync⟩ (fun _ => True) (Tracks RenderState.history) where
  toSequential := Tracks.sequential RenderState.history
  write _ _ := .same (.refl _)
  expression e := Rendering.evaluating_tracks fun c => (trackedEvaluation filters c).expression e
  pipeline p := Rendering.evaluating_tracks fun c => (trackedEvaluation filters c).pipeline p
  assign _ _ _ := .same (.refl _)
  inFrame frame _ _ hb st := by
    simp only [Rendering.inFrame, Polled.result_map]
    exact (hb { st with context := st.context.push frame }).map _ fun _ => rfl
  capturing hb st := by
    simp only [Rendering.capturing, Polled.result_map]
    exact (hb { st with output := "" }).map _ fun _ => rfl

end

theorem Template.render_follows {t : Template} (ht : t.Builtin) (filters : FilterTable)
    (ctx : Context) : ∃ r₁ r₂, t.render ⟨filters, .async⟩ ctx = .ofEnding r₁ ∧
      t.render ⟨filters, .sync⟩ ctx = .ofEnding r₂ ∧ Follows RenderState.history [] r₁ r₂ :=
  ⟨_, _, t.render_eq_ofEnding ht _ ctx, t.render_eq_ofEnding ht _ ctx,
    (trackedRendering filters).nodes t.nodes ht (fun _ _ => trivial)
      { context := ctx, output := "", history := [] }⟩

/-- **Synchronous and asynchronous renders.** Where the asynchronous render awaits nothing, the
synchronous one is the same: result, frames and events. Else it fails at the first value that is
awaited, after the lookup or the call that this value comes from, with the events up to there. -/
theorem Template.render_sync_of_async {t : Template} (ht : t.Builtin) (filters : FilterTable)
    (ctx : Context) :
    let awaiting := t.render ⟨filters, .async⟩ ctx
    let polled := t.render ⟨filters, .sync⟩ ctx
    ((∀ e ∈ awaiting.history, e.awaits? = none) → polled = awaiting) ∧
    ∀ p, awaiting.history.findSome? Event.awaits? = some p →
      polled.result = .error (.pendingInSync p) ∧
      ((∃ name, p = .variable name) ∨ ∃ name, p = .filter name) ∧
      (∀ e ∈ polled.history, e.awaits? = none) ∧
      (∃ e, polled.history.getLast? = some e ∧ e.Asks p) ∧
      polled.history ++ [.awaited p] <+: awaiting.history := by
  obtain ⟨r₁, r₂, h₁, h₂, follows⟩ := t.render_follows ht filters ctx
  intro awaiting polled
  have ha : awaiting = .ofEnding r₁ := h₁
  have hp : polled = .ofEnding r₂ := h₂
  rw [ha, hp]
  cases follows with
  | same quiet =>
    refine ⟨fun _ => rfl, fun p hp => ?_⟩
    rw [Rendered.history_ofEnding, List.findSome?_eq_none_iff.2 quiet.awaits_reverse] at hp
    cases hp
  | @cut q s e before quiet last asks goesOn =>
    obtain ⟨later, hl⟩ := goesOn
    have hist : (Rendered.ofEnding r₁).history =
        s.history.reverse ++ .awaited q :: later.reverse := by
      simp [← hl]
    have first := quiet.first_awaits q later.reverse
    rw [← hist] at first
    refine ⟨fun hnone => ?_, fun p hp => ?_⟩
    · rw [List.findSome?_eq_none_iff.2 hnone] at first
      cases first
    · cases first.symm.trans hp
      refine ⟨rfl, asks.variable_or_filter, quiet.awaits_reverse, ⟨e, ?_, asks⟩, later.reverse, ?_⟩
      · simp [Ending.state, last]
      · rw [hist]
        simp [Ending.state]

/-- A loop that writes a deferred variable: the synchronous render fails at its first lookup. -/
theorem Template.render_sync_of_async_variable :
    let user : Pipeline := ⟨.path "user" [.key "user"], []⟩
    let t : Template := ⟨none, [.loop ⟨"x", .path "xs" [.key "xs"], false⟩ [.output user] []]⟩
    let source : VariableSource := fun name =>
      if name = "user" then some (.pending (.after (.ok (.text "ana")) 2)) else none
    let ctx : Context := ⟨[("xs", .list [.null, .null])], [], [], some source, false⟩
    t.Builtin ∧ (t.render ⟨.empty, .async⟩ ctx).result = .ok "anaana" ∧
    (t.render ⟨.empty, .sync⟩ ctx).result = .error (.pendingInSync (.variable "user")) := by
  intro user t source ctx
  have ht : t.Builtin := ⟨⟨⟨trivial, trivial⟩, trivial⟩, trivial⟩
  have hw : (t.render ⟨.empty, .async⟩ ctx).history.findSome? Event.awaits? =
      some (.variable "user") := by cbv
  exact ⟨ht, by cbv, ((Template.render_sync_of_async ht .empty ctx).2 _ hw).1⟩

end Stencil
