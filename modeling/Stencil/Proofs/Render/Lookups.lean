import Stencil.Proofs.Render.Reading
import Stencil.Proofs.Render.Sequencing

/-!
# The names that an evaluation looks up

`Expression.lookups` lists the names that an evaluation looks up, in order and up to the point where it
fails; `Interpreter.filtersLookups` does so for the arguments of filters. A computed segment counts with
the name that it has in this run, other than in `Segment.Names`. In contexts that agree on these names
the evaluations are the same.
-/

namespace Stencil

variable {ε σ α β : Type}

/-- What `f` lists after a good end, and nothing after a failure. -/
def Ending.listing (f : α → σ → List β) : Ending ε σ α → List β
  | .ok a s => f a s
  | .error _ _ => []

theorem Ending.forall_mem_listing {f : α → σ → List β} {r : Ending ε σ α} {P : β → Prop} :
    (∀ b ∈ r.listing f, P b) ↔ ∀ a s, r = .ok a s → ∀ b ∈ f a s, P b := by
  cases r with
  | ok a s => exact ⟨fun h _ _ e => by cases e; exact h, fun h => h a s rfl⟩
  | error e s => exact ⟨nofun, nofun⟩

section
variable (i : Interpreter) (ctx : Context)

mutual

/-- The names that the evaluation looks up, from a history of events on. -/
def Expression.lookups : Expression → List Event → List String
  | .literal _ _, _ => []
  | .path _ [], _ => []
  | .path spelling (head :: rest), h =>
    head.lookups h ++ (head.headName i ctx h).result.listing fun name h =>
      name :: (i.variableValue ctx spelling name h).result.listing fun _ h => segmentsLookups rest h
  | .range _ first last, h =>
    first.lookups h ++ (first.eval i ctx h).result.listing fun _ h => last.lookups h

def Segment.lookups : Segment → List Event → List String
  | .key _, _ | .index _, _ => []
  | .computed e, h => e.lookups h

def segmentsLookups : List Segment → List Event → List String
  | [], _ => []
  | s :: rest, h => s.lookups h ++ (s.property i ctx h).result.listing fun _ h => segmentsLookups rest h

end

namespace Interpreter

def argumentsLookups : List Argument → List Event → List String
  | [], _ => []
  | a :: rest, h =>
    a.value.lookups i ctx h ++ (a.value.eval i ctx h).result.listing fun _ h => argumentsLookups rest h

/-- Arguments of a filter that is not known are not evaluated. -/
def filtersLookups : Value → List Invocation → List Event → List String
  | _, [], _ => []
  | input, f :: rest, h =>
    (if i.filters.contains f.name then i.argumentsLookups ctx f.arguments h else []) ++
      (i.apply ctx input f h).result.listing fun v h => filtersLookups v rest h

end Interpreter

end

/-! ## Contexts that agree on what is looked up -/

namespace Context.AgreeOn

variable {N : String → Prop} {c₁ c₂ : Context} (i : Interpreter)

open Coroutine Ending

mutual

theorem expression_lookups (agree : AgreeOn N c₁ c₂) : ∀ (e : Expression) (h : List Event),
    (∀ name ∈ e.lookups i c₁ h, N name) → e.eval i c₁ h = e.eval i c₂ h
  | .literal _ _, _, _ => by simp only [Expression.eval]
  | .path _ [], _, _ => by simp only [Expression.eval]
  | .path spelling (head :: rest), h, hn => by
    simp only [Expression.lookups, List.forall_mem_append, forall_mem_listing,
      List.forall_mem_cons] at hn
    obtain ⟨hhead, hrest⟩ := hn
    simp only [Expression.eval]
    refine bind_eq_bind (headName_lookups agree head h hhead) fun name h₁ hr => ?_
    obtain ⟨hname, hrest⟩ := hrest name h₁ hr
    have hv := congrFun (agree.variableValue i spelling hname) h₁
    exact bind_eq_bind hv fun v h₂ hr => walk_lookups agree v rest h₂ (hrest v h₂ hr)
  | .range _ first last, h, hn => by
    simp only [Expression.lookups, List.forall_mem_append, forall_mem_listing] at hn
    simp only [Expression.eval]
    refine bind_eq_bind (expression_lookups agree first h hn.1) fun a h₁ hr => ?_
    exact bind_eq_bind (expression_lookups agree last h₁ (hn.2 a h₁ hr)) fun _ _ _ => rfl

theorem headName_lookups (agree : AgreeOn N c₁ c₂) : ∀ (s : Segment) (h : List Event),
    (∀ name ∈ s.lookups i c₁ h, N name) → s.headName i c₁ h = s.headName i c₂ h
  | .key _, _, _ | .index _, _, _ => by simp only [Segment.headName]
  | .computed e, h, hn => by
    simp only [Segment.headName]
    exact bind_eq_bind (expression_lookups agree e h hn) fun _ _ _ => rfl

theorem property_lookups (agree : AgreeOn N c₁ c₂) : ∀ (s : Segment) (h : List Event),
    (∀ name ∈ s.lookups i c₁ h, N name) → s.property i c₁ h = s.property i c₂ h
  | .key _, _, _ | .index _, _, _ => by simp only [Segment.property]
  | .computed e, h, hn => by
    simp only [Segment.property]
    exact expression_lookups agree e h hn

theorem walk_lookups (agree : AgreeOn N c₁ c₂) : ∀ (v : Value) (segments : List Segment) (h : List Event),
    (∀ name ∈ segmentsLookups i c₁ segments h, N name) →
    walk i c₁ v segments h = walk i c₂ v segments h
  | _, [], _, _ => by simp only [walk]
  | v, s :: rest, h, hn => by
    simp only [segmentsLookups, List.forall_mem_append, forall_mem_listing] at hn
    simp only [walk]
    exact bind_eq_bind (property_lookups agree s h hn.1) fun key h₁ hr =>
      walk_lookups agree (v.property key) rest h₁ (hn.2 key h₁ hr)

end

theorem arguments_lookups (agree : AgreeOn N c₁ c₂) (as : List Argument) (args : Arguments) (h : List Event)
    (hn : ∀ name ∈ i.argumentsLookups c₁ as h, N name) :
    i.arguments c₁ args as h = i.arguments c₂ args as h := by
  induction as generalizing args h with
  | nil => rfl
  | cons a rest ih =>
    simp only [Interpreter.argumentsLookups, List.forall_mem_append, forall_mem_listing] at hn
    exact bind_eq_bind (agree.expression_lookups i a.value h hn.1) fun v h₁ hr =>
      ih _ h₁ (hn.2 v h₁ hr)

theorem apply_lookups (agree : AgreeOn N c₁ c₂) (input : Value) (f : Invocation) (h : List Event)
    (hn : i.filters.contains f.name = true → ∀ name ∈ i.argumentsLookups c₁ f.arguments h, N name) :
    i.apply c₁ input f h = i.apply c₂ input f h := by
  unfold Interpreter.apply FilterTable.find
  unfold FilterTable.contains at hn
  cases hf : i.filters.lookup f.name with
  | none => rfl
  | some filter =>
    rw [hf] at hn
    -- a filter that is found is no step of its own
    change (i.arguments c₁ _ f.arguments >>= fun args => i.call f.name filter input args) h =
      (i.arguments c₂ _ f.arguments >>= fun args => i.call f.name filter input args) h
    exact bind_eq_bind (agree.arguments_lookups i f.arguments _ h (hn rfl)) fun _ _ _ => rfl

theorem applyAll_lookups (agree : AgreeOn N c₁ c₂) (fs : List Invocation) (input : Value) (h : List Event)
    (hn : ∀ name ∈ i.filtersLookups c₁ input fs h, N name) :
    i.applyAll c₁ input fs h = i.applyAll c₂ input fs h := by
  induction fs generalizing input h with
  | nil => rfl
  | cons f rest ih =>
    simp only [Interpreter.filtersLookups, List.forall_mem_append, forall_mem_listing] at hn
    refine bind_eq_bind (agree.apply_lookups i input f h fun known => ?_) fun v h₁ hr =>
      ih v h₁ (hn.2 v h₁ hr)
    rw [if_pos known] at hn
    exact hn.1

end Context.AgreeOn

end Stencil
