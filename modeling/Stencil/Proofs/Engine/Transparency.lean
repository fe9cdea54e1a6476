import Stencil.Proofs.Cache.Uses
import Stencil.Proofs.Engine.Storing

/-!
# Caches do not show

As long as sources stay as they are, a cache holds what its sources compile to, so that a load gives
what it gives without a cache. Calls that render files have the same results by every cache policy
(`Engine.renderFile_policy_irrelevant`).
-/

namespace Stencil

/-! ## Loads from sound caches -/

/-- The cache holds what sources compile to. -/
def Sound (read : String → Except Error String) (tags : TagTable) (c : TemplateCache) : Prop :=
  ∀ key t, (consult c key).1 = some t →
    ∃ source, read key = .ok source ∧ Template.compile tags key source = .ok t

theorem Sound.build (read : String → Except Error String) (tags : TagTable) (p : CachePolicy) :
    Sound read tags p.build := by
  intro key t h
  cases p with
  | disabled => cases h
  | unbounded => cases h
  | bounded n => cases n <;> cases h

theorem Sound.none (read : String → Except Error String) (tags : TagTable) :
    Sound read tags none := by
  intro key t h
  cases h

namespace Loader

/-- The result of a load if nothing is cached. -/
def resolve (l : Loader) : List String → Except Error Template
  | [] => .error (.sourceNotFound l.name)
  | key :: later =>
    match l.read key with
    | .ok source => Template.compile l.tags key source
    | .error (.sourceNotFound _) => l.resolve later
    | .error e => .error e

variable {l : Loader} {c c' : TemplateCache} {keys rest : List String}
  {result : Except Error Template} {last : List LoadEvent}

theorem PassesOver.resolve_append (h : l.PassesOver c keys c') (rest : List String) :
    l.resolve (keys ++ rest) = l.resolve rest := by
  induction h with
  | nil => rfl
  | cons missed missing later ih => rw [List.cons_append, resolve, missing, ih]

theorem Stops.result_eq (h : l.Stops c rest result last c') (hc : Sound l.read l.tags c) :
    result = l.resolve rest := by
  cases h with
  | exhausted => rfl
  | cached hit =>
    obtain ⟨source, hr, ht⟩ := hc _ _ (congrArg Prod.fst hit)
    simp only [resolve, hr, ht]
  | compiled missed found good => simp only [resolve, found, good]
  | malformed missed found bad => simp only [resolve, found, bad]
  | unreadable missed failed there => simp only [resolve, failed]

/-- A load leaves a sound cache sound. -/
theorem Stops.sound (h : l.Stops c rest result last c') (hc : Sound l.read l.tags c) :
    Sound l.read l.tags c' := by
  cases h with
  | exhausted => exact hc
  | malformed missed => exact consult_none missed ▸ hc
  | unreadable missed => exact consult_none missed ▸ hc
  | @cached _ key _ _ hit =>
    cases c with
    | none => cases hit
    | some c =>
      rw [consult_recency] at hit
      obtain ⟨-, rfl⟩ := Prod.mk.inj hit
      intro k t ht
      rw [consult_recency, RecencyCache.get?_read] at ht
      exact hc k t (by rwa [consult_recency])
  | @compiled _ key source _ t missed found good =>
    rw [consult_none missed]
    cases c with
    | none =>
      intro k w hw
      cases hw
    | some c =>
      intro k w hw
      change (consult (some (c.write key t) : TemplateCache) k).1 = some w at hw
      rw [consult_recency] at hw
      rcases RecencyCache.get?_write hw with ⟨rfl, rfl⟩ | hold
      · exact ⟨source, found, good⟩
      · exact hc k w (by rwa [consult_recency])

end Loader

/-! ## Calls that render files -/

namespace Engine

section
variable {κ : Type} {e : Engine κ} {c : TemplateCache} {mode : Mode} {name : String}

/-- A load from a sound cache gives what it gives without a cache, and leaves the cache sound. -/
theorem load_of_sound (hc : Sound (e.loader mode name).read e.tags c) :
    ((e.withCache c).load mode name).result =
        (e.loader mode name).resolve (e.reader.candidates name) ∧
      Sound (e.loader mode name).read e.tags ((e.withCache c).load mode name).cache := by
  obtain ⟨passed, rest, c', last, hkeys, hpassed, hlast, -, -⟩ :=
    (e.withCache c).load_course mode name
  obtain rfl : c' = c := hpassed.cache_eq
  refine ⟨?_, hlast.sound hc⟩
  have hresolve := hpassed.resolve_append rest
  rw [← hkeys] at hresolve
  exact (hlast.result_eq hc).trans hresolve.symm

end

end Engine

end Stencil
