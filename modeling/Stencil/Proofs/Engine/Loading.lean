import Stencil.Engine
import Stencil.Proofs.Session

/-!
# The course of a load

A load passes over candidates that the cache does not give and whose source is missing, and stops at
the first other one, or when no candidate is left (`Loader.run_course`).
-/

namespace Stencil

namespace LoadEvent

/-- The key that the cache was asked for. -/
def asked? : LoadEvent → Option String
  | asked key _ => some key
  | _ => none

/-- A source was read or a template stored: more than a question to the cache. -/
def isEffect : LoadEvent → Bool
  | opened _ => true
  | stored _ _ => true
  | _ => false

end LoadEvent

section
variable {κ : Type} [KeyedCache κ Template]

/-- The template that a cache gives for a key that it claims to have, and the cache afterwards. -/
def consult (c : κ) (key : String) : Option Template × κ :=
  match KeyedCache.has c key with
  | (false, c) => (none, c)
  | (true, c) => KeyedCache.read c key

/-- The questions to the cache when it is consulted, newest first. -/
def consultation (c : κ) (key : String) : List LoadEvent :=
  match KeyedCache.has c key with
  | (false, _) => [.asked key false]
  | (true, c) => [.taken key (KeyedCache.read c key).1.isSome, .asked key true]

theorem asked_consultation (c : κ) (key : String) :
    (consultation c key).filterMap LoadEvent.asked? = [key] := by
  unfold consultation
  split <;> rfl

theorem effects_consultation (c : κ) (key : String) :
    (consultation c key).filter LoadEvent.isEffect = [] := by
  unfold consultation
  split <;> rfl

namespace Loader

variable (l : Loader)

theorem cached_eq (key : String) (c : κ) (h : List LoadEvent) :
    cached key ⟨c, h⟩ = ((consult c key).1, ⟨(consult c key).2, consultation c key ++ h⟩) := by
  unfold cached consult consultation
  rcases KeyedCache.has c key with ⟨_ | _, c'⟩ <;> rfl

theorem steps_done (n : Nat) (result : Except Error Template) (s : LoadState κ) :
    l.steps n (.done result) s = (.done result, s) := by
  induction n with
  | zero => rfl
  | succ n ih => exact ih

theorem step_hit {key : String} {t : Template} {c c' : κ} (hc : consult c key = (some t, c'))
    (later : List String) (h : List LoadEvent) :
    l.step (.checking (key :: later)) ⟨c, h⟩ =
      (.done (.ok t), ⟨c', consultation c key ++ h⟩) := by
  simp only [step, cached_eq, hc]

/-- A candidate that the cache gives ends the load. -/
theorem run_cached {key : String} {t : Template} {c c' : κ} (hc : consult c key = (some t, c'))
    (later : List String) (h : List LoadEvent) :
    l.run (key :: later) ⟨c, h⟩ = (.ok t, ⟨c', consultation c key ++ h⟩) := by
  simp only [run, Load.stepsLeft, steps, l.step_hit hc, steps_done]

theorem step_missed {key : String} {c c' : κ} (hc : consult c key = (none, c'))
    (later : List String) (h : List LoadEvent) :
    l.step (.checking (key :: later)) ⟨c, h⟩ =
      (.awaiting key later, ⟨c', consultation c key ++ h⟩) := by
  simp only [step, cached_eq, hc]

/-- A candidate that the cache does not give is decided by its source: it ends the load, -/
theorem run_arrived {key : String} {c c' : κ} (hc : consult c key = (none, c'))
    {later : List String} {h : List LoadEvent} {result : Except Error Template} {s : LoadState κ}
    (ha : l.arrive key later ⟨c', consultation c key ++ h⟩ = (.done result, s)) :
    l.run (key :: later) ⟨c, h⟩ = (result, s) := by
  simp only [run, Load.stepsLeft, List.length_cons, Nat.mul_add, steps, l.step_missed hc]
  simp only [step, ha, steps_done]

/-- or leads on to the next candidate. -/
theorem run_missing {key : String} {c c' : κ} (hc : consult c key = (none, c'))
    {later : List String} {h : List LoadEvent} {s : LoadState κ}
    (ha : l.arrive key later ⟨c', consultation c key ++ h⟩ = (.checking later, s)) :
    l.run (key :: later) ⟨c, h⟩ = l.run later s := by
  simp only [run, Load.stepsLeft, List.length_cons, Nat.mul_add, steps, l.step_missed hc]
  simp only [step, ha]

/-! A source that has arrived: it is compiled and stored, or it is not there, or it is at fault. -/

theorem arrive_compiled {key source : String} {t : Template} (hr : l.read key = .ok source)
    (ht : Template.compile l.tags key source = .ok t) (later : List String) (s : LoadState κ) :
    l.arrive key later s = (.done (.ok t),
      ⟨KeyedCache.write s.cache key t, .stored key t :: .opened key :: s.history⟩) := by
  simp only [arrive, store, hr, ht]

theorem arrive_malformed {key source : String} {e : Error} (hr : l.read key = .ok source)
    (he : Template.compile l.tags key source = .error e) (later : List String)
    (s : LoadState κ) :
    l.arrive key later s = (.done (.error e), ⟨s.cache, .opened key :: s.history⟩) := by
  simp only [arrive, store, hr, he]

theorem arrive_missing {key name : String} (hr : l.read key = .error (.sourceNotFound name))
    (later : List String) (s : LoadState κ) :
    l.arrive key later s = (.checking later, ⟨s.cache, .opened key :: s.history⟩) := by
  simp only [arrive, hr]

theorem arrive_unreadable {key : String} {e : Error} (hr : l.read key = .error e)
    (he : ∀ name, e ≠ .sourceNotFound name) (later : List String) (s : LoadState κ) :
    l.arrive key later s = (.done (.error e), ⟨s.cache, .opened key :: s.history⟩) := by
  simp only [arrive, hr]

/-- These candidates are neither given by the cache nor found: asked for one after another from the
cache `c` on, they leave it as `c'`. -/
inductive PassesOver : κ → List String → κ → Prop
  | nil (c : κ) : PassesOver c [] c
  | cons {c c' c'' : κ} {key name : String} {later : List String}
    (missed : consult c key = (none, c')) (missing : l.read key = .error (.sourceNotFound name))
    (rest : PassesOver c' later c'') : PassesOver c (key :: later) c''

/-- How a load ends, from the cache `c` on, at the first of the candidates that are left: its result,
what it does beside asking the cache, and the cache that it leaves. -/
inductive Stops (c : κ) : List String → Except Error Template → List LoadEvent → κ → Prop
  | exhausted : Stops c [] (.error (.sourceNotFound l.name)) [] c
  | cached {c' : κ} {key : String} {later : List String} {t : Template}
    (hit : consult c key = (some t, c')) : Stops c (key :: later) (.ok t) [] c'
  | compiled {c' : κ} {key source : String} {later : List String} {t : Template}
    (missed : consult c key = (none, c')) (found : l.read key = .ok source)
    (good : Template.compile l.tags key source = .ok t) :
    Stops c (key :: later) (.ok t) [.opened key, .stored key t] (KeyedCache.write c' key t)
  | malformed {c' : κ} {key source : String} {later : List String} {e : Error}
    (missed : consult c key = (none, c')) (found : l.read key = .ok source)
    (bad : Template.compile l.tags key source = .error e) :
    Stops c (key :: later) (.error e) [.opened key] c'
  | unreadable {c' : κ} {key : String} {later : List String} {e : Error}
    (missed : consult c key = (none, c')) (failed : l.read key = .error e)
    (there : ∀ name, e ≠ .sourceNotFound name) : Stops c (key :: later) (.error e) [.opened key] c'

variable {l}

/-- What a load does where it stops is not to ask the cache. -/
theorem Stops.effects {c c' : κ} {rest : List String} {result : Except Error Template}
    {last : List LoadEvent} (h : l.Stops c rest result last c') :
    last.filter LoadEvent.isEffect = last ∧ last.filterMap LoadEvent.asked? = [] := by
  cases h <;> exact ⟨rfl, rfl⟩

variable (l)

/-- The course of a load over the candidates `keys`: it passes over some and stops. Its events are
added to the history, newest first: those that ask the cache for a key, and others. -/
def Course (keys : List String) (s : LoadState κ) (result : Except Error Template)
    (s' : LoadState κ) : Prop :=
  ∃ passed rest c last new, keys = passed ++ rest ∧ l.PassesOver s.cache passed c ∧
    l.Stops c rest result last s'.cache ∧ s'.history = new ++ s.history ∧
    new.reverse.filterMap LoadEvent.asked? = passed ++ rest.take 1 ∧
    new.reverse.filter LoadEvent.isEffect = passed.map .opened ++ last

variable {l}

theorem Course.stop {key : String} {later : List String} {s : LoadState κ} {c : κ}
    {result : Except Error Template} {last : List LoadEvent}
    (h : l.Stops s.cache (key :: later) result last c) :
    l.Course (key :: later) s result ⟨c, last.reverse ++ (consultation s.cache key ++ s.history)⟩ := by
  refine ⟨[], key :: later, s.cache, last, last.reverse ++ consultation s.cache key, rfl,
    .nil s.cache, h, by simp, ?_, ?_⟩
  · simp [List.filterMap_reverse, asked_consultation, h.effects]
  · simp [List.filter_reverse, effects_consultation, h.effects]

theorem Course.pass {key name : String} {later : List String} {s s' : LoadState κ} {c : κ}
    {result : Except Error Template} (hc : consult s.cache key = (none, c))
    (hr : l.read key = .error (.sourceNotFound name))
    (h : l.Course later ⟨c, .opened key :: (consultation s.cache key ++ s.history)⟩ result s') :
    l.Course (key :: later) s result s' := by
  obtain ⟨passed, rest, c', last, new, rfl, hpassed, hlast, hnew, hasked, heffects⟩ := h
  refine ⟨key :: passed, rest, c', last, new ++ .opened key :: consultation s.cache key, rfl,
    .cons hc hr hpassed, hlast, by simp [hnew], ?_, ?_⟩
  · rw [List.reverse_append, List.filterMap_append, hasked]
    simp [List.filterMap_reverse, asked_consultation, LoadEvent.asked?]
  · rw [List.reverse_append, List.filter_append, heffects]
    simp [List.filter_reverse, List.filter_cons, effects_consultation, LoadEvent.isEffect]

variable (l)

theorem run_course (keys : List String) (s : LoadState κ) :
    l.Course keys s (l.run keys s).1 (l.run keys s).2 := by
  induction keys generalizing s with
  | nil => exact ⟨[], [], s.cache, [], [], rfl, .nil s.cache, .exhausted, rfl, rfl, rfl⟩
  | cons key later ih =>
    rcases hc : consult s.cache key with ⟨_ | t, c⟩
    · cases hr : l.read key with
      | ok source =>
        cases ht : Template.compile l.tags key source with
        | ok t =>
          rw [l.run_arrived hc (l.arrive_compiled hr ht ..)]
          exact .stop (.compiled hc hr ht)
        | error e =>
          rw [l.run_arrived hc (l.arrive_malformed hr ht ..)]
          exact .stop (.malformed hc hr ht)
      | error e =>
        by_cases he : ∃ name, e = .sourceNotFound name
        · obtain ⟨name, rfl⟩ := he
          rw [l.run_missing hc (l.arrive_missing hr ..)]
          exact .pass hc hr (ih _)
        · have hne : ∀ name, e ≠ .sourceNotFound name := fun name h => he ⟨name, h⟩
          rw [l.run_arrived hc (l.arrive_unreadable hr hne ..)]
          exact .stop (.unreadable hc hr hne)
    · rw [l.run_cached hc]
      exact .stop (.cached hc)

end Loader

theorem Engine.load_course (e : Engine κ) (mode : Mode) (name : String) :
    ∃ passed rest c last, e.reader.candidates name = passed ++ rest ∧
      (e.loader mode name).PassesOver e.cache passed c ∧
      (e.loader mode name).Stops c rest (e.load mode name).result last (e.load mode name).cache ∧
      (e.load mode name).history.filterMap LoadEvent.asked? = passed ++ rest.take 1 ∧
      (e.load mode name).history.filter LoadEvent.isEffect = passed.map .opened ++ last := by
  obtain ⟨passed, rest, c, last, new, hkeys, hpassed, hlast, hnew, hasked, heffects⟩ :=
    (e.loader mode name).run_course (e.reader.candidates name) ⟨e.cache, []⟩
  rw [List.append_nil] at hnew
  refine ⟨passed, rest, c, last, hkeys, hpassed, hlast, ?_, ?_⟩
  · rw [← hasked, ← hnew]
    rfl
  · rw [← heffects, ← hnew]
    rfl

end

end Stencil
