import Mathlib
import Stencil.Proofs.Engine.Loading

/-!
# What loads store

A load writes to the cache only where it stops at a source that compiles, and then once. With a cache
by recency, or with none, a load that fails leaves the cache as it was, so that later calls do not
tell that it took place (`Engine.load_stops_at_first`).
-/

namespace Stencil

/-! ## Writes -/

/-- What was stored, and under which key. -/
def LoadEvent.stored? : LoadEvent → Option (String × Template)
  | .stored key t => some (key, t)
  | _ => none

/-- What a load has written to the cache. -/
def Loaded.writes {κ : Type} (r : Loaded κ) : List (String × Template) :=
  r.history.filterMap LoadEvent.stored?

theorem filterMap_stored?_filter (h : List LoadEvent) :
    (h.filter LoadEvent.isEffect).filterMap LoadEvent.stored? = h.filterMap LoadEvent.stored? := by
  rw [List.filterMap_filter]
  congr 1
  funext e
  cases e <;> rfl

theorem filterMap_stored?_opened (keys : List String) :
    (keys.map LoadEvent.opened).filterMap LoadEvent.stored? = [] := by
  rw [List.filterMap_map]
  exact List.filterMap_eq_nil_iff.2 fun _ _ => rfl

theorem Template.name_compile {tags : TagTable} {key source : String} {t : Template}
    (h : Template.compile tags key source = .ok t) : t.name = some key := by
  unfold Template.compile at h
  split at h
  · cases h
    rfl
  · cases h

namespace Loader

variable {κ : Type} [KeyedCache κ Template]

/-- The first of the candidates that are left has a source that compiles to `t`, and the cache `c` does
not give it. -/
def Compiles (l : Loader) (c : κ) (rest : List String) (key : String) (t : Template) : Prop :=
  ∃ later c' source, rest = key :: later ∧ consult c key = (none, c') ∧
    l.read key = .ok source ∧ Template.compile l.tags key source = .ok t

namespace Stops

variable {l : Loader} {c c' : κ} {rest : List String} {last : List LoadEvent}
  {result : Except Error Template}

/-- A load that fails ends without a write. -/
theorem no_write {e : Error} (h : l.Stops c rest (.error e) last c') :
    last.filterMap LoadEvent.stored? = [] := by
  cases h <;> rfl

/-- What is written is what was compiled. -/
theorem mem_writes_iff (h : l.Stops c rest result last c') (key : String) (t : Template) :
    (key, t) ∈ last.filterMap LoadEvent.stored? ↔ l.Compiles c rest key t := by
  constructor
  · intro hw
    cases h with
    | compiled missed found good =>
      cases List.mem_singleton.1 hw
      exact ⟨_, _, _, rfl, missed, found, good⟩
    | exhausted | cached | malformed | unreadable => cases hw
  · rintro ⟨later, c₁, source, rfl, hc, hr, ht⟩
    cases h with
    | cached hit => simp [hit] at hc
    | compiled missed found good =>
      obtain rfl := Except.ok.inj (found.symm.trans hr)
      obtain rfl := Except.ok.inj (good.symm.trans ht)
      exact List.mem_singleton.2 rfl
    | malformed missed found bad =>
      obtain rfl := Except.ok.inj (found.symm.trans hr)
      simp [bad] at ht
    | unreadable missed failed there => simp [failed] at hr

theorem length_writes_le (h : l.Stops c rest result last c') :
    (last.filterMap LoadEvent.stored?).length ≤ 1 := by
  cases h with
  | compiled => exact Nat.le_refl 1
  | exhausted | cached | malformed | unreadable => exact Nat.zero_le 1

/-- What is written is named by its key, and is the result. -/
theorem write_named (h : l.Stops c rest result last c') {key : String} {t : Template}
    (hw : (key, t) ∈ last.filterMap LoadEvent.stored?) : t.name = some key ∧ result = .ok t := by
  cases h with
  | compiled missed found good =>
    cases List.mem_singleton.1 hw
    exact ⟨Template.name_compile good, rfl⟩
  | exhausted | cached | malformed | unreadable => cases hw

end Stops

end Loader

/-! ## Caches by recency -/

section
variable {c c' : TemplateCache} {key : String} {t : Template} {l : Loader}

/-- A cache by recency has what it claims to have. -/
theorem consult_recency (c : RecencyCache Template) (key : String) :
    consult (some c : TemplateCache) key = (c.get? key, some (c.read key).2) := by
  have hhas : KeyedCache.has (some c : TemplateCache) key = (c.contains key, some c) := rfl
  have hread : KeyedCache.read (some c : TemplateCache) key =
      ((c.read key).1, some (c.read key).2) := rfl
  unfold consult
  rw [hhas]
  cases hv : c.get? key with
  | none => simp [RecencyCache.contains, hv, RecencyCache.read_of_get?_eq_none hv]
  | some v => simp [RecencyCache.contains, hv, hread]

/-- What a cache does not give leaves it as it is. -/
theorem consult_none (h : consult c key = (none, c')) : c' = c := by
  cases c with
  | none => exact (congrArg Prod.snd h).symm
  | some c =>
    rw [consult_recency] at h
    obtain ⟨hv, rfl⟩ := Prod.mk.inj h
    rw [RecencyCache.read_of_get?_eq_none hv]

theorem Loader.PassesOver.cache_eq {keys : List String} (h : l.PassesOver c keys c') : c' = c := by
  induction h with
  | nil c => rfl
  | cons missed missing rest ih => rw [ih, consult_none missed]

/-- A load that fails leaves the cache as it was. -/
theorem Loader.Stops.cache_eq {rest : List String} {e : Error} {last : List LoadEvent}
    (h : l.Stops c rest (.error e) last c') : c' = c := by
  cases h with
  | exhausted => rfl
  | malformed missed => exact consult_none missed
  | unreadable missed => exact consult_none missed

end

/-! ## Calls -/

/-- A call that loads a template, with the sources as they are at that time. -/
structure LoadCall where
  mode : Mode
  name : String
  reader : SourceReader

namespace Engine

variable {κ : Type} [KeyedCache κ Template]

/-- What a call gives. -/
def loaded (e : Engine κ) (call : LoadCall) : Loaded κ :=
  { e with reader := call.reader }.load call.mode call.name

/-- The result of a call, and the engine that it leaves. -/
def loadCall (e : Engine κ) (call : LoadCall) : Except Error Template × Engine κ :=
  ((e.loaded call).result, { e with reader := call.reader, cache := (e.loaded call).cache })

/-- **What a call does.** Whatever the cache, a call passes over candidates that the cache does not give
and whose source is missing, and stops at the first other one, or when none is left. It writes to the
cache if and only if it stops at a source that compiles, and then once: the template compiled from
that text, under the key of the candidate and named by it. A call that fails writes nothing. With a
cache by recency, or with none, it leaves the entries and their order as they were, and later calls go
as if it had not taken place. -/
theorem load_stops_at_first (e : Engine κ) (plain : Engine TemplateCache) (mode : Mode)
    (name : String) :
    (let l := e.loader mode name
      let r := e.load mode name
      ∃ passed rest c last, e.reader.candidates name = passed ++ rest ∧
        l.PassesOver e.cache passed c ∧ l.Stops c rest r.result last r.cache ∧
        r.history.filterMap LoadEvent.asked? = passed ++ rest.take 1 ∧
        r.history.filter LoadEvent.isEffect = passed.map .opened ++ last ∧
        (∀ key t, (key, t) ∈ r.writes ↔ l.Compiles c rest key t) ∧ r.writes.length ≤ 1 ∧
        (∀ key t, (key, t) ∈ r.writes → t.name = some key ∧ r.result = .ok t) ∧
        ∀ err, r.result = .error err → r.writes = []) ∧
    (let r := plain.load mode name
      ∀ err, r.result = .error err → r.cache = plain.cache ∧
        ∀ calls, serve loadCall { plain with cache := r.cache } calls =
          serve loadCall plain calls) := by
  constructor
  · obtain ⟨passed, rest, c, last, hkeys, hpassed, hlast, hasked, heffects⟩ :=
      e.load_course mode name
    have hwrites : (e.load mode name).writes = last.filterMap LoadEvent.stored? := by
      rw [Loaded.writes, ← filterMap_stored?_filter, heffects, List.filterMap_append,
        filterMap_stored?_opened, List.nil_append]
    refine ⟨passed, rest, c, last, hkeys, hpassed, hlast, hasked, heffects, ?_⟩
    rw [hwrites]
    refine ⟨hlast.mem_writes_iff, hlast.length_writes_le, fun key t => hlast.write_named,
      fun err herr => ?_⟩
    rw [herr] at hlast
    exact hlast.no_write
  · intro r err herr
    obtain ⟨passed, rest, c, last, -, hpassed, hlast, -, -⟩ := plain.load_course mode name
    have hcache : r.cache = plain.cache := by
      rw [herr] at hlast
      exact hlast.cache_eq.trans hpassed.cache_eq
    refine ⟨hcache, fun calls => ?_⟩
    rw [hcache]

/-- The second candidate is found but does not compile. -/
theorem load_stops_at_first_malformed :
    let reader : SourceReader :=
      { candidates := fun name => ["a/" ++ name, "b/" ++ name]
        read := fun key => if key = "b/page" then .ok "\x7b\x7b x" else .error (.sourceNotFound key) }
    let cache : TemplateCache := some ((RecencyCache.bounded 2).write "c" ⟨some "c", []⟩)
    let e : Engine TemplateCache := (Engine.new reader {}).withCache cache
    let fault : MarkupFault :=
      { message := "'\x7b\x7b' was never closed", line := 1, column := 1, file := some "b/page"
        snippet := some ⟨["\x7b\x7b x"], 1, 1, 1, 1⟩ }
    (e.load .sync "page").result = .error (.markup fault) ∧ (e.load .sync "page").writes = [] ∧
      (e.load .sync "page").cache = cache := by
  intro reader cache e fault
  have herr : (e.load .sync "page").result = .error (.markup fault) := by cbv
  have h := load_stops_at_first e e .sync "page"
  obtain ⟨passed, rest, c, last, -, -, -, -, -, -, -, -, hwrites⟩ := h.1
  exact ⟨herr, hwrites _ herr, (h.2 _ herr).1⟩

end Engine

end Stencil
