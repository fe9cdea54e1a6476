import Stencil.Proofs.Cache.Uses
import Stencil.Proofs.Engine.Storing

/-!
# Templates used again

An engine that keeps templates gives a template again, without a look at its source, as long as fewer
other keys than it has room for were returned since; else it reads the source as it is then
(`Engine.load_reuses`). What the cache of such an engine holds is told from the templates returned.
-/

namespace Stencil

/-- As many templates are kept; none if the capacity is zero. -/
def CachePolicy.capacity : CachePolicy → Option Nat
  | .disabled => some 0
  | .unbounded => none
  | .bounded n => some n

theorem CachePolicy.build_holds {p : CachePolicy} (hp : p.capacity ≠ some 0) :
    ∃ c : RecencyCache Template, p.build = some c ∧ c.Holds p.capacity [] := by
  cases p with
  | disabled => exact absurd rfl hp
  | unbounded => exact ⟨.unbounded, rfl, .empty none⟩
  | bounded n =>
    cases n with
    | zero => exact absurd rfl hp
    | succ n =>
      have hcap : some (max (n + 1) 1) = some (n + 1) := congrArg some (Nat.max_eq_left (by omega))
      exact ⟨.bounded (n + 1), rfl, hcap, rfl⟩

/-- The templates among results. -/
def templatesOf (results : List (Except Error Template)) : List Template :=
  results.filterMap Except.toOption

/-- Templates as entries under their names. -/
def entriesOf (ts : List Template) : List (String × Template) :=
  ts.filterMap fun t => t.name.map (·, t)

theorem keys_entriesOf (ts : List Template) :
    (entriesOf ts).map (·.1) = ts.filterMap (·.name) := by
  rw [entriesOf, List.map_filterMap]
  congr 1
  funext t
  cases t.name <;> rfl

theorem entriesOf_cons {t : Template} {key : String} (h : t.name = some key) (ts : List Template) :
    entriesOf (t :: ts) = (key, t) :: entriesOf ts := by
  rw [entriesOf, List.filterMap_cons, h]
  rfl

theorem lookup_entriesOf (key : String) (ts : List Template) :
    (entriesOf ts).lookup key = ts.find? (·.name = some key) := by
  induction ts with
  | nil => rfl
  | cons t rest ih =>
    cases hn : t.name with
    | none => simpa [entriesOf, hn] using ih
    | some k =>
      rw [entriesOf_cons hn, lookup_cons_ite, List.find?_cons, hn, ih]
      by_cases hk : key = k <;> simp [hk, Ne.symm]

theorem templatesOf_cons (result : Except Error Template) (results : List (Except Error Template)) :
    templatesOf (result :: results) = result.toOption.toList ++ templatesOf results := by
  cases result <;> rfl

namespace Loader

variable {l : Loader} {c : RecencyCache Template} {c' : TemplateCache} {limit : Option Nat}
  {ts : List Template} {rest : List String} {result : Except Error Template}
  {last : List LoadEvent}

/-- A cache that holds the templates returned so far does so after one more load. -/
theorem Stops.holds (h : l.Stops (some c) rest result last c') (hl : limit ≠ some 0)
    (hc : c.Holds limit (entriesOf ts)) :
    ∃ r, c' = some r ∧ r.Holds limit (entriesOf (result.toOption.toList ++ ts)) := by
  cases h with
  | exhausted => exact ⟨c, rfl, hc⟩
  | malformed missed => exact ⟨c, consult_none missed, hc⟩
  | unreadable missed => exact ⟨c, consult_none missed, hc⟩
  | @compiled _ key _ _ t missed found good =>
    rw [consult_none missed]
    refine ⟨c.write key t, rfl, ?_⟩
    have h' := hc.write hl key t
    rwa [← entriesOf_cons (Template.name_compile good)] at h'
  | cached hit =>
    rw [consult_recency] at hit
    obtain ⟨hv, rfl⟩ := Prod.mk.inj hit
    refine ⟨_, rfl, ?_⟩
    have hname := ((hc.get?_eq_some_iff _ _).1 hv).1
    rw [lookup_entriesOf] at hname
    have h' := hc.read hl hv
    rwa [← entriesOf_cons (by simpa using List.find?_some hname)] at h'

end Loader

namespace Engine

/-- The engine has the tags of `e`, and its cache holds the templates among the results, which stand
newest first. -/
structure Recalls (e : Engine TemplateCache) (p : CachePolicy)
    (results : List (Except Error Template)) (now : Engine TemplateCache) : Prop where
  tags : now.tags = e.tags
  cache : ∃ c, now.cache = some c ∧ c.Holds p.capacity (entriesOf (templatesOf results))

variable {e now : Engine TemplateCache} {p : CachePolicy}

theorem Recalls.next {results : List (Except Error Template)} (hp : p.capacity ≠ some 0)
    (h : e.Recalls p results now) (call : LoadCall) :
    e.Recalls p ((now.loadCall call).1 :: results) (now.loadCall call).2 := by
  obtain ⟨c, hc, hholds⟩ := h.cache
  obtain ⟨passed, rest, c', last, -, hpassed, hlast, -, -⟩ :=
    load_course { now with reader := call.reader } call.mode call.name
  obtain rfl : c' = some c := hpassed.cache_eq.trans hc
  refine ⟨h.tags, ?_⟩
  rw [templatesOf_cons]
  exact hlast.holds hp hholds

theorem serve_recalls (hp : p.capacity ≠ some 0) (he : e.cache = p.build) (calls : List LoadCall) :
    e.Recalls p (serve loadCall e calls).1.reverse (serve loadCall e calls).2 := by
  obtain ⟨c, hc, h⟩ := CachePolicy.build_holds hp
  exact serve_invariant ⟨rfl, c, he.trans hc, h⟩ (fun _ _ call h => h.next hp call) calls

end Engine

/-! ## Loads that reach a candidate -/

/-- Two ways to part a list: where the members with a property end, and behind some of them. -/
theorem part_eq_or_mem {α : Type} {P : α → Prop} {passed rest earlier later : List α} {a : α}
    (h : passed ++ rest = earlier ++ a :: later) (hearlier : ∀ b ∈ earlier, P b)
    (hrest : ∀ b tail, rest = b :: tail → ¬ P b) :
    (passed = earlier ∧ rest = a :: later) ∨ a ∈ passed := by
  rcases List.append_eq_append_iff.1 h with ⟨more, rfl, hmore⟩ | ⟨more, rfl, hmore⟩
  · cases more with
    | nil => exact .inl ⟨by simp, hmore⟩
    | cons b tail => exact absurd (hearlier b (by simp)) (hrest b _ hmore)
  · cases more with
    | nil => exact .inl ⟨by simp, hmore.symm⟩
    | cons b tail =>
      obtain ⟨rfl, -⟩ := List.cons.inj hmore
      exact .inr (by simp)

theorem consult_of_has {κ : Type} [KeyedCache κ Template] {c : κ} {key : String}
    (h : (KeyedCache.has c key).1 = false) : (consult c key).1 = none := by
  unfold consult
  split
  · rfl
  · next hhas => simp [hhas] at h

namespace Loader

/-- The cache does not give a candidate, and its source is missing. -/
def Misses {κ : Type} [KeyedCache κ Template] (l : Loader) (c : κ) (key : String) : Prop :=
  (consult c key).1 = none ∧ ∃ name, l.read key = .error (.sourceNotFound name)

theorem PassesOver.misses {l : Loader} {c c' : TemplateCache} {keys : List String}
    (h : l.PassesOver c keys c') : ∀ key ∈ keys, l.Misses c key := by
  induction h with
  | nil => simp
  | cons missed missing rest ih =>
    rw [consult_none missed] at ih
    exact List.forall_mem_cons.2 ⟨⟨congrArg Prod.fst missed, _, missing⟩, ih⟩

section
variable {κ : Type} [KeyedCache κ Template] {l : Loader} {c c' : κ} {key : String}
  {later : List String} {result : Except Error Template} {last : List LoadEvent}

theorem Stops.not_misses (h : l.Stops c (key :: later) result last c') : ¬ l.Misses c key := by
  rintro ⟨hc, name, hr⟩
  cases h with
  | cached hit => simp [hit] at hc
  | compiled missed found good => simp [found] at hr
  | malformed missed found bad => simp [found] at hr
  | unreadable missed failed there => exact there name (Except.error.inj (failed.symm.trans hr))

theorem Stops.of_cached {t : Template} (h : l.Stops c (key :: later) result last c')
    (ht : (consult c key).1 = some t) : result = .ok t ∧ last = [] := by
  cases h with
  | cached hit =>
    rw [hit] at ht
    exact ⟨congrArg Except.ok (Option.some.inj ht), rfl⟩
  | compiled missed | malformed missed | unreadable missed => simp [missed] at ht

theorem Stops.opened (h : l.Stops c (key :: later) result last c')
    (hc : (consult c key).1 = none) : .opened key ∈ last := by
  cases h with
  | cached hit => simp [hit] at hc
  | compiled | malformed | unreadable => exact List.mem_cons_self

theorem Stops.of_compiled {source : String} {t : Template}
    (h : l.Stops c (key :: later) result last c') (hc : (consult c key).1 = none)
    (hr : l.read key = .ok source) (ht : Template.compile l.tags key source = .ok t) :
    result = .ok t ∧ .stored key t ∈ last ∧ c' = KeyedCache.write (consult c key).2 key t := by
  cases h with
  | cached hit => simp [hit] at hc
  | compiled missed found good =>
    obtain rfl := Except.ok.inj (found.symm.trans hr)
    obtain rfl := Except.ok.inj (good.symm.trans ht)
    exact ⟨rfl, by simp, by rw [missed]⟩
  | malformed missed found bad =>
    obtain rfl := Except.ok.inj (found.symm.trans hr)
    simp [bad] at ht
  | unreadable missed failed there => simp [failed] at hr

end

end Loader

namespace Engine

variable {now : Engine TemplateCache} {c : RecencyCache Template} {mode : Mode} {name key : String}
  {earlier later : List String}

/-- A load that reaches a candidate stops at it, or passes over it too. -/
theorem load_reaches (hkeys : now.reader.candidates name = earlier ++ key :: later)
    (hearlier : ∀ j ∈ earlier, (now.loader mode name).Misses now.cache j) :
    (∃ last, (now.loader mode name).Stops now.cache (key :: later) (now.load mode name).result last
        (now.load mode name).cache ∧
      (now.load mode name).history.filter LoadEvent.isEffect = earlier.map .opened ++ last) ∨
    ((now.loader mode name).Misses now.cache key ∧ .opened key ∈ (now.load mode name).history) := by
  obtain ⟨passed, rest, c', last, hsplit, hpassed, hlast, -, heffects⟩ := now.load_course mode name
  obtain rfl : c' = now.cache := hpassed.cache_eq
  have hrest : ∀ j tail, rest = j :: tail → ¬ (now.loader mode name).Misses now.cache j := by
    rintro j tail rfl
    exact hlast.not_misses
  rcases part_eq_or_mem (hsplit.symm.trans hkeys) hearlier hrest with ⟨rfl, rfl⟩ | hmem
  · exact .inl ⟨last, hlast, heffects⟩
  · have hopened : .opened key ∈ (now.load mode name).history.filter LoadEvent.isEffect := by
      rw [heffects]
      exact List.mem_append_left _ (List.mem_map_of_mem hmem)
    exact .inr ⟨hpassed.misses key hmem, List.mem_of_mem_filter hopened⟩

/-- A candidate that is in the cache is given without a look at its source. -/
theorem load_of_get? (hc : now.cache = some c)
    (hkeys : now.reader.candidates name = earlier ++ key :: later)
    (hearlier : ∀ j ∈ earlier, (now.loader mode name).Misses now.cache j) {t : Template}
    (ht : c.get? key = some t) :
    (now.load mode name).result = .ok t ∧ .opened key ∉ (now.load mode name).history := by
  have hit : (consult now.cache key).1 = some t := by rw [hc, consult_recency, ht]
  rcases load_reaches hkeys hearlier with ⟨last, hlast, heffects⟩ | ⟨⟨hmiss, -⟩, -⟩
  · obtain ⟨hresult, rfl⟩ := hlast.of_cached hit
    refine ⟨hresult, fun hopened => ?_⟩
    have hmem : .opened key ∈ (now.load mode name).history.filter LoadEvent.isEffect :=
      List.mem_filter.2 ⟨hopened, rfl⟩
    rw [heffects, List.append_nil] at hmem
    obtain ⟨j, hj, hjk⟩ := List.mem_map.1 hmem
    obtain rfl : j = key := LoadEvent.opened.inj hjk
    have hnone := (hearlier j hj).1
    simp [hit] at hnone
  · simp [hit] at hmiss

/-- Of another the source is read; what it compiles to is returned and stored. -/
theorem load_of_get?_eq_none (hc : now.cache = some c)
    (hkeys : now.reader.candidates name = earlier ++ key :: later)
    (hearlier : ∀ j ∈ earlier, (now.loader mode name).Misses now.cache j)
    (hnone : c.get? key = none) :
    .opened key ∈ (now.load mode name).history ∧
      ∀ source t, (now.loader mode name).read key = .ok source →
        Template.compile now.tags key source = .ok t →
        (now.load mode name).result = .ok t ∧ .stored key t ∈ (now.load mode name).history ∧
          (now.load mode name).cache = some (c.write key t) := by
  have hconsult : consult now.cache key = (none, some c) := by
    rw [hc, consult_recency, hnone, RecencyCache.read_of_get?_eq_none hnone]
  rcases load_reaches hkeys hearlier with ⟨last, hlast, heffects⟩ | ⟨⟨-, n, hmissing⟩, hopened⟩
  · have hmem : ∀ ev ∈ last, ev ∈ (now.load mode name).history := by
      intro ev hev
      have h : ev ∈ earlier.map .opened ++ last := List.mem_append_right _ hev
      rw [← heffects] at h
      exact List.mem_of_mem_filter h
    refine ⟨hmem _ (hlast.opened (by rw [hconsult])), fun source t hr ht => ?_⟩
    obtain ⟨hresult, hstored, hcache⟩ := hlast.of_compiled (by rw [hconsult]) hr ht
    rw [hconsult] at hcache
    exact ⟨hresult, hmem _ hstored, hcache⟩
  · refine ⟨hopened, fun source t hr => ?_⟩
    simp [hmissing] at hr

/-- The templates that calls have returned, newest first. -/
def returned {κ : Type} [KeyedCache κ Template] (e : Engine κ) (calls : List LoadCall) :
    List Template :=
  templatesOf (serve loadCall e calls).1.reverse

/-- The engine after calls, with the sources as they are for the next one. -/
def before {κ : Type} [KeyedCache κ Template] (e : Engine κ) (calls : List LoadCall)
    (next : LoadCall) : Engine κ :=
  { (serve loadCall e calls).2 with reader := next.reader }

/-- **Templates used again.** Take an engine that keeps templates, after any calls with any changes of
the sources between them. Let a call reach the candidate `key`: the earlier ones are not in the cache,
and their sources are missing. Let `t₀` be the template of that key that was returned last. The call
returns `t₀` without a look at the source of `key` iff fewer other keys than there is room for were
returned since; else it reads that source as it is now, and returns and stores what it compiles to. -/
theorem load_reuses {e : Engine TemplateCache} {p : CachePolicy} (hp : p.capacity ≠ some 0)
    (he : e.cache = p.build) (calls : List LoadCall) (call : LoadCall)
    {earlier later : List String} {key : String} {t₀ : Template}
    (hkeys : call.reader.candidates call.name = earlier ++ key :: later)
    (hearlier : ∀ j ∈ earlier, (KeyedCache.has (e.before calls call).cache j).1 = false ∧
      ∃ name, ((e.before calls call).loader call.mode call.name).read j =
        .error (.sourceNotFound name))
    (hlast : (e.returned calls).find? (·.name = some key) = some t₀) :
    let now := e.before calls call
    let r := now.load call.mode call.name
    let others := othersSince key ((e.returned calls).filterMap (·.name))
    (r.result = .ok t₀ ∧ .opened key ∉ r.history ↔ (others.card : ℕ∞) < room p.capacity) ∧
    (¬ (others.card : ℕ∞) < room p.capacity → .opened key ∈ r.history ∧
      ∀ source t, (now.loader call.mode call.name).read key = .ok source →
        Template.compile e.tags key source = .ok t →
        r.result = .ok t ∧ .stored key t ∈ r.history ∧
          (KeyedCache.read r.cache key).1 = some t) := by
  intro now r others
  obtain ⟨htags, c, hcache, hholds⟩ := serve_recalls hp he calls
  have hc : now.cache = some c := hcache
  have hmisses : ∀ j ∈ earlier, (now.loader call.mode call.name).Misses now.cache j :=
    fun j hj => ⟨consult_of_has (hearlier j hj).1, (hearlier j hj).2⟩
  have hget : ∀ t, c.get? key = some t ↔ t₀ = t ∧ (others.card : ℕ∞) < room p.capacity := by
    intro t
    rw [hholds.get?_eq_some_iff, lookup_entriesOf, keys_entriesOf]
    exact and_congr_left' (by rw [← returned, hlast, Option.some.injEq])
  have hkept : (others.card : ℕ∞) < room p.capacity →
      r.result = .ok t₀ ∧ .opened key ∉ r.history :=
    fun h => load_of_get? hc hkeys hmisses ((hget t₀).2 ⟨rfl, h⟩)
  have hread : ¬ (others.card : ℕ∞) < room p.capacity → _ := fun h =>
    load_of_get?_eq_none hc hkeys hmisses
      (Option.eq_none_iff_forall_ne_some.2 fun t ht => h ((hget t).1 ht).2)
  refine ⟨⟨fun ⟨_, hclosed⟩ => ?_, hkept⟩, fun h => ⟨(hread h).1, fun source t hr ht => ?_⟩⟩
  · by_contra h
    exact hclosed (hread h).1
  · rw [← htags] at ht
    obtain ⟨hresult, hstored, hcache⟩ := (hread h).2 source t hr ht
    refine ⟨hresult, hstored, ?_⟩
    have hroom : c.capacity ≠ some 0 := by rwa [hholds.capacity]
    rw [hcache]
    exact ((c.write key t).fst_read key).trans (c.get?_write_self key t hroom)

/-- There is room for one template only, and another was returned since. -/
theorem load_reuses_evicted :
    let holding (text : String) : SourceReader :=
      { candidates := fun name => ["a/" ++ name, "b/" ++ name]
        read := fun key =>
          if key = "b/x" ∨ key = "b/y" then .ok text else .error (.sourceNotFound key) }
    let e : Engine TemplateCache := .new (holding "") { cache := .bounded 1 }
    let calls : List LoadCall := [⟨.sync, "x", holding "one"⟩, ⟨.async, "y", holding "one"⟩]
    let call : LoadCall := ⟨.async, "x", holding "two"⟩
    let r := (e.before calls call).load .async "x"
    (e.returned calls).find? (·.name = some "b/x") = some ⟨some "b/x", [.text "one"]⟩ ∧
      .opened "b/x" ∈ r.history ∧ r.result = .ok ⟨some "b/x", [.text "two"]⟩ := by
  intro holding e calls call r
  have hreturned : e.returned calls =
      [⟨some "b/y", [.text "one"]⟩, ⟨some "b/x", [.text "one"]⟩] := by cbv
  have hlast : (e.returned calls).find? (·.name = some "b/x") =
      some ⟨some "b/x", [.text "one"]⟩ := by rw [hreturned]; rfl
  have hearlier : ∀ j ∈ ["a/x"], (KeyedCache.has (e.before calls call).cache j).1 = false ∧
      ∃ name, ((e.before calls call).loader call.mode call.name).read j =
        .error (.sourceNotFound name) := by
    intro j hj
    obtain rfl := List.mem_singleton.1 hj
    exact ⟨by cbv, "a/x", by cbv⟩
  have hothers : othersSince "b/x" ((e.returned calls).filterMap (·.name)) = {"b/y"} := by
    rw [hreturned]
    decide
  have h := (load_reuses (p := .bounded 1) (by decide) rfl calls call rfl hearlier hlast).2
  have hfull : ¬ ((othersSince "b/x" ((e.returned calls).filterMap (·.name))).card : ℕ∞) <
      room (CachePolicy.bounded 1).capacity := by
    rw [hothers]
    simp [room, CachePolicy.capacity]
  have hcompile : Template.compile e.tags "b/x" "two" = .ok ⟨some "b/x", [.text "two"]⟩ := by cbv
  exact ⟨hlast, (h hfull).1, ((h hfull).2 "two" _ rfl hcompile).1⟩

end Engine

end Stencil
