import Stencil.Proofs.Engine.Reuse
import Stencil.Proofs.Engine.Transparency

/-!
# Loads that interleave

Calls that load templates on one engine may take turns wherever one of them awaits a source. Between
the question to the cache and the answer of the source other calls may store the same key, store
others, or crowd it out; still, as long as sources stay as they are, each call gives what it gives
alone without a cache, and at every moment the cache holds what its sources compile to
(`Engine.interleave_harmless`).
-/

namespace Stencil

/-! ## What a cache may hold -/

namespace RecencyCache

variable {α : Type} {c : RecencyCache α} {key : String} {v : α} {entry : String × α}

theorem mem_entries_read (h : entry ∈ (c.read key).2.entries) : entry ∈ c.entries := by
  cases hv : c.get? key with
  | none => rwa [read_of_get?_eq_none hv] at h
  | some v =>
    rw [read_of_get?_eq_some hv] at h
    rcases List.mem_cons.1 h with rfl | h
    · exact mem_of_get? hv
    · exact List.mem_of_mem_filter h

theorem size_read_le (c : RecencyCache α) (key : String) : (c.read key).2.size ≤ c.size := by
  cases hv : c.get? key with
  | none => rw [read_of_get?_eq_none hv]
  | some v =>
    rw [read_of_get?_eq_some hv]
    exact Nat.succ_le_of_lt (length_others_lt hv)

theorem mem_entries_write (h : entry ∈ (c.write key v).entries) :
    entry = (key, v) ∨ entry ∈ c.entries := by
  have hall : entry ∈ (key, v) :: c.others key := by
    simp only [write] at h
    split at h
    · exact h
    · exact List.mem_of_mem_take h
  rcases List.mem_cons.1 hall with h | h
  · exact .inl h
  · exact .inr (List.mem_of_mem_filter h)

end RecencyCache

/-- What a cache holds, most recently used first; nothing if there is none. -/
def entriesIn : TemplateCache → List (String × Template)
  | none => []
  | some c => c.entries

/-- The cache has room within `limit`, and each of its entries is what the source of its key compiles
to. -/
structure Faithful (read : String → Except Error String) (tags : TagTable) (limit : Option Nat)
    (c : TemplateCache) : Prop where
  capacity : ∀ r, c = some r → r.capacity = limit
  fits : ∀ n, limit = some n → (entriesIn c).length ≤ n
  compiled : ∀ key t, (key, t) ∈ entriesIn c →
    ∃ source, read key = .ok source ∧ Template.compile tags key source = .ok t

namespace Faithful

variable {read : String → Except Error String} {tags : TagTable} {limit : Option Nat}
  {c c' : TemplateCache} {key : String} {t : Template}

theorem build (read : String → Except Error String) (tags : TagTable) (p : CachePolicy) :
    Faithful read tags p.capacity p.build := by
  cases p with
  | disabled => exact ⟨nofun, fun _ _ => Nat.zero_le _, nofun⟩
  | unbounded => exact ⟨fun r h => by cases h; rfl, nofun, nofun⟩
  | bounded n =>
    cases n with
    | zero => exact ⟨nofun, fun _ _ => Nat.zero_le _, nofun⟩
    | succ n =>
      refine ⟨fun r h => ?_, fun _ _ => Nat.zero_le _, nofun⟩
      cases h
      exact congrArg some (Nat.max_eq_left (by omega))

/-- A faithful cache gives what the source of a key compiles to. -/
theorem sound (h : Faithful read tags limit c) : Sound read tags c := by
  intro key t ht
  cases c with
  | none => cases ht
  | some c =>
    rw [consult_recency] at ht
    exact h.compiled key t (RecencyCache.mem_of_get? ht)

theorem consult (h : Faithful read tags limit c) (key : String) :
    Faithful read tags limit (consult c key).2 := by
  cases c with
  | none => exact h
  | some c =>
    rw [consult_recency]
    refine ⟨fun r hr => ?_, fun n hn => ?_, fun k t ht => ?_⟩
    · cases hr
      rw [RecencyCache.capacity_read]
      exact h.capacity c rfl
    · exact (c.size_read_le key).trans (h.fits n hn)
    · exact h.compiled k t (RecencyCache.mem_entries_read ht)

theorem write (h : Faithful read tags limit c) {source : String} (hr : read key = .ok source)
    (ht : Template.compile tags key source = .ok t) :
    Faithful read tags limit (KeyedCache.write c key t) := by
  cases c with
  | none => exact h
  | some c =>
    refine ⟨fun r hc => ?_, fun n hn => ?_, fun k w hw => ?_⟩
    · cases hc
      exact h.capacity c rfl
    · exact c.size_write_le ((h.capacity c rfl).trans hn) key t
    · rcases RecencyCache.mem_entries_write hw with e | hold
      · cases e
        exact ⟨source, hr, ht⟩
      · exact h.compiled k w hold

end Faithful

/-! ## One step of a load -/

theorem Load.eq_done {load : Load} (h : load.stepsLeft = 0) : ∃ result, load = .done result := by
  cases load with
  | done result => exact ⟨result, rfl⟩
  | checking keys => simp [stepsLeft] at h
  | awaiting key later => simp [stepsLeft] at h

namespace Loader

variable (l : Loader) {limit : Option Nat}

/-- The result of a load from where it has come to, if nothing is cached. -/
def outlook : Load → Except Error Template
  | .checking keys => l.resolve keys
  | .awaiting key later => l.resolve (key :: later)
  | .done result => result

/-- The source that is awaited decides as it does for a load that is alone. -/
theorem arrive_outlook {κ : Type} [KeyedCache κ Template] (key : String) (later : List String)
    (s : LoadState κ) : l.outlook (l.arrive key later s).1 = l.resolve (key :: later) := by
  cases hr : l.read key with
  | ok source =>
    cases ht : Template.compile l.tags key source with
    | ok t => rw [l.arrive_compiled hr ht, outlook, resolve, hr, ← ht]
    | error e => rw [l.arrive_malformed hr ht, outlook, resolve, hr, ← ht]
  | error e =>
    by_cases he : ∃ name, e = .sourceNotFound name
    · obtain ⟨name, rfl⟩ := he
      rw [l.arrive_missing hr, outlook, resolve, hr]
    · have hne : ∀ name, e ≠ .sourceNotFound name := fun name h => he ⟨name, h⟩
      rw [l.arrive_unreadable hr hne, outlook]
      simp only [resolve, hr]

theorem arrive_faithful {s : LoadState TemplateCache} (h : Faithful l.read l.tags limit s.cache)
    (key : String) (later : List String) :
    Faithful l.read l.tags limit (l.arrive key later s).2.cache := by
  unfold arrive store
  dsimp only
  split
  · split
    · exact h.write ‹_› ‹_›
    · exact h
  · exact h
  · exact h

/-- A step keeps the cache faithful, whichever load takes it. -/
theorem step_faithful {s : LoadState TemplateCache} (h : Faithful l.read l.tags limit s.cache)
    (load : Load) : Faithful l.read l.tags limit (l.step load s).2.cache := by
  cases load with
  | checking keys =>
    cases keys with
    | nil => exact h
    | cons key later =>
      have hconsult := h.consult key
      rcases hc : consult s.cache key with ⟨_ | t, c⟩
      · rw [l.step_missed hc]
        rwa [hc] at hconsult
      · rw [l.step_hit hc]
        rwa [hc] at hconsult
  | awaiting key later => exact l.arrive_faithful h key later
  | done result => exact h

/-- A step of a load does not change what it comes to, whatever other loads have stored. -/
theorem step_outlook {s : LoadState TemplateCache} (h : Sound l.read l.tags s.cache) (load : Load) :
    l.outlook (l.step load s).1 = l.outlook load := by
  cases load with
  | checking keys =>
    cases keys with
    | nil => rfl
    | cons key later =>
      rcases hc : consult s.cache key with ⟨_ | t, c⟩
      · rw [l.step_missed hc]
        rfl
      · obtain ⟨source, hr, ht⟩ := h key t (congrArg Prod.fst hc)
        rw [l.step_hit hc, outlook, outlook, resolve, hr]
        exact ht.symm
  | awaiting key later => exact l.arrive_outlook key later s
  | done result => rfl

end Loader

/-! ## Loads that take turns -/

/-- Loads that are under way on one engine, each with its name, and the cache that they share. -/
structure Together (κ : Type) where
  loads : List (String × Load)
  state : LoadState κ

/-- The result of the load at a place, once it has ended. -/
def Together.result? {κ : Type} (s : Together κ) (i : Nat) : Option (Except Error Template) :=
  match s.loads[i]? with
  | some (_, .done result) => some result
  | _ => none

namespace Engine

section
variable {κ : Type} (e : Engine κ)

/-- Calls that can wait and have not taken a step. -/
def callsFor (names : List String) : Together κ where
  loads := names.map fun name => (name, .checking (e.reader.candidates name))
  state := ⟨e.cache, []⟩

theorem loads_callsFor {names : List String} {i : Nat} {name : String} (h : names[i]? = some name) :
    (e.callsFor names).loads[i]? = some (name, .checking (e.reader.candidates name)) := by
  simp [callsFor, h]

variable [KeyedCache κ Template]

/-- The load at a place takes a step; the others stay where they are. -/
def advance (s : Together κ) (i : Nat) : Together κ :=
  match s.loads[i]? with
  | none => s
  | some (name, load) =>
    let (load, state) := (e.loader .async name).step load s.state
    ⟨s.loads.set i (name, load), state⟩

/-- Loads take steps by turns: a schedule says whose turn it is. A step ends where a load awaits a
source, or before, so that every order of the steps between two such points is among the schedules. -/
def interleave : List Nat → Together κ → Together κ
  | [], s => s
  | i :: schedule, s => interleave schedule (e.advance s i)

end

variable {e : Engine TemplateCache} {limit : Option Nat} {s : Together TemplateCache}

theorem advance_faithful (h : Faithful e.reader.readLater e.tags limit s.state.cache) (i : Nat) :
    Faithful e.reader.readLater e.tags limit (e.advance s i).state.cache := by
  unfold advance
  split
  · exact h
  · rename_i name load _
    exact (e.loader .async name).step_faithful h load

/-- A step of any load leaves each with the result that it comes to, and takes its own load nearer to
its end. -/
theorem advance_load (h : Faithful e.reader.readLater e.tags limit s.state.cache) (j : Nat) {i : Nat}
    {name : String} {load : Load} (hi : s.loads[i]? = some (name, load)) :
    ∃ load', (e.advance s j).loads[i]? = some (name, load') ∧
      (e.loader .async name).outlook load' = (e.loader .async name).outlook load ∧
      load'.stepsLeft ≤ load.stepsLeft - [j].count i := by
  have hlt : i < s.loads.length := (List.getElem?_eq_some_iff.1 hi).1
  by_cases hj : j = i
  · subst hj
    refine ⟨((e.loader .async name).step load s.state).1, ?_,
      (e.loader .async name).step_outlook h.sound load, ?_⟩
    · simp only [advance, hi, List.getElem?_set_self hlt]
    · simpa using (e.loader .async name).stepsLeft_step load s.state
  · refine ⟨load, ?_, rfl, by simp [hj]⟩
    unfold advance
    split
    · exact hi
    · simp only [List.getElem?_set_ne hj, hi]

/-- What a step keeps, a schedule keeps. -/
theorem interleave_faithful (schedule : List Nat)
    (h : Faithful e.reader.readLater e.tags limit s.state.cache) :
    Faithful e.reader.readLater e.tags limit (e.interleave schedule s).state.cache := by
  induction schedule generalizing s with
  | nil => exact h
  | cons i schedule ih => exact ih (advance_faithful h i)

theorem interleave_load (schedule : List Nat)
    (h : Faithful e.reader.readLater e.tags limit s.state.cache) {i : Nat} {name : String}
    {load : Load} (hi : s.loads[i]? = some (name, load)) :
    ∃ load', (e.interleave schedule s).loads[i]? = some (name, load') ∧
      (e.loader .async name).outlook load' = (e.loader .async name).outlook load ∧
      load'.stepsLeft ≤ load.stepsLeft - schedule.count i := by
  induction schedule generalizing s load with
  | nil => exact ⟨load, hi, rfl, Nat.le_refl _⟩
  | cons j schedule ih =>
    obtain ⟨load₁, hi₁, ho₁, hs₁⟩ := advance_load h j hi
    obtain ⟨load₂, hi₂, ho₂, hs₂⟩ := ih (advance_faithful h j) hi₁
    refine ⟨load₂, hi₂, ho₂.trans ho₁, ?_⟩
    have hcount : (j :: schedule).count i = [j].count i + schedule.count i := by
      rw [← List.count_append, List.singleton_append]
    omega

/-- **First compiles may interleave.** Let calls that can wait load templates on one engine of any cache
policy, in any order of their steps, with sources that stay as they are. A call that has ended gives
what it gives alone without a cache, and a call ends as soon as it has taken two steps for each
candidate and one more. At every moment each entry of the cache is what the source of its key compiles
to, named by its key, and a bounded cache holds no more entries than it may. -/
theorem interleave_harmless {κ : Type} (e : Engine κ) (p : CachePolicy) (names : List String)
    (schedule : List Nat) :
    let shared := e.withCache (p.build : TemplateCache)
    let now := shared.interleave schedule (shared.callsFor names)
    (∀ i name, names[i]? = some name →
      let alone :=
        ((e.withCache (CachePolicy.disabled.build : TemplateCache)).load .async name).result
      (∀ result, now.result? i = some result → result = alone) ∧
      (2 * (e.reader.candidates name).length + 1 ≤ schedule.count i →
        now.result? i = some alone)) ∧
    (∀ key t, (key, t) ∈ entriesIn now.state.cache → t.name = some key ∧
      ∃ source, e.reader.readLater key = .ok source ∧
        Template.compile e.tags key source = .ok t) ∧
    ∀ n, p = .bounded n → (entriesIn now.state.cache).length ≤ n := by
  intro shared now
  have hstart : Faithful e.reader.readLater e.tags p.capacity (shared.callsFor names).state.cache :=
    .build _ _ p
  have hnow : Faithful e.reader.readLater e.tags p.capacity now.state.cache :=
    interleave_faithful (e := shared) schedule hstart
  refine ⟨fun i name hname => ?_, fun key t ht => ?_, fun n hp => ?_⟩
  · have halone := (load_of_sound (Sound.none (e.loader .async name).read e.tags)).1
    obtain ⟨load, hi, houtlook, hsteps⟩ : ∃ load, now.loads[i]? = some (name, load) ∧
        (e.loader .async name).outlook load =
          (e.loader .async name).resolve (e.reader.candidates name) ∧
        load.stepsLeft ≤ 2 * (e.reader.candidates name).length + 1 - schedule.count i :=
      interleave_load schedule hstart (shared.loads_callsFor hname)
    rw [← halone] at houtlook
    refine ⟨fun result hresult => ?_, fun hturns => ?_⟩
    · simp only [Together.result?, hi] at hresult
      split at hresult
      · rename_i h
        cases h
        cases hresult
        exact houtlook
      · cases hresult
    · obtain ⟨result, rfl⟩ := Load.eq_done (show load.stepsLeft = 0 by omega)
      rw [Together.result?, hi]
      exact congrArg some houtlook
  · obtain ⟨source, hr, hcompile⟩ := hnow.compiled key t ht
    exact ⟨Template.name_compile hcompile, source, hr, hcompile⟩
  · exact hnow.fits n (by rw [hp]; rfl)

/-- Two calls compile one key, which a third call crowds out before they have ended. -/
theorem interleave_harmless_same_key :
    let reader : SourceReader :=
      { candidates := fun name => ["a/" ++ name, "b/" ++ name]
        read := fun key => if key = "b/x" ∨ key = "b/y" then .ok key else .error (.sourceNotFound key) }
    let shared := (Engine.new reader {}).withCache ((CachePolicy.bounded 1).build : TemplateCache)
    let schedule := [0, 1, 0, 1, 0, 1, 2, 2, 2, 0, 2, 2, 1, 0, 1]
    let now := shared.interleave schedule (shared.callsFor ["x", "x", "y"])
    now.result? 0 = some (.ok ⟨some "b/x", [.text "b/x"]⟩) ∧
      now.result? 1 = some (.ok ⟨some "b/x", [.text "b/x"]⟩) ∧
      (entriesIn now.state.cache).length ≤ 1 := by
  intro reader shared schedule now
  have h := interleave_harmless (Engine.new reader {}) (.bounded 1) ["x", "x", "y"] schedule
  have halone : (((Engine.new reader {}).withCache
      (CachePolicy.disabled.build : TemplateCache)).load .async "x").result =
      .ok ⟨some "b/x", [.text "b/x"]⟩ := by cbv
  have h0 := (h.1 0 "x" rfl).2 (by decide)
  have h1 := (h.1 1 "x" rfl).2 (by decide)
  refine ⟨h0.trans (congrArg some halone), h1.trans (congrArg some halone), ?_⟩
  simpa only [now, shared, schedule, reader] using h.2.2 1 rfl

end Engine

end Stencil
