import Stencil.Cache.Policy
import Stencil.Proofs.Cache.Uses
import Stencil.Proofs.Session

/-!
# The history of a cache

Calls on a cache by recency leave a history. It tells what the cache holds: a key is there iff it was
written since the cache was cleared and fewer other keys than there is room for were touched since it
was touched itself, and to read it gives what was last written under it
(`RecencyCache.contents_of_history`).
-/

namespace Stencil

variable {α : Type}

/-- A call on a cache. -/
inductive CacheCall (α : Type) where
  | has (key : String)
  | read (key : String)
  | write (key : String) (v : α)
  | clear

/-- A call that was made, with its answer. -/
inductive CacheEvent (α : Type) where
  | asked (key : String) (present : Bool)
  | got (key : String) (found : Option α)
  | wrote (key : String) (v : α)
  | cleared

namespace CacheEvent

def isCleared : CacheEvent α → Bool
  | cleared => true
  | _ => false

/-- The entry that was used: one that was written, or read and found. -/
def use? : CacheEvent α → Option (String × α)
  | got key (some v) => some (key, v)
  | wrote key v => some (key, v)
  | _ => none

def touched? (e : CacheEvent α) : Option String := e.use?.map (·.1)

/-- What was written, if it was written under the key. -/
def written? (key : String) : CacheEvent α → Option α
  | wrote k v => if key = k then some v else none
  | _ => none

end CacheEvent

/-- The events since the cache was last cleared; histories stand newest first. -/
def sinceClear (history : List (CacheEvent α)) : List (CacheEvent α) :=
  history.takeWhile fun e => !e.isCleared

/-- What was last written under a key. -/
def lastWritten? (key : String) (history : List (CacheEvent α)) : Option α :=
  history.findSome? (·.written? key)

/-- The entries used since the cache was last cleared. -/
def usesOf (history : List (CacheEvent α)) : List (String × α) :=
  (sinceClear history).filterMap (·.use?)

theorem isSome_lastWritten?_iff (key : String) (history : List (CacheEvent α)) :
    (lastWritten? key history).isSome ↔ ∃ v, .wrote key v ∈ history := by
  rw [lastWritten?, List.findSome?_isSome_iff]
  constructor
  · rintro ⟨e, he, hw⟩
    cases e with
    | wrote k v =>
      have hk : key = k := by
        by_contra hne
        simp [CacheEvent.written?, hne] at hw
      exact ⟨v, hk ▸ he⟩
    | asked | got | cleared => cases hw
  · rintro ⟨v, hv⟩
    exact ⟨_, hv, by simp [CacheEvent.written?]⟩

theorem othersSince_usesOf {key : String} {v : α} {history : List (CacheEvent α)}
    (h : (usesOf history).lookup key = some v) :
    othersSince key ((usesOf history).map (·.1)) =
      othersSince key (history.filterMap (·.touched?)) := by
  have hmap : (usesOf history).map (·.1) = (sinceClear history).filterMap (·.touched?) :=
    List.map_filterMap ..
  have hmem : key ∈ (usesOf history).map (·.1) := by
    obtain ⟨front, back, e, -⟩ := List.lookup_eq_some_iff.1 h
    simp [e]
  have hsplit : history = sinceClear history ++ history.dropWhile fun e => !e.isCleared :=
    List.takeWhile_append_dropWhile.symm
  rw [hmap] at hmem ⊢
  conv_rhs => rw [hsplit, List.filterMap_append, othersSince, newer_append hmem]
  rfl

namespace RecencyCache

/-- One call: the event that it is and the cache that it leaves. -/
def call (c : RecencyCache α) : CacheCall α → CacheEvent α × RecencyCache α
  | .has key =>
    let (present, c) := KeyedCache.has c key
    (.asked key present, c)
  | .read key =>
    let (found, c) := KeyedCache.read c key
    (.got key found, c)
  | .write key v => (.wrote key v, KeyedCache.write c key v)
  | .clear => (.cleared, c.clear)

/-- The empty cache with a given capacity, or without any. -/
def ofCapacity : Option Nat → RecencyCache α
  | some n => bounded n
  | none => unbounded

/-- The cache holds what its history says: the latest uses, each of what was last written. -/
structure Recalls (limit : Option Nat) (history : List (CacheEvent α)) (c : RecencyCache α) :
    Prop where
  holds : c.Holds limit (usesOf history)
  written : ∀ key, (usesOf history).lookup key = lastWritten? key (sinceClear history)

namespace Recalls

variable {limit : Option Nat} {history : List (CacheEvent α)} {c : RecencyCache α}

theorem start (limit : Option Nat) : Recalls (α := α) limit [] ⟨limit, []⟩ :=
  ⟨.empty limit, fun _ => rfl⟩

theorem next (hl : limit ≠ some 0) (h : Recalls limit history c) (request : CacheCall α) :
    Recalls limit ((c.call request).1 :: history) (c.call request).2 := by
  cases request with
  | has key => exact ⟨h.holds, h.written⟩
  | read key =>
    change Recalls limit (.got key (c.read key).1 :: history) (c.read key).2
    cases hv : c.get? key with
    | none =>
      rw [read_of_get?_eq_none hv]
      exact ⟨h.holds, h.written⟩
    | some v =>
      rw [fst_read, hv]
      refine ⟨h.holds.read hl hv, fun k => ?_⟩
      -- what was found is what was last written, so that reading changes no last entry
      have hlast := ((h.holds.get?_eq_some_iff key v).1 hv).1
      change List.lookup k ((key, v) :: usesOf history) = lastWritten? k (sinceClear history)
      rw [lookup_cons_ite, ← h.written]
      split
      · next hk => rw [hk, hlast]
      · rfl
  | write key v =>
    refine ⟨h.holds.write hl key v, fun k => ?_⟩
    change List.lookup k ((key, v) :: usesOf history) =
      lastWritten? k (.wrote key v :: sinceClear history)
    rw [lookup_cons_ite, h.written, lastWritten?, lastWritten?, List.findSome?_cons]
    by_cases hk : k = key <;> simp [CacheEvent.written?, hk]
  | clear => exact ⟨h.holds.clear, fun _ => rfl⟩

theorem contains_iff (h : Recalls limit history c) (key : String) :
    c.contains key ↔ (∃ v, .wrote key v ∈ sinceClear history) ∧
      ((othersSince key (history.filterMap (·.touched?))).card : ℕ∞) < room limit := by
  rw [← isSome_lastWritten?_iff, ← h.written, contains, Option.isSome_iff_exists,
    Option.isSome_iff_exists, ← exists_and_right]
  refine exists_congr fun v => (h.holds.get?_eq_some_iff key v).trans ?_
  refine and_congr_right fun hv => ?_
  rw [othersSince_usesOf hv]

theorem get?_eq (h : Recalls limit history c) {key : String} (hk : c.contains key) :
    c.get? key = lastWritten? key history := by
  obtain ⟨v, hv⟩ := Option.isSome_iff_exists.1 hk
  have hlast := ((h.holds.get?_eq_some_iff key v).1 hv).1
  rw [h.written] at hlast
  rw [hv, lastWritten?, (List.takeWhile_prefix _).findSome?_eq_some hlast]

end Recalls

theorem recalls_run (capacity : Option Nat) (calls : List (CacheCall α)) :
    Recalls (capacity.map (max · 1)) (serve call (ofCapacity capacity) calls).1.reverse
      (serve call (ofCapacity capacity) calls).2 := by
  have hl : capacity.map (max · 1) ≠ some 0 := by
    cases capacity <;> simp
  refine serve_invariant ?_ (fun _ _ request h => h.next hl request) calls
  cases capacity <;> exact .start _

/-- **What a cache holds after any calls.** A key is there iff it was written since the cache was last
cleared, and fewer distinct other keys than there is room for were touched (written, or read and
found) since it was last touched itself. To read a key gives what was last written under it if the key
is there. To ask whether a key is there changes no answer to later calls. -/
theorem contents_of_history (capacity : Option Nat) (calls : List (CacheCall α)) :
    let history := (serve call (ofCapacity capacity) calls).1.reverse
    let c := (serve call (ofCapacity capacity) calls).2
    (∀ key, c.contains key ↔ (∃ v, .wrote key v ∈ sinceClear history) ∧
      ((othersSince key (history.filterMap (·.touched?))).card : ℕ∞) <
        room (capacity.map (max · 1))) ∧
    (∀ key, (c.read key).1 = if c.contains key then lastWritten? key history else none) ∧
    ∀ key later, (serve call (c.call (.has key)).2 later).1 = (serve call c later).1 := by
  intro history c
  have h : Recalls (capacity.map (max · 1)) history c := recalls_run capacity calls
  refine ⟨h.contains_iff, fun key => ?_, fun key later => rfl⟩
  rw [fst_read]
  split
  · next hk => exact h.get?_eq hk
  · next hk => exact Option.not_isSome_iff_eq_none.1 hk

end RecencyCache

end Stencil
