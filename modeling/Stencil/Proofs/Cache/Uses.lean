import Mathlib.Data.ENat.Basic
import Mathlib.Data.Finset.Card
import Stencil.Association
import Stencil.Cache.Recency

/-!
# Caches and their uses

The uses of a cache are the entries that were written, or read and found, newest first. What a cache
by recency holds can be told from its uses alone: the latest use of each key, as far as there is room
(`RecencyCache.Holds`). Hence a key is there iff fewer other keys than there is room for were used
since its own last use (`RecencyCache.Holds.get?_eq_some_iff`).
-/

namespace Stencil

variable {α : Type}

/-! ## Latest uses -/

/-- The keys used since `key` was, one for each use. -/
def newer (key : String) (keys : List String) : List String := keys.takeWhile (· != key)

/-- The distinct keys used since `key` was; `keys` are the keys used, newest first. -/
def othersSince (key : String) (keys : List String) : Finset String := (newer key keys).toFinset

/-- The latest use of each key, newest first. -/
def latest : List (String × α) → List (String × α)
  | [] => []
  | use :: earlier => use :: (latest earlier).filter (·.1 != use.1)

theorem newer_cons (key k : String) (keys : List String) :
    newer key (k :: keys) = if k = key then [] else k :: newer key keys := by
  rw [newer, List.takeWhile_cons]
  by_cases h : k = key <;> simp [h, newer]

/-- To leave out another key leaves the newer ones in their order. -/
theorem newer_filter {key other : String} (h : other ≠ key) (keys : List String) :
    newer key (keys.filter (· != other)) = (newer key keys).filter (· != other) := by
  rw [newer, List.takeWhile_filter, newer]
  congr 2
  funext k
  by_cases hk : k = other <;> simp [hk, h]

/-- Uses that are older than one of the key do not matter. -/
theorem newer_append {key : String} {keys : List String} (h : key ∈ keys) (older : List String) :
    newer key (keys ++ older) = newer key keys := by
  induction keys with
  | nil => cases h
  | cons k rest ih =>
    rw [List.cons_append, newer_cons, newer_cons]
    split
    · rfl
    · next hk =>
      have hrest : key ∈ rest := (List.mem_cons.1 h).resolve_left (Ne.symm hk)
      rw [ih hrest]

theorem keys_filter (key : String) (entries : List (String × α)) :
    (entries.filter (·.1 != key)).map (·.1) = (entries.map (·.1)).filter (· != key) := by
  rw [List.filter_map]
  rfl

theorem lookup_latest (key : String) (uses : List (String × α)) :
    (latest uses).lookup key = uses.lookup key := by
  induction uses with
  | nil => rfl
  | cons use earlier ih =>
    rw [latest, lookup_cons_ite, lookup_cons_ite, lookup_filter_ne, ih]
    split <;> simp_all

theorem nodup_latest (uses : List (String × α)) : ((latest uses).map (·.1)).Nodup := by
  induction uses with
  | nil => exact List.nodup_nil
  | cons use earlier ih =>
    rw [latest, List.map_cons, keys_filter, List.nodup_cons]
    exact ⟨by simp, ih.filter _⟩

/-- The keys used since a key was are those whose latest use is newer. -/
theorem othersSince_latest (key : String) (uses : List (String × α)) :
    othersSince key ((latest uses).map (·.1)) = othersSince key (uses.map (·.1)) := by
  induction uses with
  | nil => rfl
  | cons use earlier ih =>
    unfold othersSince at ih ⊢
    rw [latest, List.map_cons, List.map_cons, keys_filter, newer_cons, newer_cons]
    split
    · rfl
    · next h =>
      rw [newer_filter h, List.toFinset_cons, List.toFinset_cons, List.toFinset_filter, ih]
      ext k
      by_cases hk : k = use.1 <;> simp [hk]

/-! ## Room -/

/-- As many entries as there is room for. -/
def fitting (limit : Option Nat) (entries : List (String × α)) : List (String × α) :=
  match limit with
  | none => entries
  | some n => entries.take n

/-- The number of entries within a limit. -/
def room : Option Nat → ℕ∞
  | none => ⊤
  | some n => n

/-- An entry is among the first `n` iff it is there and fewer than `n` keys stand before its own. -/
theorem lookup_take_eq_some_iff (key : String) (v : α) (n : Nat) (entries : List (String × α)) :
    (entries.take n).lookup key = some v ↔
      entries.lookup key = some v ∧ (newer key (entries.map (·.1))).length < n := by
  induction entries generalizing n with
  | nil => simp
  | cons entry rest ih =>
    obtain ⟨k, w⟩ := entry
    cases n with
    | zero => simp
    | succ n =>
      rw [List.take_succ_cons, lookup_cons_ite, lookup_cons_ite, List.map_cons, newer_cons]
      by_cases h : key = k
      · simp [h]
      · rw [if_neg h, if_neg h, if_neg (Ne.symm h), ih, List.length_cons, Nat.add_lt_add_iff_right]

/-- The latest use of a key is among those that fit iff fewer other keys than fit were used since. -/
theorem lookup_fitting_latest (limit : Option Nat) (key : String) (v : α)
    (uses : List (String × α)) :
    (fitting limit (latest uses)).lookup key = some v ↔
      uses.lookup key = some v ∧ ((othersSince key (uses.map (·.1))).card : ℕ∞) < room limit := by
  cases limit with
  | none => simp [fitting, room, lookup_latest]
  | some n =>
    have hnodup : (newer key ((latest uses).map (·.1))).Nodup :=
      (nodup_latest uses).sublist (List.takeWhile_sublist _)
    have hcard : (othersSince key (uses.map (·.1))).card =
        (newer key ((latest uses).map (·.1))).length := by
      rw [← othersSince_latest, othersSince, List.toFinset_card_of_nodup hnodup]
    rw [fitting, lookup_take_eq_some_iff, lookup_latest, hcard, room, Nat.cast_lt]

/-- What is left of the first `n + 1` entries without a key's has the first `n` of the others. -/
theorem take_filter_take {key : String} (n : Nat) {entries : List (String × α)}
    (h : (entries.map (·.1)).Nodup) :
    ((entries.take (n + 1)).filter (·.1 != key)).take n = (entries.filter (·.1 != key)).take n := by
  induction entries generalizing n with
  | nil => rfl
  | cons entry rest ih =>
    rw [List.map_cons, List.nodup_cons] at h
    by_cases hk : entry.1 = key
    · -- no other entry has the key, so that both sides are the first `n` entries of `rest`
      have hall : ∀ e ∈ rest, (e.1 != key) = true := by
        intro e he
        have hne : e.1 ≠ key := fun e' => h.1 (hk ▸ e' ▸ List.mem_map_of_mem he)
        simpa using hne
      have htake : ∀ e ∈ rest.take n, (e.1 != key) = true :=
        fun e he => hall e (List.mem_of_mem_take he)
      simp [hk, List.filter_eq_self.2 hall, List.filter_eq_self.2 htake]
    · cases n with
      | zero => simp
      | succ n => simp [hk, ih n h.2]

/-- A use makes room for itself at the cost of the oldest entry. -/
theorem fitting_latest_cons {limit : Option Nat} (hl : limit ≠ some 0) (use : String × α)
    (earlier : List (String × α)) :
    fitting limit (use :: (fitting limit (latest earlier)).filter (·.1 != use.1)) =
      fitting limit (latest (use :: earlier)) := by
  cases limit with
  | none => rfl
  | some n =>
    cases n with
    | zero => exact absurd rfl hl
    | succ n =>
      simp only [fitting, latest, List.take_succ_cons]
      rw [take_filter_take n (nodup_latest earlier)]

/-! ## What a cache holds -/

namespace RecencyCache

theorem mem_of_get? {c : RecencyCache α} {key : String} {v : α} (h : c.get? key = some v) :
    (key, v) ∈ c.entries := by
  obtain ⟨front, back, he, -⟩ := List.lookup_eq_some_iff.1 h
  rw [he]
  simp

theorem length_others_lt {c : RecencyCache α} {key : String} {v : α} (h : c.get? key = some v) :
    (c.others key).length < c.entries.length :=
  List.length_filter_lt_length_iff_exists.2 ⟨(key, v), mem_of_get? h, by simp⟩

/-- To read an entry changes no entry. -/
theorem get?_read (c : RecencyCache α) (key k : String) : (c.read key).2.get? k = c.get? k := by
  cases hv : c.get? key with
  | none => rw [read_of_get?_eq_none hv]
  | some v =>
    rw [read_of_get?_eq_some hv]
    change List.lookup k ((key, v) :: c.others key) = c.get? k
    rw [lookup_cons_ite, others, lookup_filter_ne]
    split
    · next h => rw [h, hv]
    · rfl

/-- After a write there are the new entry and entries that were there before. -/
theorem get?_write {c : RecencyCache α} {key k : String} {v w : α}
    (h : (c.write key v).get? k = some w) : (k = key ∧ v = w) ∨ c.get? k = some w := by
  have hall : List.lookup k ((key, v) :: c.others key) = some w := by
    simp only [get?, write] at h
    split at h
    · exact h
    · exact ((lookup_take_eq_some_iff k w _ _).1 h).1
  rw [lookup_cons_ite, others, lookup_filter_ne] at hall
  split at hall
  · next hk => exact .inl ⟨hk, Option.some.inj hall⟩
  · exact .inr hall

/-- The cache has room within `limit` and holds the latest of these uses that fit. -/
structure Holds (c : RecencyCache α) (limit : Option Nat) (uses : List (String × α)) : Prop where
  capacity : c.capacity = limit
  entries : c.entries = fitting limit (latest uses)

namespace Holds

variable {c : RecencyCache α} {limit : Option Nat} {uses : List (String × α)} {key : String} {v : α}

theorem empty (limit : Option Nat) : Holds (α := α) ⟨limit, []⟩ limit [] := by
  refine ⟨rfl, ?_⟩
  cases limit <;> simp [fitting, latest]

theorem clear (h : c.Holds limit uses) : c.clear.Holds limit [] := by
  have h' := empty (α := α) limit
  rw [RecencyCache.clear, h.capacity]
  exact h'

/-- **What a cache holds.** An entry is the last use of its key, since which fewer other keys were
used than there is room for. -/
theorem get?_eq_some_iff (h : c.Holds limit uses) (key : String) (v : α) :
    c.get? key = some v ↔
      uses.lookup key = some v ∧ ((othersSince key (uses.map (·.1))).card : ℕ∞) < room limit := by
  rw [get?, h.entries, lookup_fitting_latest]

theorem write (h : c.Holds limit uses) (hl : limit ≠ some 0) (key : String) (v : α) :
    (c.write key v).Holds limit ((key, v) :: uses) := by
  refine ⟨h.capacity, ?_⟩
  rw [← fitting_latest_cons hl, ← h.entries]
  simp only [RecencyCache.write, h.capacity]
  rfl

/-- To read an entry is to write it once more: there is room for it already. -/
theorem read_eq_write (h : c.Holds limit uses) (hv : c.get? key = some v) :
    (c.read key).2 = c.write key v := by
  have hothers := length_others_lt hv
  simp only [read_of_get?_eq_some hv, RecencyCache.write]
  congr 1
  cases hc : c.capacity with
  | none => rfl
  | some n =>
    have hfits : c.entries.length ≤ n := by
      rw [h.entries, ← h.capacity, hc, fitting]
      exact List.length_take_le n _
    exact (List.take_of_length_le (by simpa using hothers.trans_le hfits)).symm

theorem read (h : c.Holds limit uses) (hl : limit ≠ some 0) (hv : c.get? key = some v) :
    (c.read key).2.Holds limit ((key, v) :: uses) := by
  rw [h.read_eq_write hv]
  exact h.write hl key v

end Holds

end RecencyCache

end Stencil
