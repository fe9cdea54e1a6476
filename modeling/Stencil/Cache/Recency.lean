/-!
# Recency caches

A `RecencyCache` holds entries by key, the most recently used first. Reading or writing an entry
moves it to the front; what a bounded cache has no room for falls off the end. Asking whether a key
is there moves nothing.
-/

namespace Stencil

structure RecencyCache (α : Type) where
  /-- Room for so many entries; without a limit if there is none. -/
  capacity : Option Nat
  /-- Most recently used first. -/
  entries : List (String × α)
  deriving Repr, Inhabited

namespace RecencyCache

variable {α : Type}

/-- An empty cache for `n` entries, or for one if `n` is zero. -/
def bounded (n : Nat) : RecencyCache α := ⟨some (max n 1), []⟩

def unbounded : RecencyCache α := ⟨none, []⟩

def keys (c : RecencyCache α) : List String := c.entries.map (·.1)

def size (c : RecencyCache α) : Nat := c.entries.length

def isEmpty (c : RecencyCache α) : Bool := c.entries.isEmpty

def get? (c : RecencyCache α) (key : String) : Option α := c.entries.lookup key

def contains (c : RecencyCache α) (key : String) : Bool := (c.get? key).isSome

/-- The entries of other keys, in their order. -/
def others (c : RecencyCache α) (key : String) : List (String × α) :=
  c.entries.filter (·.1 != key)

/-- The value of a key, whose entry becomes the most recently used. -/
def read (c : RecencyCache α) (key : String) : Option α × RecencyCache α :=
  match c.get? key with
  | none => (none, c)
  | some v => (some v, { c with entries := (key, v) :: c.others key })

/-- Stores a value as the most recently used; the least recently used entry gives way if there is no
room. -/
def write (c : RecencyCache α) (key : String) (v : α) : RecencyCache α :=
  let entries := (key, v) :: c.others key
  { c with entries := match c.capacity with
      | none => entries
      | some n => entries.take n }

def clear (c : RecencyCache α) : RecencyCache α := { c with entries := [] }

@[simp] theorem capacity_read (c : RecencyCache α) (key : String) :
    (c.read key).2.capacity = c.capacity := by
  unfold read; split <;> rfl

@[simp] theorem capacity_write (c : RecencyCache α) (key : String) (v : α) :
    (c.write key v).capacity = c.capacity := rfl

@[simp] theorem capacity_clear (c : RecencyCache α) : c.clear.capacity = c.capacity := rfl

@[simp] theorem fst_read (c : RecencyCache α) (key : String) : (c.read key).1 = c.get? key := by
  unfold read; split <;> simp_all

theorem read_of_get?_eq_none {c : RecencyCache α} {key : String} (h : c.get? key = none) :
    c.read key = (none, c) := by simp [read, h]

theorem read_of_get?_eq_some {c : RecencyCache α} {key : String} {v : α} (h : c.get? key = some v) :
    c.read key = (some v, { c with entries := (key, v) :: c.others key }) := by simp [read, h]

/-- A value just written is there, given room for at least one. -/
theorem get?_write_self (c : RecencyCache α) (key : String) (v : α) (h : c.capacity ≠ some 0) :
    (c.write key v).get? key = some v := by
  unfold write get?
  split
  · simp
  · next n hn =>
    obtain ⟨m, rfl⟩ : ∃ m, n = m + 1 := ⟨n - 1, by cases n <;> simp_all⟩
    simp

theorem size_write_le {c : RecencyCache α} {n : Nat} (h : c.capacity = some n) (key : String)
    (v : α) : (c.write key v).size ≤ n := by
  simp only [write, size, h]
  exact List.length_take_le n _

end RecencyCache

end Stencil
