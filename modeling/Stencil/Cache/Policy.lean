import Stencil.Cache.Recency

/-!
# Caches by policy

`KeyedCache` is what an engine asks of a cache: whether a key is there, the entry of a key, and to
store one. Its answers are taken as they are, so a host may bring a cache of its own. A `CachePolicy`
names the caches of this library: none at all, or one by recency, with or without a limit.
-/

namespace Stencil

/-- Caches of type `κ` with entries of type `α`. Asking may change a cache. -/
class KeyedCache (κ : Type) (α : outParam Type) where
  has : κ → String → Bool × κ
  read : κ → String → Option α × κ
  write : κ → String → α → κ

instance {α : Type} : KeyedCache (RecencyCache α) α where
  has c key := (c.contains key, c)
  read := RecencyCache.read
  write := RecencyCache.write

/-- Without a cache no key is there, and nothing is stored. -/
instance {κ α : Type} [KeyedCache κ α] : KeyedCache (Option κ) α where
  has
    | none, _ => (false, none)
    | some c, key => ((KeyedCache.has c key).1, some (KeyedCache.has c key).2)
  read
    | none, _ => (none, none)
    | some c, key => ((KeyedCache.read c key).1, some (KeyedCache.read c key).2)
  write
    | none, _, _ => none
    | some c, key, v => some (KeyedCache.write c key v)

inductive CachePolicy where
  | disabled
  | unbounded
  | bounded (capacity : Nat)
  deriving DecidableEq, Repr, Inhabited

namespace CachePolicy

def ofBool (enabled : Bool) : CachePolicy := if enabled then .unbounded else .disabled

/-- A capacity of zero or less disables caching. -/
def ofInt (capacity : Int) : CachePolicy :=
  if 0 < capacity then .bounded capacity.toNat else .disabled

/-- The empty cache of a policy. -/
def build {α : Type} : CachePolicy → Option (RecencyCache α)
  | .disabled => none
  | .bounded 0 => none
  | .bounded n => some (.bounded n)
  | .unbounded => some .unbounded

end CachePolicy

end Stencil
