import Std.Data.TreeMap

/-!
# Recency of use

Which keys were used, and in what order.  Every use stamps its key with a fresh tick; one map
leads from keys to ticks and one from ticks to keys, so that a use, a removal and the search for
the oldest key all take logarithmic time.
-/

namespace Accessibility

universe u

/-- Keys in the order of their last use. -/
structure Recency (κ : Type u) [Ord κ] where
  /-- The tick of the last use of a key. -/
  ticks : Std.TreeMap κ Nat := ∅
  /-- The key last used at a tick. -/
  order : Std.TreeMap Nat κ := ∅
  /-- The tick of the next use. -/
  nextTick : Nat := 0

namespace Recency

variable {κ : Type u} [Ord κ]

/-- Forgets a key. -/
def remove (key : κ) (recency : Recency κ) : Recency κ :=
  match recency.ticks[key]? with
  | some tick =>
      { recency with ticks := recency.ticks.erase key, order := recency.order.erase tick }
  | none => recency

/-- Makes a key the most recently used one. -/
def touch (key : κ) (recency : Recency κ) : Recency κ :=
  let order := match recency.ticks[key]? with
    | some old => recency.order.erase old
    | none => recency.order
  { ticks := recency.ticks.insert key recency.nextTick
    order := order.insert recency.nextTick key
    nextTick := recency.nextTick + 1 }

/-- Forgets the least recently used key and returns it. -/
def popOldest? (recency : Recency κ) : Option (κ × Recency κ) :=
  recency.order.minEntry?.map fun (tick, key) =>
    (key,
      { recency with ticks := recency.ticks.erase key, order := recency.order.erase tick })

/-- Forgets all keys.  Later ticks still differ from all earlier ones. -/
def clear (recency : Recency κ) : Recency κ :=
  { recency with ticks := ∅, order := ∅ }

/-- The number of keys. -/
def size (recency : Recency κ) : Nat :=
  recency.ticks.size

/-- The keys, the most recently used one first. -/
def newestFirst (recency : Recency κ) : List κ :=
  recency.order.values.reverse

end Recency

end Accessibility
