/-!
# Capacities

The number of entries that a bounded cache may hold.  There is always room for one.
-/

namespace Accessibility

/-- A number of entries, at least one. -/
structure Capacity where
  size : Nat
  size_pos : 0 < size
  deriving DecidableEq, Repr

/-- The capacity of a number of entries; none counts as one. -/
def Capacity.ofNat (size : Nat) : Capacity :=
  ⟨max size 1, by omega⟩

end Accessibility
