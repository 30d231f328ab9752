/-!
# Time

Instants are nanoseconds since the epoch, possibly negative, up to a latest one.  An instant
that would lie beyond it is reached with a shorter delay instead.
-/

namespace Accessibility

/-- Nanoseconds since the epoch. -/
abbrev Instant :=
  Int

/-- A length of time in nanoseconds. -/
abbrev Duration :=
  Nat

/-- The nanoseconds of a number of seconds. -/
def Duration.ofSeconds (seconds : Nat) : Duration :=
  1000000000 * seconds

/-- The latest instant: a count of seconds with 63 bits and the nanoseconds up to the next. -/
def Instant.latest : Instant :=
  0x8000000000000000 * 1000000000 - 1

/-- The instant a delay after another one.  While it would be later than the latest instant the
delay is halved. -/
def Instant.after (start : Instant) (delay : Nat) : Instant :=
  if start + (delay : Int) ≤ Instant.latest then
    start + (delay : Int)
  else if delay = 0 then
    start
  else
    Instant.after start (delay / 2)
termination_by delay
decreasing_by omega

/-- A delay that is not too long is kept whole. -/
theorem Instant.after_of_le {start : Instant} {delay : Duration}
    (fits : start + (delay : Int) ≤ Instant.latest) :
    Instant.after start delay = start + (delay : Int) := by
  rw [Instant.after, if_pos fits]

end Accessibility
