import Accessibility.Time
import Mathlib.Algebra.GroupWithZero.Nat
import Mathlib.Algebra.Order.Group.Int

/-!
# Delays that would be too long

A delay that leads beyond the latest instant is halved until it does not.  What is left of it is at
least half of the time there is, and no more than that time; but a longer delay can be cut off
further than a shorter one.
-/

namespace Accessibility.Instant

variable {start later : Int} {delay longer : Nat}

/-- Before the latest instant, every delay but none at all leads to a later instant. -/
theorem lt_after_iff {start : Instant} (early : start < latest)
    {delay : Nat} : start < after start delay ↔ 0 < delay := by
  fun_induction after start delay with
  | case1 => rw [lt_add_iff_pos_right, Int.natCast_pos]
  | case2 => simp
  | case3 delay late some ih =>
      -- A delay of one nanosecond would not be late, so that half the delay is a delay.
      have notOne : delay ≠ 1 := by
        rintro rfl
        exact late (Int.add_one_le_of_lt early)
      rw [ih]
      omega

theorem after_of_lt (late : latest < start + (delay : Int)) :
    after start delay = after start (delay / 2) := by
  rw [after, if_neg (not_le_of_gt late)]
  split
  next none => rw [none, Nat.zero_div, after, if_neg (none ▸ not_le_of_gt late), if_pos rfl]
  next => rfl

/-- A delay is halved as often as it takes for the instant not to be too late. -/
theorem exists_halvings (representable : start ≤ latest) (delay : Nat) :
    ∃ halvings : Nat, after start delay = start + ((delay / 2 ^ halvings : Nat) : Int) ∧
      after start delay ≤ latest ∧
      ∀ fewer < halvings, latest < start + ((delay / 2 ^ fewer : Nat) : Int) := by
  fun_induction after start delay with
  | case1 delay fits => exact ⟨0, by simp, fits, nofun⟩
  | case2 late => exact absurd representable (by simpa using late)
  | case3 delay late _ ih =>
      rcases ih with ⟨halvings, same, fits, lateBefore⟩
      have halved (count : Nat) : delay / 2 / 2 ^ count = delay / 2 ^ (count + 1) := by
        rw [Nat.div_div_eq_div_mul, Nat.pow_succ']
      refine ⟨halvings + 1, by rw [same, halved], fits, ?_⟩
      intro fewer isFewer
      cases fewer with
      | zero => simpa using late
      | succ fewer =>
          rw [← halved]
          exact lateBefore fewer (Nat.lt_of_succ_lt_succ isFewer)

/-- What is left of a delay that is too long is at least half of the time up to the latest
instant. -/
theorem midpoint_le_after (representable : start ≤ latest) (late : latest < start + delay) :
    start + latest ≤ 2 * after start delay := by
  rcases exists_halvings representable delay with ⟨halvings, same, fits, lateBefore⟩
  cases halvings with
  | zero =>
      rw [same, Nat.pow_zero, Nat.div_one] at fits
      exact absurd fits (not_le_of_gt late)
  | succ halvings =>
      have lateLast : start + ((delay / 2 ^ halvings : Nat) : Int) > latest :=
        lateBefore halvings (Nat.lt_succ_self halvings)
      rw [Nat.pow_succ, ← Nat.div_div_eq_div_mul] at same
      rw [same]
      generalize delay / 2 ^ halvings = part at lateLast ⊢
      change (start + latest : Int) ≤ _
      omega

/-- A longer delay from a later instant leads no less far, unless it is cut off and the shorter one
leads beyond the middle of the time that is left. -/
theorem after_le_after (notAfter : start ≤ later) (notLonger : delay ≤ longer)
    (representable : later ≤ latest)
    (room : later + longer ≤ latest ∨ 2 * (start + delay) ≤ later + latest) :
    after start delay ≤ after later longer := by
  have fits : start + (delay : Int) ≤ latest := by omega
  rw [after_of_le fits]
  by_cases fitsToo : later + (longer : Int) ≤ latest
  · rw [after_of_le fitsToo]
    exact Int.add_le_add notAfter (Int.ofNat_le.mpr notLonger)
  · have midpoint : (later + latest : Int) ≤ 2 * after later longer :=
      midpoint_le_after representable (lt_of_not_ge fitsToo)
    change (start + delay : Int) ≤ _
    omega

end Accessibility.Instant
