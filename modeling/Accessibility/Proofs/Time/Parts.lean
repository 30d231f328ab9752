import Accessibility.Proofs.Time

/-!
# Times in two parts

A clock keeps times as whole seconds, of which 64 bits hold the count, and nanoseconds below one
second.  An addition fails if the seconds do not fit, and a delay for which it does is halved until
it succeeds.  Nothing in this loop bounds the number of its rounds; still it ends for every start
and every delay, at the instant that is reached by counting nanoseconds without parts.
-/

namespace Accessibility

/-- An instant in two parts: the seconds since the epoch, negative before it, and the nanoseconds
after them. -/
structure Timestamp where
  seconds : Int64
  nanos : Fin 1000000000

/-- A length of time in two parts. -/
structure Timespan where
  seconds : UInt64
  nanos : Fin 1000000000

/-- The nanoseconds of a length of time. -/
def Timespan.duration (delay : Timespan) : Duration :=
  1000000000 * delay.seconds.toNat + delay.nanos

/-- Half of a length of time: an odd second is handed down to the nanoseconds. -/
def Timespan.half (delay : Timespan) : Timespan where
  seconds := delay.seconds / 2
  nanos :=
    ⟨delay.nanos / 2 + (1000000000 * (delay.seconds.toNat % 2) + delay.nanos % 2) / 2, by omega⟩

namespace Timestamp

/-- The nanoseconds since the epoch. -/
def instant (time : Timestamp) : Instant :=
  1000000000 * time.seconds.toInt + time.nanos

/-- Seconds and some more, unless there are too many for 64 bits. -/
def addSeconds? (seconds : Int64) (more : Nat) : Option Int64 :=
  if seconds.toInt + more < 2 ^ 63 then some (Int64.ofInt (seconds.toInt + more)) else none

/-- The instant a delay after another one, if it can be told: the seconds are added first, and one
more if the nanoseconds make up a second. -/
def add? (start : Timestamp) (delay : Timespan) : Option Timestamp :=
  (addSeconds? start.seconds delay.seconds.toNat).bind fun seconds =>
    if whole : start.nanos.val + delay.nanos.val < 1000000000 then
      some ⟨seconds, ⟨start.nanos.val + delay.nanos.val, whole⟩⟩
    else
      (addSeconds? seconds 1).map fun seconds =>
        ⟨seconds, ⟨start.nanos.val + delay.nanos.val - 1000000000, by omega⟩⟩

/-- Whether a delay is halved so many times until the instant after the start can be told.  Each
round adds what is left of the delay, and only if this fails is there another one. -/
inductive HalvesUntil (start : Timestamp) : Timespan → Nat → Timestamp → Prop where
  | done {delay : Timespan} {expiry : Timestamp} (added : start.add? delay = some expiry) :
      HalvesUntil start delay 0 expiry
  | again {delay : Timespan} {rounds : Nat} {expiry : Timestamp}
      (failed : start.add? delay = none) (ends : HalvesUntil start delay.half rounds expiry) :
      HalvesUntil start delay (rounds + 1) expiry

variable {start expiry : Timestamp} {delay : Timespan}

/-! ## Parts and nanoseconds -/

/-- No timestamp is later than the latest instant. -/
theorem instant_le_latest (time : Timestamp) : time.instant ≤ Instant.latest := by
  have few := time.seconds.toInt_lt
  change (1000000000 * time.seconds.toInt + time.nanos : Int) ≤ 0x8000000000000000 * 1000000000 - 1
  omega

theorem addSeconds?_eq_some_iff {seconds sum : Int64} {more : Nat} :
    addSeconds? seconds more = some sum ↔ sum.toInt = seconds.toInt + more := by
  have notLess := seconds.le_toInt
  rw [addSeconds?, Option.ite_none_right_eq_some, Option.some.injEq]
  constructor
  · rintro ⟨fits, rfl⟩
    exact Int64.toInt_ofInt_of_le (by omega) fits
  · intro same
    rw [← same]
    exact ⟨sum.toInt_lt, Int64.ofInt_toInt sum⟩

theorem addSeconds?_eq_none_iff {seconds : Int64} {more : Nat} :
    addSeconds? seconds more = none ↔ 2 ^ 63 ≤ seconds.toInt + more := by
  simp [addSeconds?]

theorem duration_half (delay : Timespan) : delay.half.duration = delay.duration / 2 := by
  simp only [Timespan.duration, Timespan.half, UInt64.toNat_div]
  change 1000000000 * (delay.seconds.toNat / 2) + _ = _
  omega

/-- An addition adds the nanoseconds, or fails because the sum would be later than the latest
instant. -/
theorem add?_cases (start : Timestamp) (delay : Timespan) :
    (∃ sum, start.add? delay = some sum ∧ sum.instant = start.instant + (delay.duration : Int)) ∨
      start.add? delay = none ∧ Instant.latest < start.instant + (delay.duration : Int) := by
  rw [add?]
  simp only [instant, Timespan.duration, Instant.latest, Instant, Duration]
  cases added : addSeconds? start.seconds delay.seconds.toNat with
  | none =>
      rw [addSeconds?_eq_none_iff] at added
      exact Or.inr ⟨rfl, by omega⟩
  | some seconds =>
      rw [addSeconds?_eq_some_iff] at added
      rw [Option.bind_some]
      split
      next => exact Or.inl ⟨_, rfl, by simp only; omega⟩
      next carries =>
        cases carried : addSeconds? seconds 1 with
        | none =>
            rw [addSeconds?_eq_none_iff] at carried
            exact Or.inr ⟨rfl, by omega⟩
        | some next =>
            rw [addSeconds?_eq_some_iff] at carried
            exact Or.inl ⟨_, rfl, by simp only; omega⟩

theorem instant_of_add? (added : start.add? delay = some expiry) :
    expiry.instant = start.instant + (delay.duration : Int) := by
  rcases add?_cases start delay with ⟨sum, isSum, total⟩ | ⟨failed, _⟩
  · rw [Option.some.inj (added.symm.trans isSum), total]
  · rw [failed] at added
    contradiction

theorem late_of_add?_eq_none (failed : start.add? delay = none) :
    Instant.latest < start.instant + (delay.duration : Int) := by
  rcases add?_cases start delay with ⟨sum, isSum, _⟩ | ⟨_, late⟩
  · rw [isSum] at failed
    contradiction
  · exact late

/-! ## The loop -/

/-- A delay that takes so many bits is halved no more often than that, since nothing is left of it
then. -/
theorem exists_halvesUntil {bits : Nat} (few : delay.duration < 2 ^ bits) :
    ∃ rounds ≤ bits, ∃ expiry, HalvesUntil start delay rounds expiry := by
  induction bits generalizing delay with
  | zero =>
      cases added : start.add? delay with
      | some expiry => exact ⟨0, Nat.le_refl 0, expiry, .done added⟩
      | none =>
          have late := late_of_add?_eq_none added
          rw [Nat.lt_one_iff.mp few, Int.natCast_zero, add_zero] at late
          exact absurd start.instant_le_latest (not_le_of_gt late)
  | succ bits ih =>
      cases added : start.add? delay with
      | some expiry => exact ⟨0, Nat.zero_le _, expiry, .done added⟩
      | none =>
          have fewer : delay.half.duration < 2 ^ bits := by
            rw [Nat.pow_succ'] at few
            rw [duration_half]
            exact Nat.div_lt_of_lt_mul few
          rcases ih fewer with ⟨rounds, atMost, expiry, ends⟩
          exact ⟨rounds + 1, Nat.succ_le_succ atMost, expiry, .again added ends⟩

namespace HalvesUntil

variable {rounds : Nat}

/-- The loop ends at the instant that is reached by counting nanoseconds. -/
theorem instant_eq (ends : HalvesUntil start delay rounds expiry) :
    expiry.instant = Instant.after start.instant delay.duration := by
  induction ends with
  | done added =>
      have total := instant_of_add? added
      rw [total, Instant.after_of_le]
      rw [← total]
      exact instant_le_latest _
  | again failed _ ih => rw [ih, duration_half, Instant.after_of_lt (late_of_add?_eq_none failed)]

theorem start_le (ends : HalvesUntil start delay rounds expiry) :
    start.instant ≤ expiry.instant := by
  induction ends with
  | done added =>
      rw [instant_of_add? added]
      exact Int.le_add_of_nonneg_right (Int.natCast_nonneg _)
  | again _ _ ih => exact ih

end HalvesUntil

/-- For every start and every delay the loop ends, after 94 halvings at the most.  It ends at the
instant that is reached by counting nanoseconds, which is neither before the start nor after the
latest instant.  If the sum is not later than that, the instant is the sum; otherwise at least half
of the time up to the latest instant, rounded up, lies between the start and it. -/
theorem halving_ends (start : Timestamp) (delay : Timespan) :
    (∃ rounds ≤ 94, ∃ expiry, HalvesUntil start delay rounds expiry) ∧
      ∀ (rounds : Nat) (expiry : Timestamp), HalvesUntil start delay rounds expiry →
        expiry.instant = Instant.after start.instant delay.duration ∧
          start.instant ≤ expiry.instant ∧ expiry.instant ≤ Instant.latest ∧
          (start.instant + (delay.duration : Int) ≤ Instant.latest →
            expiry.instant = start.instant + (delay.duration : Int)) ∧
          (Instant.latest < start.instant + (delay.duration : Int) →
            start.instant + (Instant.latest - start.instant + 1) / 2 ≤ expiry.instant) := by
  constructor
  · apply exists_halvesUntil
    have fewSeconds := delay.seconds.toNat_lt
    simp only [Timespan.duration, Duration]
    omega
  · intro rounds expiry ends
    have same := ends.instant_eq
    refine ⟨same, ends.start_le, expiry.instant_le_latest, ?_, ?_⟩
    · intro fits
      rw [same, Instant.after_of_le fits]
    · intro late
      have midpoint := Instant.midpoint_le_after start.instant_le_latest late
      rw [same]
      simp only [Instant] at midpoint ⊢
      omega

theorem halving_ends_of_longest_delay :
    let beforeEpoch : Timestamp := ⟨-1, 500000000⟩
    let short : Timespan := ⟨1, 500000000⟩
    let epoch : Timestamp := ⟨0, 0⟩
    let longest : Timespan := ⟨18446744073709551615, 999999999⟩
    (beforeEpoch.instant + (short.duration : Int) ≤ Instant.latest ∧
        ∃ rounds expiry, HalvesUntil beforeEpoch short rounds expiry ∧
          expiry.instant = 1000000000) ∧
      Instant.latest < epoch.instant + (longest.duration : Int) ∧
        ∃ rounds expiry, HalvesUntil epoch longest rounds expiry ∧
          4611686018427387904000000000 ≤ expiry.instant := by
  intro beforeEpoch short epoch longest
  have fits : beforeEpoch.instant + (short.duration : Int) ≤ Instant.latest := by decide
  have late : Instant.latest < epoch.instant + (longest.duration : Int) := by decide
  have sum : beforeEpoch.instant + (short.duration : Int) = 1000000000 := by decide
  have middle : epoch.instant + (Instant.latest - epoch.instant + 1) / 2 =
      4611686018427387904000000000 := by decide
  rcases halving_ends beforeEpoch short with ⟨⟨rounds, _, expiry, ends⟩, found⟩
  rcases found rounds expiry ends with ⟨_, _, _, whole, _⟩
  rcases halving_ends epoch longest with ⟨⟨cutRounds, _, cut, cutEnds⟩, foundCut⟩
  rcases foundCut cutRounds cut cutEnds with ⟨_, _, _, _, room⟩
  rw [middle] at room
  exact ⟨⟨fits, rounds, expiry, ends, (whole fits).trans sum⟩, late, cutRounds, cut, cutEnds,
    room late⟩

end Timestamp

end Accessibility
