import Accessibility.Menu.Cache
import Accessibility.Proofs.Time

/-!
# How long stored menus count

What is stored in a cache is found until its lifetime is over.  If the lifetime does not lead beyond
the latest instant, then a longer one, or the same from a later instant on, lets the menus count at
least as long.  A lifetime that does is cut down to a half or less, and menus with a shorter one can
outlive those with it.
-/

namespace Accessibility.MenuCache

/-- A look-up finds no entry, uses a valid one or drops an expired one. -/
theorem get_cases (key : String) (now : Instant) (cache : MenuCache) :
    (cache.entries[key]? = none ∧
        cache.get key now = (none, { cache with misses := cache.misses + 1 })) ∨
      ∃ hierarchy, cache.entries[key]? = some hierarchy ∧
        (hierarchy.isValidAt now = true ∧
            cache.get key now =
              (some hierarchy,
                { cache with hits := cache.hits + 1, recency := cache.recency.touch key }) ∨
          hierarchy.isValidAt now = false ∧
            cache.get key now =
              (none,
                { cache.drop key with
                  misses := cache.misses + 1, expired := cache.expired + 1 })) := by
  unfold get
  cases found : cache.entries[key]? with
  | none => exact Or.inl ⟨rfl, rfl⟩
  | some hierarchy =>
      right
      refine ⟨hierarchy, rfl, ?_⟩
      cases valid : hierarchy.isValidAt now with
      | true => exact Or.inl ⟨rfl, by simp only [valid, if_true]⟩
      | false => exact Or.inr ⟨rfl, by simp only [valid, Bool.false_eq_true, if_false]⟩

/-- The valid entries are found. -/
theorem get_eq_filter (key : String) (now : Instant) (cache : MenuCache) :
    (cache.get key now).1 =
      cache.entries[key]?.filter fun hierarchy => hierarchy.isValidAt now := by
  rcases cache.get_cases key now with
    ⟨absent, answer⟩ | ⟨hierarchy, found, ⟨valid, answer⟩ | ⟨expired, answer⟩⟩
  · rw [answer, absent, Option.filter_none]
  · rw [answer, found, Option.filter_some, if_pos valid]
  · rw [answer, found, Option.filter_some, expired, if_neg Bool.false_ne_true]

/-- What has been stored is found as long as it counts. -/
theorem get_put (key : String) (hierarchy : MenuHierarchy) (stored now : Instant)
    (cache : MenuCache) :
    ((cache.put key hierarchy stored).get key now).1 =
      if now < Instant.after stored cache.lifetime then
        some (hierarchy.withExpiry (Instant.after stored cache.lifetime))
      else
        none := by
  rw [get_eq_filter, put, Std.TreeMap.getElem?_insert_self, Option.filter_some]
  by_cases counts : now < Instant.after stored cache.lifetime
  · exact (if_pos (decide_eq_true counts)).trans (if_pos counts).symm
  · exact (if_neg (mt of_decide_eq_true counts)).trans (if_neg counts).symm

/-- Menus that are stored with a later expiry are found as long as others are. -/
theorem isSome_get_put_of_le {cache other : MenuCache} {start later : Instant}
    (notBefore : Instant.after start cache.lifetime ≤ Instant.after later other.lifetime)
    {key : String} {hierarchy : MenuHierarchy} {now : Instant}
    (found : ((cache.put key hierarchy start).get key now).1.isSome = true) :
    ((other.put key hierarchy later).get key now).1.isSome = true := by
  rw [get_put] at found ⊢
  split at found
  next counts => rw [if_pos (lt_of_lt_of_le counts notBefore), Option.isSome_some]
  next => contradiction

/-- An expiry that is not too late is exact.  One that would be is brought back by as few halvings
as possible, and not before the middle of the time that is left.  Menus with a longer lifetime, or
stored later, count at least as long as others, if their own expiry is not too late or that of the
others comes before the middle of the time that is left. -/
theorem longer_lifetime_counts_on {later : Instant} (representable : later ≤ Instant.latest)
    (longer : Duration) :
    (later + (longer : Int) ≤ Instant.latest →
        Instant.after later longer = later + (longer : Int)) ∧
      (Instant.latest < later + (longer : Int) →
        later + Instant.latest ≤ 2 * Instant.after later longer ∧
        ∃ halvings : Nat,
          Instant.after later longer = later + ((longer / 2 ^ halvings : Nat) : Int) ∧
          Instant.after later longer ≤ Instant.latest ∧
          ∀ fewer < halvings, Instant.latest < later + ((longer / 2 ^ fewer : Nat) : Int)) ∧
      ∀ (start : Instant) (lifetime : Duration), start ≤ later → lifetime ≤ longer →
        later + (longer : Int) ≤ Instant.latest ∨
          2 * (start + (lifetime : Int)) ≤ later + Instant.latest →
        Instant.after start lifetime ≤ Instant.after later longer ∧
        ∀ (cache other : MenuCache) (key : String) (hierarchy : MenuHierarchy) (now : Instant),
          cache.lifetime = lifetime → other.lifetime = longer →
          ((cache.put key hierarchy start).get key now).1.isSome = true →
          ((other.put key hierarchy later).get key now).1.isSome = true := by
  refine ⟨Instant.after_of_le, ?_, ?_⟩
  · intro late
    exact ⟨Instant.midpoint_le_after representable late,
      Instant.exists_halvings representable longer⟩
  · intro start lifetime notAfter notLonger room
    have notBefore := Instant.after_le_after notAfter notLonger representable room
    refine ⟨notBefore, ?_⟩
    rintro cache other key hierarchy now rfl rfl found
    exact isSome_get_put_of_le notBefore found

theorem longer_lifetime_counts_on_of_unbounded :
    let unbounded : Duration := 18446744073709551615999999999
    let minutes := ofCapacity 50 (Duration.ofSeconds 300)
    let ages := ofCapacity 50 unbounded
    let hierarchy := MenuHierarchy.capturedAt "app" [] 0 0
    1 ≤ Instant.latest ∧ Instant.latest < 1 + (unbounded : Int) ∧
      1 + Instant.latest ≤ 2 * Instant.after 1 unbounded ∧
      Instant.after 0 300000000000 ≤ Instant.after 1 unbounded ∧
      ((minutes.put "app" hierarchy 0).get "app" 299999999999).1.isSome = true ∧
      ((ages.put "app" hierarchy 1).get "app" 299999999999).1.isSome = true := by
  intro unbounded minutes ages hierarchy
  have representable : 1 ≤ Instant.latest := by decide
  have late : Instant.latest < 1 + (unbounded : Int) := by decide
  have found : ((minutes.put "app" hierarchy 0).get "app" 299999999999).1.isSome = true := by
    rw [get_put, Instant.after_of_le (by decide)]
    rfl
  rcases longer_lifetime_counts_on representable unbounded with ⟨_, brought, others⟩
  rcases others 0 300000000000 (by decide) (by decide) (Or.inr (by decide)) with
    ⟨notBefore, counts⟩
  exact ⟨representable, late, (brought late).1, notBefore, found,
    counts minutes ages "app" hierarchy 299999999999 rfl rfl found⟩

/-- A lifetime that would lead beyond the latest instant does not lead to it, so that a shorter one,
or the same from an earlier instant on, can lead further. -/
theorem not_forall_longer_lifetime_counts_on :
    (¬∀ (start : Instant) (lifetime : Duration), start ≤ Instant.latest →
        Instant.after start lifetime = min (start + (lifetime : Int)) Instant.latest) ∧
      (¬∀ (cache other : MenuCache) (key : String) (hierarchy : MenuHierarchy)
          (start now : Instant), start ≤ now → now ≤ Instant.latest →
        cache.lifetime ≤ other.lifetime →
        ((cache.put key hierarchy start).get key now).1.isSome = true →
        ((other.put key hierarchy start).get key now).1.isSome = true) ∧
      ¬∀ (cache : MenuCache) (key : String) (hierarchy : MenuHierarchy)
          (start later now : Instant), start ≤ later → later ≤ now → now ≤ Instant.latest →
        ((cache.put key hierarchy start).get key now).1.isSome = true →
        ((cache.put key hierarchy later).get key now).1.isSome = true := by
  let hierarchy := MenuHierarchy.capturedAt "app" [] 0 0
  let ages := ofCapacity 50 (Duration.ofSeconds 9223372036854775807)
  let longer := ofCapacity 50 (Duration.ofSeconds 9223372036854775808)
  have whole : Instant.after 0 ages.lifetime = 9223372036854775807000000000 := by
    rw [Instant.after_of_le] <;> decide
  have halfLonger : Instant.after 0 longer.lifetime = 4611686018427387904000000000 := by
    rw [Instant.after_of_lt, Instant.after_of_le] <;> decide
  have halfLater : Instant.after 1000000000 ages.lifetime = 4611686018427387904500000000 := by
    rw [Instant.after_of_lt, Instant.after_of_le] <;> decide
  have found {now : Instant} (counts : now < 9223372036854775807000000000) :
      ((ages.put "app" hierarchy 0).get "app" now).1.isSome = true := by
    rw [get_put, whole, if_pos counts, Option.isSome_some]
  refine ⟨?_, ?_, ?_⟩
  · intro always
    have promised := always 0 longer.lifetime (by decide)
    rw [halfLonger] at promised
    exact absurd promised (by decide)
  · intro always
    have promised := always ages longer "app" hierarchy 0 4611686018427387904000000000 (by decide)
      (by decide) (by decide) (found (by decide))
    rw [get_put, halfLonger, if_neg (by decide)] at promised
    contradiction
  · intro always
    have promised := always ages "app" hierarchy 0 1000000000 4611686018427387904500000000
      (by decide) (by decide) (by decide) (found (by decide))
    rw [get_put, halfLater, if_neg (by decide)] at promised
    contradiction

end Accessibility.MenuCache
