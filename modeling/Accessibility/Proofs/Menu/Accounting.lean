import Accessibility.Proofs.Menu.History
import Mathlib.Data.List.DropRight
import Mathlib.Algebra.GroupWithZero.Nat

/-!
# The statistics of a cache of menus

The counters of a cache of menus are explained by the operations of a run.  Hits and misses are the
look-ups since all entries were last dropped at once, and every entry that was ever added is still
there or was counted once when it went: evicted, expired, or dropped on demand.
-/

namespace Accessibility

/-- An operation of a run and the cache that it finds. -/
structure MenuEvent where
  before : MenuCache
  operation : MenuOperation

namespace MenuEvent

/-- What the operation answers. -/
def answer (event : MenuEvent) : MenuAnswer :=
  (event.before.perform event.operation).1

/-- The cache that the operation leaves. -/
def after (event : MenuEvent) : MenuCache :=
  (event.before.perform event.operation).2

/-- Whether the operation drops all entries at once. -/
def isReset (event : MenuEvent) : Bool :=
  match event.operation with
  | .invalidateAll => true
  | _ => false

/-- Whether a look-up has found something. -/
def isHit (event : MenuEvent) : Bool :=
  match event.answer with
  | .found (some _) => true
  | _ => false

/-- Whether a look-up has found nothing. -/
def isMiss (event : MenuEvent) : Bool :=
  match event.answer with
  | .found none => true
  | _ => false

/-- Whether the operation looks at the expiry of entries, and at what time. -/
def ChecksAt (now : Instant) (event : MenuEvent) : Prop :=
  event.operation = .cleanup now ∨ ∃ key, event.operation = .get key now

/-- The keys that are gone after the operation. -/
def removed (event : MenuEvent) : List String :=
  event.before.keysByRecency.filter (· ∉ event.after.keysByRecency)

/-- The number of entries added under a key that had none. -/
def inserted (event : MenuEvent) : Nat :=
  match event.operation with
  | .put key _ _ => if key ∈ event.before.entries then 0 else 1
  | _ => 0

/-- The number of evicted entries: one if a new key finds the cache full. -/
def evicted (event : MenuEvent) : Nat :=
  match event.operation with
  | .put key _ _ =>
      if key ∈ event.before.entries ∨ event.before.size < event.before.capacity.size then 0 else 1
  | _ => 0

/-- The number of expired entries: those that a sweep counts, and the one that a look-up meets but
does not answer with. -/
def expired (event : MenuEvent) : Nat :=
  match event.operation, event.answer with
  | .get key _, .found none => if key ∈ event.before.entries then 1 else 0
  | .cleanup _, .swept count => count
  | _, _ => 0

/-- The number of entries dropped one by one. -/
def invalidated (event : MenuEvent) : Nat :=
  match event.answer with
  | .dropped true => 1
  | _ => 0

/-- The number of entries dropped all at once. -/
def cleared (event : MenuEvent) : Nat :=
  match event.operation with
  | .invalidateAll => event.before.size
  | _ => 0

/-- The events since all entries were last dropped at once. -/
def sinceReset (events : List MenuEvent) : List MenuEvent :=
  events.rtakeWhile fun event => !event.isReset

end MenuEvent

namespace MenuCache

/-- The operations of a run, each with the cache that it finds. -/
def events : List MenuOperation → MenuCache → List MenuEvent
  | [], _ => []
  | operation :: rest, cache => ⟨cache, operation⟩ :: events rest (cache.perform operation).2

theorem events_concat (operations : List MenuOperation) (operation : MenuOperation)
    (cache : MenuCache) :
    events (operations ++ [operation]) cache =
      events operations cache ++ [⟨(MenuOperation.run perform operations cache).2, operation⟩] := by
  induction operations generalizing cache with
  | nil => rfl
  | cons first rest ih => exact congrArg (List.cons _) (ih _)

end MenuCache

/-! ## Lists of keys -/

namespace RecentMenus

variable {menus : RecentMenus} {entries : List (String × MenuHierarchy)}

/-- What each of two lists has and the other has not makes up for their lengths. -/
theorem length_add_length_filter {one other : List String} (distinct : one.Nodup)
    (otherDistinct : other.Nodup) :
    one.length + (other.filter (· ∉ one)).length =
      other.length + (one.filter (· ∉ other)).length := by
  have common : (one.filter (· ∈ other)).Perm (other.filter (· ∈ one)) := by
    rw [List.perm_ext_iff_of_nodup (distinct.filter _) (otherDistinct.filter _)]
    intro key
    simp [and_comm]
  have inOne := List.length_eq_length_filter_add (l := one) (· ∈ other)
  have inOther := List.length_eq_length_filter_add (l := other) (· ∈ one)
  have same := common.length_eq
  simp only [← decide_not] at inOne inOther
  omega

/-- A key has one entry at the most. -/
theorem length_others_add (distinct : (entries.map Prod.fst).Nodup) (key : String) :
    (others key entries).length + (if key ∈ entries.map Prod.fst then 1 else 0) =
      entries.length := by
  have count : (entries.filter fun entry => entry.1 = key).length =
      if key ∈ entries.map Prod.fst then 1 else 0 := by
    rw [← distinct.count, List.count, List.countP_map, List.countP_eq_length_filter]
    rfl
  have split := List.length_eq_length_filter_add (l := entries) fun entry => entry.1 = key
  simp only [← decide_not] at split
  rw [others, split, count, Nat.add_comm]

/-- A new key adds an entry, for which one is evicted if the list is full. -/
theorem length_put (distinct : menus.keys.Nodup) (positive : 0 < menus.capacity) (key : String)
    (hierarchy : MenuHierarchy) (now : Instant) :
    (menus.put key hierarchy now).entries.length +
        (if key ∈ menus.keys ∨ menus.entries.length < menus.capacity then 0 else 1) =
      menus.entries.length + if key ∈ menus.keys then 0 else 1 := by
  have rest := length_others_add distinct key
  change _ + (if key ∈ menus.keys then 1 else 0) = _ at rest
  rw [put, List.length_cons, roomFor]
  by_cases known : key ∈ menus.keys
  · simp only [known, if_true, true_or] at rest ⊢
    omega
  · have absent : key ∉ menus.entries.dropLast.map Prod.fst := by
      intro listed
      exact known (((List.dropLast_sublist _).map Prod.fst).subset listed)
    simp only [known, if_false, false_or] at rest ⊢
    split
    · omega
    · rw [others_eq_self absent, List.length_dropLast]
      omega

/-- A look-up takes an entry away if it finds nothing under a key that has one. -/
theorem length_get (distinct : menus.keys.Nodup) (key : String) (now : Instant) :
    (menus.get key now).2.entries.length +
        (if (menus.get key now).1 = none ∧ key ∈ menus.keys then 1 else 0) =
      menus.entries.length := by
  have rest : _ + (if key ∈ menus.keys then 1 else 0) = _ := length_others_add distinct key
  rcases menus.get_cases key now with
    ⟨absent, got⟩ | ⟨hierarchy, listed, ⟨_, got⟩ | ⟨_, got⟩⟩
  · rw [got, if_neg fun both => absent both.2, Nat.add_zero]
  · have known : key ∈ menus.keys := List.mem_map_of_mem listed
    rw [if_pos known] at rest
    rw [got, if_neg fun both => Option.some_ne_none hierarchy both.1, Nat.add_zero,
      List.length_cons, rest]
  · have known : key ∈ menus.keys := List.mem_map_of_mem listed
    rw [if_pos known] at rest
    rw [got, if_pos ⟨rfl, known⟩, rest]

/-- A sweep counts the entries that it takes away. -/
theorem length_cleanup (now : Instant) (menus : RecentMenus) :
    (menus.cleanup now).2.entries.length + (menus.cleanup now).1 = menus.entries.length := by
  have expired : (menus.entries.countP fun entry => entry.2.expiresAt ≤ now) =
      menus.entries.countP fun entry => !decide (now < entry.2.expiresAt) := by
    apply List.countP_congr
    intro entry _
    rw [decide_eq_true_eq, Bool.not_eq_true', decide_eq_false_iff_not]
    exact Int.not_lt.symm
  rw [cleanup, expired, List.countP_eq_length_filter]
  exact (List.length_eq_length_filter_add _).symm

end RecentMenus

/-! ## Single events -/

namespace MenuEvent

variable {event : MenuEvent} {menus : RecentMenus}

section Described

variable (describes : menus.Describes event.before)
include describes

theorem answer_eq : event.answer = (menus.perform event.operation).1 :=
  (describes.perform event.operation).1

theorem describes_after : (menus.perform event.operation).2.Describes event.after :=
  (describes.perform event.operation).2

theorem mem_entries_iff {key : String} : key ∈ event.before.entries ↔ key ∈ menus.keys :=
  describes.lists.mem_iff

/-- Every entry that is added stays or is counted when it goes. -/
theorem size_after_add :
    event.after.size + (event.evicted + event.expired + event.invalidated + event.cleared) =
      event.before.size + event.inserted := by
  have after : event.after.size = (menus.perform event.operation).2.entries.length :=
    (describes_after describes).lists.size_eq
  have before : event.before.size = menus.entries.length := describes.lists.size_eq
  have answered := answer_eq describes
  have distinct : menus.keys.Nodup := describes.lists.nodup
  have capacity := describes.capacity
  simp only [evicted, expired, invalidated, cleared, inserted, mem_entries_iff describes]
  rw [after, before, answered, capacity]
  cases event.operation with
  | put key hierarchy now =>
      have positive : 0 < menus.capacity := by
        rw [← capacity]
        exact event.before.capacity.size_pos
      exact RecentMenus.length_put distinct positive key hierarchy now
  | get key now =>
      have looked := RecentMenus.length_get distinct key now
      simp only [RecentMenus.perform]
      cases found : (menus.get key now).1 with
      | none =>
          simp only [found, true_and] at looked ⊢
          omega
      | some hierarchy =>
          simp only [found, reduceCtorEq, false_and, if_false] at looked ⊢
          omega
  | cleanup now =>
      have swept := RecentMenus.length_cleanup now menus
      simp only [RecentMenus.perform]
      omega
  | invalidate key =>
      have others : _ + (if key ∈ menus.keys then 1 else 0) = _ :=
        RecentMenus.length_others_add distinct key
      simp only [RecentMenus.perform, RecentMenus.invalidate]
      by_cases known : key ∈ menus.keys
      · simp only [List.contains_eq_mem, known, if_true, decide_true] at others ⊢
        omega
      · simp only [List.contains_eq_mem, known, if_false, decide_false] at others ⊢
        omega
  | invalidateAll => simp [RecentMenus.perform, RecentMenus.invalidateAll]

/-- The only key that an operation adds is the new one that it stores under. -/
theorem length_added :
    (event.after.keysByRecency.filter (· ∉ event.before.keysByRecency)).length =
      event.inserted := by
  have after : event.after.keysByRecency = (menus.perform event.operation).2.keys :=
    (describes_after describes).lists.keys
  have before : event.before.keysByRecency = menus.keys := describes.lists.keys
  have nothingNew {keys : List String} (known : keys ⊆ menus.keys) :
      (keys.filter (· ∉ menus.keys)).length = 0 := by
    rw [List.length_eq_zero_iff, List.filter_eq_nil_iff]
    intro key listed
    simpa using known listed
  have others_subset (key : String) :
      (RecentMenus.others key menus.entries).map Prod.fst ⊆ menus.keys :=
    (List.filter_sublist.map Prod.fst).subset
  simp only [inserted, mem_entries_iff describes]
  rw [after, before]
  cases event.operation with
  | put key hierarchy now =>
      have rest : (RecentMenus.others key (menus.roomFor key)).map Prod.fst ⊆ menus.keys :=
        ((List.filter_sublist.trans (RecentMenus.sublist_roomFor key menus)).map Prod.fst).subset
      change (List.filter _ (key :: (RecentMenus.others key (menus.roomFor key)).map _)).length =
        if key ∈ menus.keys then 0 else 1
      by_cases known : key ∈ menus.keys
      · rw [if_pos known, nothingNew (List.cons_subset.mpr ⟨known, rest⟩)]
      · rw [if_neg known, List.filter_cons, if_pos (decide_eq_true known), List.length_cons,
          nothingNew rest]
  | get key now =>
      simp only [RecentMenus.perform]
      rcases menus.get_cases key now with
        ⟨_, got⟩ | ⟨found, listed, ⟨_, got⟩ | ⟨_, got⟩⟩
      · rw [got]
        exact nothingNew (List.Subset.refl menus.keys)
      · rw [got]
        exact nothingNew (List.cons_subset.mpr ⟨List.mem_map_of_mem listed, others_subset key⟩)
      · rw [got]
        exact nothingNew (others_subset key)
  | cleanup now => exact nothingNew (List.filter_sublist.map Prod.fst).subset
  | invalidate key => exact nothingNew (others_subset key)
  | invalidateAll => rfl

/-- Every key that is gone is counted once. -/
theorem length_removed :
    event.removed.length =
      event.evicted + event.expired + event.invalidated + event.cleared := by
  have before := describes.lists
  have after := (describes_after describes).lists
  have sizeBefore : event.before.size = event.before.keysByRecency.length := by
    rw [MenuCache.keysByRecency, before.keys, List.length_map]
    exact before.size_eq
  have sizeAfter : event.after.size = event.after.keysByRecency.length := by
    rw [MenuCache.keysByRecency, after.keys, List.length_map]
    exact after.size_eq
  have lengths : event.before.keysByRecency.length + _ = _ + event.removed.length :=
    RecentMenus.length_add_length_filter (Recency.nodup_newestFirst before.consistent)
      (Recency.nodup_newestFirst after.consistent)
  have balance := size_after_add describes
  have added := length_added describes
  unfold MenuCache.keysByRecency at lengths added sizeBefore sizeAfter
  omega

/-- What a look-up or a sweep takes away is expired. -/
theorem mem_staleKeys_of_mem_removed {key : String} {now : Instant}
    (gone : key ∈ event.removed) (checks : event.ChecksAt now) :
    key ∈ event.before.staleKeys now := by
  have after : event.after.keysByRecency = (menus.perform event.operation).2.keys :=
    (describes_after describes).lists.keys
  have before : event.before.keysByRecency = menus.keys := describes.lists.keys
  rw [removed, List.mem_filter, before, after, decide_eq_true_eq] at gone
  rcases List.mem_map.mp gone.1 with ⟨⟨other, hierarchy⟩, listed, same⟩
  obtain rfl : other = key := same
  have notSpared : ¬event.operation.Spares other hierarchy.expiresAt := by
    intro spares
    rcases RecentMenus.mem_entries_perform describes.lists.nodup listed spares with
      stays | ⟨_, _, _, _, stores, _⟩
    · exact gone.2 (List.mem_map_of_mem stays)
    · rcases checks with sweeps | ⟨_, looksUp⟩
      · rw [stores] at sweeps
        contradiction
      · rw [stores] at looksUp
        contradiction
  have isOver : ¬now < hierarchy.expiresAt := by
    intro counts
    apply notSpared
    rcases checks with sweeps | ⟨_, looksUp⟩
    · rw [sweeps]
      exact counts
    · rw [looksUp]
      exact fun _ => counts
  rw [MenuCache.mem_staleKeys_iff]
  exact ⟨hierarchy, (describes.lists.found _ _).mpr listed, decide_eq_false isOver⟩

/-! ## The counters -/

/-- The counters that the operation leaves, from those that it finds. -/
theorem counters_after :
    event.after.hits =
        (if event.isReset then 0 else event.before.hits + if event.isHit then 1 else 0) ∧
      event.after.misses =
        (if event.isReset then 0 else event.before.misses + if event.isMiss then 1 else 0) ∧
      event.after.expired = event.before.expired + event.expired := by
  have after := describes_after describes
  have answered := answer_eq describes
  simp only [isReset, isHit, isMiss, expired, answered, mem_entries_iff describes]
  rw [after.hits, after.misses, after.expired, describes.hits, describes.misses, describes.expired]
  cases event.operation with
  | get key now =>
      simp only [RecentMenus.perform]
      rcases menus.get_cases key now with
        ⟨absent, got⟩ | ⟨found, listed, ⟨_, got⟩ | ⟨_, got⟩⟩
      · simp [got, absent]
      · simp [got]
      · have known : key ∈ menus.keys := List.mem_map_of_mem listed
        simp [got, known]
  | put | cleanup | invalidate | invalidateAll => exact ⟨rfl, rfl, rfl⟩

end Described

/-- A reset forgets the events that were counted; any other event is counted with them. -/
theorem countP_sinceReset_concat (counts : MenuEvent → Bool) (events : List MenuEvent)
    (event : MenuEvent) :
    (sinceReset (events ++ [event])).countP counts =
      if event.isReset then 0
      else (sinceReset events).countP counts + if counts event then 1 else 0 := by
  rw [sinceReset, List.rtakeWhile_concat]
  cases event.isReset with
  | true => rfl
  | false =>
      simp only [Bool.not_false, if_true, Bool.false_eq_true, if_false, List.countP_append,
        List.countP_singleton, sinceReset]

/-- A sum over the events of a run. -/
def total (count : MenuEvent → Nat) (events : List MenuEvent) : Nat :=
  (events.map count).sum

theorem total_concat (count : MenuEvent → Nat) (events : List MenuEvent) (event : MenuEvent) :
    total count (events ++ [event]) = total count events + count event := by
  rw [total, List.map_append, List.sum_append, List.map_singleton, List.sum_singleton, total]

end MenuEvent

namespace MenuCache

open MenuEvent (sinceReset total)

theorem exists_describes_of_mem_events {menus : RecentMenus} {cache : MenuCache}
    (describes : menus.Describes cache) {operations : List MenuOperation} {event : MenuEvent}
    (occurs : event ∈ events operations cache) :
    ∃ found : RecentMenus, found.Describes event.before := by
  induction operations generalizing menus cache with
  | nil => contradiction
  | cons operation rest ih =>
      rcases List.mem_cons.mp occurs with rfl | later
      · exact ⟨menus, describes⟩
      · exact ih (describes.perform operation).2 later

/-- The counters and the size of a cache that started empty, from the events of the run. -/
structure IsAccountedFor (events : List MenuEvent) (cache : MenuCache) : Prop where
  hits : cache.hits = (sinceReset events).countP MenuEvent.isHit
  misses : cache.misses = (sinceReset events).countP MenuEvent.isMiss
  expired : cache.expired = total MenuEvent.expired events
  entries : total MenuEvent.inserted events =
    cache.size + total MenuEvent.evicted events + total MenuEvent.expired events +
      total MenuEvent.invalidated events + total MenuEvent.cleared events

/-- An operation is accounted for with those before. -/
theorem IsAccountedFor.perform {events : List MenuEvent} {cache : MenuCache}
    {menus : RecentMenus} (accounted : IsAccountedFor events cache)
    (describes : menus.Describes cache) (operation : MenuOperation) :
    IsAccountedFor (events ++ [⟨cache, operation⟩]) (cache.perform operation).2 := by
  have found : menus.Describes (MenuEvent.mk cache operation).before := describes
  have size := MenuEvent.size_after_add found
  rcases MenuEvent.counters_after found with ⟨hits, misses, expired⟩
  constructor
  · refine hits.trans ?_
    rw [MenuEvent.countP_sinceReset_concat, accounted.hits]
  · refine misses.trans ?_
    rw [MenuEvent.countP_sinceReset_concat, accounted.misses]
  · refine expired.trans ?_
    rw [MenuEvent.total_concat, accounted.expired]
  · have entries := accounted.entries
    change (cache.perform operation).2.size + _ = cache.size + _ at size
    simp only [MenuEvent.total_concat]
    omega

theorem isAccountedFor_run (size : Nat) (lifetime : Duration) (operations : List MenuOperation) :
    IsAccountedFor (events operations (ofCapacity size lifetime))
      (MenuOperation.run perform operations (ofCapacity size lifetime)).2 := by
  induction operations using List.reverseRecOn with
  | nil => exact ⟨rfl, rfl, rfl, rfl⟩
  | append_singleton operations operation ih =>
      have describes := ((RecentMenus.describes_ofCapacity size lifetime).run operations).2
      rw [events_concat, MenuOperation.run_concat]
      exact ih.perform describes operation

/-- The statistics of a cache that started empty tell what has happened.  Hits and misses are the
look-ups since all entries were last dropped at once that found something and that did not.  The
expired entries are those that sweeps counted and those that look-ups met but did not answer with;
they never become fewer.  The entries are the listed keys, all different; with those evicted,
expired, dropped one by one and dropped at once they are as many as were ever added under a key that
had none.  Each key that is gone after an operation was counted once, and if a look-up or a sweep
took it away its time was over. -/
theorem statistics_run (size : Nat) (lifetime : Duration) (operations : List MenuOperation) :
    let cache := (MenuOperation.run perform operations (ofCapacity size lifetime)).2
    let events := events operations (ofCapacity size lifetime)
    cache.statistics.hits = (sinceReset events).countP MenuEvent.isHit ∧
      cache.statistics.misses = (sinceReset events).countP MenuEvent.isMiss ∧
      cache.statistics.expired = total MenuEvent.expired events ∧
      cache.statistics.entries = cache.keysByRecency.length ∧ cache.keysByRecency.Nodup ∧
      total MenuEvent.inserted events =
        cache.statistics.entries + total MenuEvent.evicted events +
          total MenuEvent.expired events + total MenuEvent.invalidated events +
          total MenuEvent.cleared events ∧
      ∀ event ∈ events,
        event.before.statistics.expired ≤ event.after.statistics.expired ∧
          event.removed.length =
            event.evicted + event.expired + event.invalidated + event.cleared ∧
          ∀ key ∈ event.removed, ∀ now, event.ChecksAt now →
            key ∈ event.before.staleKeys now := by
  intro cache events
  have start := RecentMenus.describes_ofCapacity size lifetime
  have lists := (start.run operations).2.lists
  have accounted := isAccountedFor_run size lifetime operations
  refine ⟨accounted.hits, accounted.misses, accounted.expired, ?_,
    Recency.nodup_newestFirst lists.consistent, accounted.entries, ?_⟩
  · change cache.entries.size = cache.recency.newestFirst.length
    rw [lists.size_eq, lists.keys, List.length_map]
  · intro event occurs
    rcases exists_describes_of_mem_events start occurs with ⟨found, describes⟩
    refine ⟨?_, MenuEvent.length_removed describes, ?_⟩
    · change event.before.expired ≤ event.after.expired
      rw [(MenuEvent.counters_after describes).2.2]
      exact Nat.le_add_right _ _
    · intro key gone now checks
      exact MenuEvent.mem_staleKeys_of_mem_removed describes gone checks

theorem statistics_run_of_expired_look_up :
    let menus : MenuHierarchy := .capturedAt "Notes" [] 5 0
    let operations : List MenuOperation :=
      [.put "Notes" menus 0, .get "Notes" 60, .put "Mail" menus 61, .put "Finder" menus 62]
    let events := events operations (ofCapacity 1 60)
    let event : MenuEvent := ⟨(ofCapacity 1 60).put "Notes" menus 0, .get "Notes" 60⟩
    event ∈ events ∧ "Notes" ∈ event.removed ∧ event.ChecksAt 60 ∧
      "Notes" ∈ event.before.staleKeys 60 ∧
      total MenuEvent.inserted events =
        1 + total MenuEvent.evicted events + total MenuEvent.expired events +
          total MenuEvent.invalidated events + total MenuEvent.cleared events := by
  intro menus operations events event
  have expiry : Instant.after 0 60 = 60 := Instant.after_of_le (by decide)
  have start := RecentMenus.describes_ofCapacity 1 60
  have stored := start.put "Notes" menus 0
  have occurs : event ∈ events := .tail _ (.head _)
  have checks : event.ChecksAt 60 := Or.inr ⟨"Notes", rfl⟩
  have gone : "Notes" ∈ event.removed := by
    have before : event.before.keysByRecency = _ := stored.lists.keys
    have after : event.after.keysByRecency = _ := (stored.get "Notes" 60).2.lists.keys
    rw [MenuEvent.removed, before, after]
    simp [RecentMenus.put, RecentMenus.get, RecentMenus.roomFor, RecentMenus.others, expiry,
      MenuHierarchy.withExpiry]
  have entries :
      (MenuOperation.run perform operations (ofCapacity 1 60)).2.statistics.entries = 1 := by
    refine ((start.run operations).2.lists.size_eq).trans ?_
    simp [operations, MenuOperation.run, RecentMenus.perform, RecentMenus.put, RecentMenus.get,
      RecentMenus.roomFor, RecentMenus.keys, RecentMenus.others, expiry, MenuHierarchy.withExpiry]
  rcases statistics_run 1 60 operations with ⟨_, _, _, _, _, inserted, each⟩
  rw [entries] at inserted
  exact ⟨occurs, gone, checks, (each event occurs).2.2 "Notes" gone 60 checks, inserted⟩

end MenuCache

end Accessibility
