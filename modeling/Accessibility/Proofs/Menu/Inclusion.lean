import Accessibility.Proofs.Menu.Refinement

/-!
# Caches of menus of different capacity

Two caches that differ in nothing but their capacity and are asked the same things soon disagree on
what was used last, since a look-up may succeed in the larger one alone.  Still the smaller one
never knows an entry that the larger one has lost: its entries stand in the larger one in the same
order, and the larger one is full only if the smaller one is.
-/

namespace Accessibility

namespace RecentMenus

/-- Whether a list of recently used menus has the entries of another one in their order, and room
for a new entry whenever the other one has. -/
structure Includes (larger smaller : RecentMenus) : Prop where
  entries : smaller.entries.Sublist larger.entries
  lifetime : smaller.lifetime = larger.lifetime
  room : larger.entries.length + smaller.capacity ≤ smaller.entries.length + larger.capacity

theorem sublist_dropLast {α : Type} {one other : List α} (sublist : one.Sublist other) :
    one.dropLast.Sublist other.dropLast := by
  have reversed := sublist.reverse.tail
  rw [List.tail_reverse, List.tail_reverse] at reversed
  exact List.reverse_sublist.mp reversed

/-- A list loses at least as much to a filter as a list inside it. -/
theorem length_filter_add_le {α : Type} {one other : List α} (sublist : one.Sublist other)
    (keep : α → Bool) :
    (other.filter keep).length + one.length ≤ (one.filter keep).length + other.length := by
  have lost := sublist.countP_le (p := fun item => ¬keep item)
  have inOne := one.length_eq_countP_add_countP keep
  have inOther := other.length_eq_countP_add_countP keep
  rw [← List.countP_eq_length_filter, ← List.countP_eq_length_filter]
  omega

namespace Includes

variable {larger smaller : RecentMenus} {smallerCache largerCache : MenuCache}

theorem keys (includes : larger.Includes smaller) : smaller.keys ⊆ larger.keys :=
  (includes.entries.map Prod.fst).subset

/-- Both lists may be filtered alike. -/
theorem filter (includes : larger.Includes smaller) (keep : String × MenuHierarchy → Bool) :
    (smaller.entries.filter keep).Sublist (larger.entries.filter keep) ∧
      (larger.entries.filter keep).length + smaller.capacity ≤
        (smaller.entries.filter keep).length + larger.capacity := by
  have lost := length_filter_add_le includes.entries keep
  have room := includes.room
  exact ⟨includes.entries.filter keep, by omega⟩

/-- After room is made for a key, the entries under other keys are still included, and so is the
room for the key. -/
theorem roomFor (includes : larger.Includes smaller)
    (smallDescribes : smaller.Describes smallerCache)
    (largeDescribes : larger.Describes largerCache) (key : String) :
    (others key (smaller.roomFor key)).Sublist (others key (larger.roomFor key)) ∧
      (others key (larger.roomFor key)).length + smaller.capacity ≤
        (others key (smaller.roomFor key)).length + larger.capacity := by
  have room := includes.room
  by_cases kept : key ∈ smaller.keys ∨ smaller.entries.length < smaller.capacity
  · have keptToo : key ∈ larger.keys ∨ larger.entries.length < larger.capacity := by
      apply kept.imp
      · exact fun known => includes.keys known
      · intro fits
        omega
    rw [RecentMenus.roomFor, if_pos kept, RecentMenus.roomFor, if_pos keptToo]
    exact includes.filter _
  · -- The smaller list gives up its last entry, whatever the larger one does.
    have sublist : smaller.entries.dropLast.Sublist (larger.roomFor key) := by
      unfold RecentMenus.roomFor
      split
      · exact (List.dropLast_sublist _).trans includes.entries
      · exact sublist_dropLast includes.entries
    have fewer := largeDescribes.length_others_lt key
    have positive := smallerCache.capacity.size_pos
    rw [smallDescribes.capacity] at positive
    rw [not_or] at kept
    have unknown : key ∉ smaller.entries.dropLast.map Prod.fst := by
      intro known
      exact kept.1 (((List.dropLast_sublist _).map Prod.fst).subset known)
    have small : smaller.roomFor key = smaller.entries.dropLast := if_neg (not_or.mpr kept)
    have length : smaller.entries.dropLast.length = smaller.entries.length - 1 :=
      List.length_dropLast
    rw [small]
    constructor
    · exact sublist.filter _
    · rw [others_eq_self unknown]
      omega

theorem put (includes : larger.Includes smaller) (smallDescribes : smaller.Describes smallerCache)
    (largeDescribes : larger.Describes largerCache) (key : String) (hierarchy : MenuHierarchy)
    (now : Instant) : (larger.put key hierarchy now).Includes (smaller.put key hierarchy now) := by
  rcases includes.roomFor smallDescribes largeDescribes key with ⟨sublist, room⟩
  constructor
  · simp only [RecentMenus.put, includes.lifetime]
    exact sublist.cons_cons _
  · exact includes.lifetime
  · simp only [RecentMenus.put, List.length_cons]
    omega

/-- What the smaller list finds the larger one finds as well. -/
theorem get (includes : larger.Includes smaller) (largeDescribes : larger.Describes largerCache)
    (key : String) (now : Instant) :
    (larger.get key now).2.Includes (smaller.get key now).2 ∧
      ∀ hierarchy, (smaller.get key now).1 = some hierarchy →
        (larger.get key now).1 = some hierarchy := by
  rcases includes.filter fun entry => entry.1 ≠ key with ⟨sublist, room⟩
  change (others key smaller.entries).Sublist (others key larger.entries) at sublist
  change (others key larger.entries).length + smaller.capacity ≤
    (others key smaller.entries).length + larger.capacity at room
  rcases smaller.get_cases key now with ⟨absent, small⟩ | ⟨hierarchy, member, smallFound⟩
  · -- Whatever the larger list does with its entry, it has the other entries.
    rw [others_eq_self absent] at sublist room
    rcases larger.get_cases key now with ⟨_, large⟩ | ⟨found, isListed, ⟨_, large⟩ | ⟨_, large⟩⟩
    · rw [small, large]
      exact ⟨⟨includes.entries, includes.lifetime, includes.room⟩, nofun⟩
    · rw [small, large]
      have fewer : (others key larger.entries).length < larger.entries.length :=
        ListsMenus.length_others_lt (List.mem_map_of_mem isListed)
      have before := includes.room
      refine ⟨⟨sublist.cons _, includes.lifetime, ?_⟩, nofun⟩
      simp only [List.length_cons]
      omega
    · rw [small, large]
      exact ⟨⟨sublist, includes.lifetime, room⟩, nofun⟩
  · have isListed : (key, hierarchy) ∈ larger.entries := includes.entries.subset member
    rcases larger.get_cases key now with ⟨absent, _⟩ | ⟨found, otherListed, largeFound⟩
    · exact absurd (List.mem_map_of_mem isListed) absent
    · -- A key has one entry, so that both find the same.
      have foundHere := (largeDescribes.lists.found key hierarchy).mpr isListed
      have foundThere := (largeDescribes.lists.found key found).mpr otherListed
      obtain rfl : hierarchy = found := Option.some.inj (foundHere.symm.trans foundThere)
      rcases smallFound with ⟨valid, small⟩ | ⟨expired, small⟩
      · rcases largeFound with ⟨_, large⟩ | ⟨expired, _⟩
        · rw [small, large]
          refine ⟨⟨sublist.cons_cons _, includes.lifetime, ?_⟩, fun _ same => same⟩
          simp only [List.length_cons]
          omega
        · exact absurd valid expired
      · rcases largeFound with ⟨valid, _⟩ | ⟨_, large⟩
        · exact absurd valid expired
        · rw [small, large]
          exact ⟨⟨sublist, includes.lifetime, room⟩, nofun⟩

/-- An operation keeps the smaller list inside the larger one. -/
theorem perform (includes : larger.Includes smaller)
    (smallDescribes : smaller.Describes smallerCache)
    (largeDescribes : larger.Describes largerCache) (operation : MenuOperation) :
    (larger.perform operation).2.Includes (smaller.perform operation).2 ∧
      ∀ hierarchy, (smaller.perform operation).1 = .found (some hierarchy) →
        (larger.perform operation).1 = .found (some hierarchy) := by
  cases operation with
  | put key hierarchy now =>
      exact ⟨includes.put smallDescribes largeDescribes key hierarchy now, nofun⟩
  | get key now =>
      rcases includes.get largeDescribes key now with ⟨next, hits⟩
      refine ⟨next, fun hierarchy found => ?_⟩
      exact congrArg MenuAnswer.found (hits hierarchy (MenuAnswer.found.inj found))
  | cleanup now =>
      rcases includes.filter fun entry => now < entry.2.expiresAt with ⟨sublist, room⟩
      exact ⟨⟨sublist, includes.lifetime, room⟩, nofun⟩
  | invalidate key =>
      rcases includes.filter fun entry => entry.1 ≠ key with ⟨sublist, room⟩
      exact ⟨⟨sublist, includes.lifetime, room⟩, nofun⟩
  | invalidateAll =>
      rcases includes.filter fun _ => false with ⟨_, room⟩
      rw [List.filter_false, List.filter_false] at room
      exact ⟨⟨List.Sublist.refl [], includes.lifetime, room⟩, nofun⟩

/-- A sequence of operations keeps the smaller list inside the larger one, and whatever is found in
the smaller one at one of them is found in the larger one. -/
theorem run (includes : larger.Includes smaller) (smallDescribes : smaller.Describes smallerCache)
    (largeDescribes : larger.Describes largerCache) (operations : List MenuOperation) :
    (MenuOperation.run RecentMenus.perform operations larger).2.Includes
        (MenuOperation.run RecentMenus.perform operations smaller).2 ∧
      ∀ (step : Nat) (hierarchy : MenuHierarchy),
        (MenuOperation.run RecentMenus.perform operations smaller).1[step]? =
            some (.found (some hierarchy)) →
          (MenuOperation.run RecentMenus.perform operations larger).1[step]? =
            some (.found (some hierarchy)) := by
  induction operations generalizing larger smaller smallerCache largerCache with
  | nil => exact ⟨includes, fun _ _ => nofun⟩
  | cons operation rest ih =>
      rcases includes.perform smallDescribes largeDescribes operation with ⟨next, hits⟩
      rcases ih next (smallDescribes.perform operation).2 (largeDescribes.perform operation).2 with
        ⟨last, hitsLater⟩
      refine ⟨last, fun step hierarchy found => ?_⟩
      cases step with
      | zero => exact congrArg some (hits hierarchy (Option.some.inj found))
      | succ step => exact hitsLater step hierarchy found

end Includes

end RecentMenus

namespace MenuCache

/-- Of two empty caches that are asked the same things, the one with the larger capacity always has
the entries of the other one, with the same hierarchies and expiries, and finds whatever the other
one finds. -/
theorem larger_capacity_keeps_entries_and_hits {small large : Nat} (atMost : small ≤ large)
    (lifetime : Duration) (operations : List MenuOperation) :
    let smaller := MenuOperation.run perform operations (ofCapacity small lifetime)
    let larger := MenuOperation.run perform operations (ofCapacity large lifetime)
    (∀ (key : String) (hierarchy : MenuHierarchy),
        smaller.2.entries[key]? = some hierarchy → larger.2.entries[key]? = some hierarchy) ∧
      ∀ (step : Nat) (hierarchy : MenuHierarchy),
        smaller.1[step]? = some (.found (some hierarchy)) →
          larger.1[step]? = some (.found (some hierarchy)) := by
  intro smaller larger
  have smallStart := RecentMenus.describes_ofCapacity small lifetime
  have largeStart := RecentMenus.describes_ofCapacity large lifetime
  have start : ({ capacity := max large 1, lifetime } : RecentMenus).Includes
      { capacity := max small 1, lifetime } := by
    constructor
    · exact List.Sublist.refl []
    · rfl
    · simp only [List.length_nil, Nat.zero_add]
      omega
  rcases smallStart.run operations with ⟨smallAnswers, smallDescribes⟩
  rcases largeStart.run operations with ⟨largeAnswers, largeDescribes⟩
  rcases start.run smallStart largeStart operations with ⟨includes, hits⟩
  constructor
  · intro key hierarchy found
    rw [smallDescribes.lists.found] at found
    rw [largeDescribes.lists.found]
    exact includes.entries.subset found
  · rw [smallAnswers, largeAnswers]
    exact hits

theorem larger_capacity_keeps_entries_and_hits_after_divergence :
    let menus : MenuHierarchy := .capturedAt "Notes" [] 5 0
    let operations : List MenuOperation :=
      [.put "Notes" menus 0, .put "Finder" menus 1, .get "Notes" 2, .get "Finder" 3]
    let found := MenuAnswer.found (some (menus.withExpiry 61))
    1 ≤ 2 ∧ (MenuOperation.run perform operations (ofCapacity 1 60)).1[3]? = some found ∧
      (MenuOperation.run perform operations (ofCapacity 2 60)).1[3]? = some found := by
  intro menus operations found
  have atMost : 1 ≤ 2 := by decide
  have expiry : Instant.after 1 60 = 61 := Instant.after_of_le (by decide)
  have finds : (MenuOperation.run perform operations (ofCapacity 1 60)).1[3]? = some found := by
    rw [((RecentMenus.describes_ofCapacity 1 60).run operations).1]
    simp [operations, found, MenuOperation.run, RecentMenus.perform, RecentMenus.put,
      RecentMenus.get, RecentMenus.roomFor, RecentMenus.keys, RecentMenus.others, expiry,
      MenuHierarchy.withExpiry]
  exact ⟨atMost, finds, (larger_capacity_keeps_entries_and_hits atMost 60 operations).2 3 _ finds⟩

end MenuCache

end Accessibility
