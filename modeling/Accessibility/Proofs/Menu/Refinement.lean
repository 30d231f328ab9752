import Accessibility.Proofs.Menu.RecentMenus
import Accessibility.Proofs.Recency

/-!
# The cache of menus as a list

The cache keeps its entries, their recency and its counters in step: whatever it is asked, at
whatever times, it answers and looks like the list of recently used menus.
-/

namespace Accessibility

open Std

/-- Whether the entries of a cache, from the most recently used one on, are those of a list. -/
structure ListsMenus (listed : List (String × MenuHierarchy))
    (entries : TreeMap String MenuHierarchy) (recency : Recency String) : Prop where
  consistent : recency.IsConsistent
  keys : recency.newestFirst = listed.map Prod.fst
  found : ∀ (key : String) (hierarchy : MenuHierarchy),
    entries[key]? = some hierarchy ↔ (key, hierarchy) ∈ listed

namespace ListsMenus

variable {listed : List (String × MenuHierarchy)} {entries : TreeMap String MenuHierarchy}
  {recency : Recency String}

theorem empty : ListsMenus [] ∅ {} where
  consistent := Recency.isConsistent_empty
  keys := Recency.newestFirst_clear {}
  found := by simp

theorem clear (recency : Recency String) : ListsMenus [] ∅ recency.clear where
  consistent := Recency.isConsistent_clear recency
  keys := Recency.newestFirst_clear recency
  found := by simp

theorem nodup (lists : ListsMenus listed entries recency) : (listed.map Prod.fst).Nodup := by
  rw [← lists.keys]
  exact Recency.nodup_newestFirst lists.consistent

theorem perm (lists : ListsMenus listed entries recency) : entries.toList.Perm listed := by
  have distinct := OrderedMap.nodup_map_fst_toList entries
  rw [List.perm_ext_iff_of_nodup (distinct.of_map Prod.fst) (lists.nodup.of_map Prod.fst)]
  rintro ⟨key, hierarchy⟩
  rw [TreeMap.mem_toList_iff_getElem?_eq_some, lists.found]

theorem size_eq (lists : ListsMenus listed entries recency) : entries.size = listed.length := by
  rw [← TreeMap.length_toList, lists.perm.length_eq]

theorem mem_iff (lists : ListsMenus listed entries recency) {key : String} :
    key ∈ entries ↔ key ∈ listed.map Prod.fst := by
  rw [← OrderedMap.mem_map_fst_toList]
  exact (lists.perm.map Prod.fst).mem_iff

theorem contains_eq (lists : ListsMenus listed entries recency) (key : String) :
    entries.contains key = (listed.map Prod.fst).contains key := by
  rw [Bool.eq_iff_iff, TreeMap.contains_iff_mem, lists.mem_iff, List.contains_iff_mem]

theorem find?_eq (lists : ListsMenus listed entries recency) (key : String) :
    (listed.find? fun entry => entry.1 = key) = entries[key]?.map (key, ·) := by
  cases first : listed.find? fun entry => entry.1 = key with
  | none =>
      rw [List.find?_eq_none] at first
      cases found : entries[key]? with
      | none => rfl
      | some hierarchy => exact absurd (decide_eq_true rfl) (first _ ((lists.found _ _).mp found))
  | some entry =>
      rcases entry with ⟨other, hierarchy⟩
      obtain rfl : other = key := by simpa using List.find?_some first
      rw [(lists.found other hierarchy).mpr (List.mem_of_find?_eq_some first)]
      rfl

/-- Dropping a key leaves the entries under other keys. -/
theorem remove (lists : ListsMenus listed entries recency) (key : String) :
    ListsMenus (RecentMenus.others key listed) (entries.erase key) (recency.remove key) where
  consistent := lists.consistent.remove key
  keys := by
    rw [Recency.newestFirst_remove lists.consistent, lists.keys, List.filter_map]
    rfl
  found := by
    intro other hierarchy
    rw [OrderedMap.getElem?_erase_eq, RecentMenus.others, List.mem_filter, ← lists.found]
    by_cases same : other = key <;> simp [same]

/-- Storing an entry puts it in front of the others. -/
theorem store (lists : ListsMenus listed entries recency) (key : String)
    (hierarchy : MenuHierarchy) :
    ListsMenus ((key, hierarchy) :: RecentMenus.others key listed)
      (entries.insert key hierarchy) (recency.touch key) where
  consistent := lists.consistent.touch key
  keys := by
    rw [Recency.newestFirst_touch lists.consistent, lists.keys, List.filter_map]
    rfl
  found := by
    intro other found
    rw [OrderedMap.getElem?_insert_eq, List.mem_cons, RecentMenus.others, List.mem_filter,
      ← lists.found]
    by_cases same : other = key
    · simp [same, eq_comm]
    · simp [same]

/-- Using an entry puts it in front of the others. -/
theorem use (lists : ListsMenus listed entries recency) {key : String} {hierarchy : MenuHierarchy}
    (found : entries[key]? = some hierarchy) :
    ListsMenus ((key, hierarchy) :: RecentMenus.others key listed) entries
      (recency.touch key) where
  consistent := lists.consistent.touch key
  keys := (lists.store key hierarchy).keys
  found := by
    intro other value
    rw [← (lists.store key hierarchy).found, OrderedMap.getElem?_insert_eq]
    by_cases same : other = key
    · simp [same, found]
    · simp [same]

/-- Dropping keys one after the other leaves the entries under other keys. -/
theorem removeAll (lists : ListsMenus listed entries recency) (keys : List String) :
    ListsMenus (listed.filter fun entry => entry.1 ∉ keys)
      (keys.foldl (fun entries key => entries.erase key) entries)
      (keys.foldl (fun recency key => recency.remove key) recency) := by
  induction keys generalizing listed entries recency with
  | nil => simpa using lists
  | cons key keys ih =>
      have rest := ih (lists.remove key)
      rw [RecentMenus.others, List.filter_filter] at rest
      simpa [Bool.and_comm] using rest

theorem length_others_lt {key : String} (isListed : key ∈ listed.map Prod.fst) :
    (RecentMenus.others key listed).length < listed.length := by
  rcases List.mem_map.mp isListed with ⟨entry, member, rfl⟩
  rw [RecentMenus.others, List.length_filter_lt_length_iff_exists]
  exact ⟨entry, member, by simp⟩

theorem others_last {last : String × MenuHierarchy} (distinct : (listed.map Prod.fst).Nodup)
    (isLast : listed.getLast? = some last) :
    RecentMenus.others last.1 listed = listed.dropLast := by
  rcases List.getLast?_eq_some_iff.mp isLast with ⟨front, rfl⟩
  rw [List.map_append, List.nodup_append] at distinct
  rcases distinct with ⟨_, _, apart⟩
  have kept : (front.filter fun entry => entry.1 ≠ last.1) = front := by
    rw [List.filter_eq_self]
    intro entry member
    exact decide_eq_true (apart _ (List.mem_map_of_mem member) _ (List.mem_singleton_self last.1))
  rw [RecentMenus.others, List.filter_append, kept, List.dropLast_concat]
  simp

end ListsMenus

namespace MenuCache

variable {cache : MenuCache} {listed : List (String × MenuHierarchy)}

/-- The least recently used entry is the last of the list. -/
theorem lists_evict (lists : ListsMenus listed cache.entries cache.recency) :
    ListsMenus listed.dropLast cache.evict.entries cache.evict.recency := by
  unfold evict
  rw [Recency.popOldest?_eq lists.consistent, lists.keys, List.getLast?_map]
  cases isLast : listed.getLast? with
  | none =>
      rw [List.getLast?_eq_none_iff] at isLast
      subst isLast
      exact lists
  | some last =>
      rw [← ListsMenus.others_last lists.nodup isLast]
      exact lists.remove last.1

/-- Making room for a key changes nothing but the entries and their recency. -/
theorem makeRoom_eq (key : String) (cache : MenuCache) :
    cache.makeRoom key =
      { cache with
        entries := (cache.makeRoom key).entries
        recency := (cache.makeRoom key).recency } := by
  unfold makeRoom
  split
  · unfold evict
    split <;> rfl
  · rfl

/-! ## Sweeping -/

theorem mem_staleKeys_iff {now : Instant} {key : String} :
    key ∈ cache.staleKeys now ↔
      ∃ hierarchy, cache.entries[key]? = some hierarchy ∧ hierarchy.isValidAt now = false := by
  simp [staleKeys]

theorem length_staleKeys (lists : ListsMenus listed cache.entries cache.recency) (now : Instant) :
    (cache.staleKeys now).length = listed.countP fun entry => !entry.2.isValidAt now := by
  rw [staleKeys, List.length_map, ← List.countP_eq_length_filter, lists.perm.countP_eq]

/-- Dropping keys one after the other changes nothing but the entries and their recency. -/
theorem foldl_drop_eq (keys : List String) (cache : MenuCache) :
    keys.foldl (fun cache key => cache.drop key) cache =
      { cache with
        entries := keys.foldl (fun entries key => entries.erase key) cache.entries
        recency := keys.foldl (fun recency key => recency.remove key) cache.recency } := by
  induction keys generalizing cache with
  | nil => rfl
  | cons key keys ih => rw [List.foldl_cons, ih]; rfl

theorem cleanup_eq (now : Instant) (cache : MenuCache) :
    cache.cleanup now =
      ((cache.staleKeys now).length,
        { cache with
          entries :=
            (cache.staleKeys now).foldl (fun entries key => entries.erase key) cache.entries
          recency :=
            (cache.staleKeys now).foldl (fun recency key => recency.remove key) cache.recency
          expired := cache.expired + (cache.staleKeys now).length }) := by
  simp only [cleanup, foldl_drop_eq]

/-- The expired entries are those under the stale keys. -/
theorem filter_not_mem_staleKeys (lists : ListsMenus listed cache.entries cache.recency)
    (now : Instant) :
    (listed.filter fun entry => entry.1 ∉ cache.staleKeys now) =
      listed.filter fun entry => entry.2.isValidAt now := by
  apply List.filter_congr
  rintro ⟨key, hierarchy⟩ member
  rw [← lists.found] at member
  simp [mem_staleKeys_iff, member]

end MenuCache

/-- Whether a cache has the entries of a list, in its order, and the same limits and counters. -/
structure RecentMenus.Describes (menus : RecentMenus) (cache : MenuCache) : Prop where
  lists : ListsMenus menus.entries cache.entries cache.recency
  within : menus.entries.length ≤ menus.capacity
  capacity : cache.capacity.size = menus.capacity
  lifetime : cache.lifetime = menus.lifetime
  hits : cache.hits = menus.hits
  misses : cache.misses = menus.misses
  expired : cache.expired = menus.expired

namespace RecentMenus.Describes

variable {menus : RecentMenus} {cache : MenuCache}

theorem view (describes : menus.Describes cache) : cache.view = menus.view := by
  rcases describes with ⟨lists, _, _, _, hits, misses, expired⟩
  simp only [MenuCache.view, RecentMenus.view, MenuCache.keysByRecency, lists.keys, MenuCache.size,
    lists.size_eq, MenuCache.statistics, hits, misses, expired]
  rfl

/-- Room is made in both for the same key. -/
theorem roomFor (describes : menus.Describes cache) (key : String) :
    ListsMenus (menus.roomFor key) (cache.makeRoom key).entries (cache.makeRoom key).recency := by
  have contains := describes.lists.contains_eq key
  have size := describes.lists.size_eq
  unfold RecentMenus.roomFor MenuCache.makeRoom
  rw [contains, size, describes.capacity]
  by_cases known : key ∈ menus.keys
  · have isListed : (menus.entries.map Prod.fst).contains key = true :=
      List.contains_iff_mem.mpr known
    rw [if_pos (Or.inl known), isListed]
    exact describes.lists
  · have isNew : (menus.entries.map Prod.fst).contains key = false := by
      rw [← Bool.not_eq_true, List.contains_iff_mem]
      exact known
    rw [isNew]
    by_cases full : menus.capacity ≤ menus.entries.length
    · rw [if_neg (by simp [known, full])]
      simpa [full] using MenuCache.lists_evict describes.lists
    · rw [if_pos (Or.inr (Nat.lt_of_not_le full))]
      simpa [full] using describes.lists

/-- After room is made for a key, the entries under other keys do not fill the list. -/
theorem length_others_lt (describes : menus.Describes cache) (key : String) :
    (RecentMenus.others key (menus.roomFor key)).length < menus.capacity := by
  have within := describes.within
  have positive := cache.capacity.size_pos
  rw [describes.capacity] at positive
  by_cases known : key ∈ menus.keys
  · have fewer := ListsMenus.length_others_lt known
    rw [RecentMenus.roomFor, if_pos (Or.inl known)]
    omega
  · have atMost : (RecentMenus.others key (menus.roomFor key)).length ≤
        (menus.roomFor key).length := List.length_filter_le _ _
    by_cases full : menus.entries.length < menus.capacity
    · rw [RecentMenus.roomFor, if_pos (Or.inr full)] at atMost ⊢
      omega
    · rw [RecentMenus.roomFor, if_neg (by simp [known, full])] at atMost ⊢
      rw [List.length_dropLast] at atMost
      omega

theorem put (describes : menus.Describes cache) (key : String) (hierarchy : MenuHierarchy)
    (now : Instant) : (menus.put key hierarchy now).Describes (cache.put key hierarchy now) := by
  have stored := (describes.roomFor key).store key
    (hierarchy.withExpiry (Instant.after now menus.lifetime))
  have room := MenuCache.makeRoom_eq key cache
  constructor
  · rw [MenuCache.put, describes.lifetime]
    exact stored
  · exact describes.length_others_lt key
  · exact (congrArg (fun cache => cache.capacity.size) room).trans describes.capacity
  · exact (congrArg MenuCache.lifetime room).trans describes.lifetime
  · exact (congrArg MenuCache.hits room).trans describes.hits
  · exact (congrArg MenuCache.misses room).trans describes.misses
  · exact (congrArg MenuCache.expired room).trans describes.expired

theorem get (describes : menus.Describes cache) (key : String) (now : Instant) :
    (cache.get key now).1 = (menus.get key now).1 ∧
      (menus.get key now).2.Describes (cache.get key now).2 := by
  rcases describes with ⟨lists, within, capacity, lifetime, hits, misses, expired⟩
  unfold MenuCache.get RecentMenus.get
  rw [lists.find?_eq key]
  cases found : cache.entries[key]? with
  | none =>
      exact ⟨rfl, lists, within, capacity, lifetime, hits, congrArg (· + 1) misses, expired⟩
  | some hierarchy =>
      have fewer : (RecentMenus.others key menus.entries).length < menus.entries.length :=
        ListsMenus.length_others_lt (List.mem_map_of_mem ((lists.found key hierarchy).mp found))
      simp only [Option.map_some, MenuHierarchy.isValidAt, decide_eq_true_eq]
      split
      · refine ⟨rfl, lists.use found, ?_, capacity, lifetime, congrArg (· + 1) hits, misses,
          expired⟩
        exact Nat.le_trans fewer within
      · refine ⟨rfl, lists.remove key, ?_, capacity, lifetime, hits, congrArg (· + 1) misses,
          congrArg (· + 1) expired⟩
        exact Nat.le_trans (Nat.le_of_lt fewer) within

theorem cleanup (describes : menus.Describes cache) (now : Instant) :
    (cache.cleanup now).1 = (menus.cleanup now).1 ∧
      (menus.cleanup now).2.Describes (cache.cleanup now).2 := by
  rcases describes with ⟨lists, within, capacity, lifetime, hits, misses, expired⟩
  have swept := lists.removeAll (cache.staleKeys now)
  rw [MenuCache.filter_not_mem_staleKeys lists] at swept
  have count : (cache.staleKeys now).length =
      menus.entries.countP fun entry => entry.2.expiresAt ≤ now := by
    rw [MenuCache.length_staleKeys lists]
    apply List.countP_congr
    simp [MenuHierarchy.isValidAt]
  rw [MenuCache.cleanup_eq, count, RecentMenus.cleanup]
  refine ⟨rfl, swept, ?_, capacity, lifetime, hits, misses, congrArg (· + _) expired⟩
  exact Nat.le_trans (List.length_filter_le _ _) within

theorem invalidate (describes : menus.Describes cache) (key : String) :
    (cache.invalidate key).1 = (menus.invalidate key).1 ∧
      (menus.invalidate key).2.Describes (cache.invalidate key).2 := by
  rcases describes with ⟨lists, within, capacity, lifetime, hits, misses, expired⟩
  refine ⟨lists.contains_eq key, lists.remove key, ?_, capacity, lifetime, hits, misses,
    expired⟩
  exact Nat.le_trans (List.length_filter_le _ _) within

theorem invalidateAll (describes : menus.Describes cache) :
    menus.invalidateAll.Describes cache.invalidateAll := by
  rcases describes with ⟨_, _, capacity, lifetime, _, _, expired⟩
  exact ⟨ListsMenus.clear cache.recency, Nat.zero_le _, capacity, lifetime, rfl, rfl, expired⟩

/-- An operation on both has the same answer, and the list describes the cache again. -/
theorem perform (describes : menus.Describes cache) (operation : MenuOperation) :
    (cache.perform operation).1 = (menus.perform operation).1 ∧
      (menus.perform operation).2.Describes (cache.perform operation).2 := by
  cases operation with
  | put key hierarchy now => exact ⟨rfl, describes.put key hierarchy now⟩
  | get key now =>
      rcases describes.get key now with ⟨same, next⟩
      exact ⟨congrArg MenuAnswer.found same, next⟩
  | cleanup now =>
      rcases describes.cleanup now with ⟨same, next⟩
      exact ⟨congrArg MenuAnswer.swept same, next⟩
  | invalidate key =>
      rcases describes.invalidate key with ⟨same, next⟩
      exact ⟨congrArg MenuAnswer.dropped same, next⟩
  | invalidateAll => exact ⟨rfl, describes.invalidateAll⟩

/-- Sequences of operations have the same answers, and the list describes the cache after them. -/
theorem run (describes : menus.Describes cache) (operations : List MenuOperation) :
    (MenuOperation.run MenuCache.perform operations cache).1 =
        (MenuOperation.run RecentMenus.perform operations menus).1 ∧
      (MenuOperation.run RecentMenus.perform operations menus).2.Describes
        (MenuOperation.run MenuCache.perform operations cache).2 := by
  induction operations generalizing menus cache with
  | nil => exact ⟨rfl, describes⟩
  | cons operation rest ih =>
      rcases describes.perform operation with ⟨same, next⟩
      rcases ih next with ⟨sameRest, last⟩
      simp only [MenuOperation.run]
      exact ⟨congrArg₂ List.cons same sameRest, last⟩

end RecentMenus.Describes

namespace RecentMenus

theorem describes_ofCapacity (size : Nat) (lifetime : Duration) :
    ({ capacity := max size 1, lifetime } : RecentMenus).Describes
      (MenuCache.ofCapacity size lifetime) :=
  ⟨ListsMenus.empty, Nat.zero_le _, rfl, rfl, rfl, rfl, rfl⟩

theorem capacity_perform (operation : MenuOperation) (menus : RecentMenus) :
    (menus.perform operation).2.capacity = menus.capacity := by
  cases operation with
  | get key now =>
      simp only [perform, get]
      split
      · rfl
      · split <;> rfl
  | put | cleanup | invalidate | invalidateAll => rfl

theorem lifetime_perform (operation : MenuOperation) (menus : RecentMenus) :
    (menus.perform operation).2.lifetime = menus.lifetime := by
  cases operation with
  | get key now =>
      simp only [perform, get]
      split
      · rfl
      · split <;> rfl
  | put | cleanup | invalidate | invalidateAll => rfl

theorem capacity_run (operations : List MenuOperation) (menus : RecentMenus) :
    (MenuOperation.run perform operations menus).2.capacity = menus.capacity := by
  induction operations generalizing menus with
  | nil => rfl
  | cons operation rest ih => exact (ih _).trans (capacity_perform operation menus)

theorem lifetime_run (operations : List MenuOperation) (menus : RecentMenus) :
    (MenuOperation.run perform operations menus).2.lifetime = menus.lifetime := by
  induction operations generalizing menus with
  | nil => rfl
  | cons operation rest ih => exact (ih _).trans (lifetime_perform operation menus)

end RecentMenus

namespace MenuCache

/-- Whether the entries and both maps of the recency order have the same keys, of which there are
no more than the capacity. -/
structure IsCoherent (cache : MenuCache) : Prop where
  ticks : ∀ key, key ∈ cache.entries ↔ key ∈ cache.recency.ticks
  order : ∀ key, key ∈ cache.entries ↔ ∃ tick : Nat, cache.recency.order[tick]? = some key
  inverse : ∀ (key : String) (tick : Nat),
    cache.recency.ticks[key]? = some tick ↔ cache.recency.order[tick]? = some key
  within : cache.size ≤ cache.capacity.size

theorem isCoherent_of_describes {cache : MenuCache} {menus : RecentMenus}
    (describes : menus.Describes cache) : cache.IsCoherent := by
  rcases describes with ⟨lists, within, capacity, _⟩
  have ticks : ∀ key, key ∈ cache.entries ↔ key ∈ cache.recency.ticks := by
    intro key
    rw [lists.mem_iff, ← lists.keys, Recency.mem_newestFirst_iff lists.consistent]
  constructor
  · exact ticks
  · intro key
    rw [ticks, TreeMap.mem_iff_isSome_getElem?, Option.isSome_iff_exists]
    exact exists_congr (lists.consistent.inverse key)
  · exact lists.consistent.inverse
  · rw [size, lists.size_eq, capacity]
    exact within

/-- Whatever an empty cache is asked, at whatever times, it answers and looks like a list of
recently used menus without repetitions, and keeps its maps in step and within its capacity. -/
theorem run_eq_recentMenus (size : Nat) (lifetime : Duration) (operations : List MenuOperation) :
    let cache := MenuOperation.run perform operations (ofCapacity size lifetime)
    let menus := MenuOperation.run RecentMenus.perform operations
      { capacity := max size 1, lifetime }
    cache.1 = menus.1 ∧ cache.2.view = menus.2.view ∧ menus.2.keys.Nodup ∧
      cache.2.capacity.size = max size 1 ∧ cache.2.IsCoherent := by
  intro cache menus
  have start : ({ capacity := max size 1, lifetime } : RecentMenus).Describes
      (ofCapacity size lifetime) :=
    ⟨ListsMenus.empty, Nat.zero_le _, rfl, rfl, rfl, rfl, rfl⟩
  rcases start.run operations with ⟨sameAnswers, describes⟩
  refine ⟨sameAnswers, describes.view, describes.lists.nodup, ?_,
    isCoherent_of_describes describes⟩
  rw [describes.capacity]
  exact RecentMenus.capacity_run operations _

end MenuCache

end Accessibility
