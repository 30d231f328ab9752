import Accessibility.Menu.Cache

/-!
# Recently used menus

What the cache of menus does, told with nothing but a list: the keys with their hierarchies, the
most recently used one first.  The list and the cache are asked the same things, in sequences of
operations whose answers and visible states can be compared.
-/

namespace Accessibility

/-- What a cache of menus is asked to do. -/
inductive MenuOperation where
  | put (key : String) (hierarchy : MenuHierarchy) (now : Instant)
  | get (key : String) (now : Instant)
  | cleanup (now : Instant)
  | invalidate (key : String)
  | invalidateAll

/-- What a cache of menus answers. -/
inductive MenuAnswer where
  | done
  | found (hierarchy : Option MenuHierarchy)
  | swept (count : Nat)
  | dropped (wasThere : Bool)

/-- What can be seen of a cache of menus. -/
structure MenuView where
  keys : List String
  size : Nat
  statistics : CacheStatistics

/-- The answers to a sequence of operations, and the state after it. -/
def MenuOperation.run {σ : Type} (perform : MenuOperation → σ → MenuAnswer × σ) :
    List MenuOperation → σ → List MenuAnswer × σ
  | [], state => ([], state)
  | operation :: rest, state =>
      let (answer, next) := perform operation state
      let (answers, last) := run perform rest next
      (answer :: answers, last)

namespace MenuCache

/-- Performs an operation. -/
def perform : MenuOperation → MenuCache → MenuAnswer × MenuCache
  | .put key hierarchy now, cache => (.done, cache.put key hierarchy now)
  | .get key now, cache =>
      let (hierarchy, next) := cache.get key now
      (.found hierarchy, next)
  | .cleanup now, cache =>
      let (count, next) := cache.cleanup now
      (.swept count, next)
  | .invalidate key, cache =>
      let (wasThere, next) := cache.invalidate key
      (.dropped wasThere, next)
  | .invalidateAll, cache => (.done, cache.invalidateAll)

/-- What can be seen of the cache. -/
def view (cache : MenuCache) : MenuView where
  keys := cache.keysByRecency
  size := cache.size
  statistics := cache.statistics

end MenuCache

/-- Keys with their hierarchies, the most recently used first. -/
structure RecentMenus where
  capacity : Nat
  /-- How long a hierarchy counts. -/
  lifetime : Duration
  entries : List (String × MenuHierarchy) := []
  hits : Nat := 0
  misses : Nat := 0
  expired : Nat := 0

namespace RecentMenus

/-- The keys, the most recently used one first. -/
def keys (menus : RecentMenus) : List String :=
  menus.entries.map Prod.fst

/-- The entries under other keys. -/
def others (key : String) (entries : List (String × MenuHierarchy)) :
    List (String × MenuHierarchy) :=
  entries.filter fun entry => entry.1 ≠ key

theorem mem_others_iff {key : String} {entries : List (String × MenuHierarchy)}
    {entry : String × MenuHierarchy} :
    entry ∈ others key entries ↔ entry ∈ entries ∧ entry.1 ≠ key := by
  rw [others, List.mem_filter, decide_eq_true_eq]

theorem others_eq_self {key : String} {entries : List (String × MenuHierarchy)}
    (absent : key ∉ entries.map Prod.fst) : others key entries = entries := by
  rw [others, List.filter_eq_self]
  intro entry member
  apply decide_eq_true
  rintro rfl
  exact absent (List.mem_map_of_mem member)

/-- The entries, without the last one if the key is new and the list is full. -/
def roomFor (key : String) (menus : RecentMenus) : List (String × MenuHierarchy) :=
  if key ∈ menus.keys ∨ menus.entries.length < menus.capacity then menus.entries
  else menus.entries.dropLast

/-- Making room for a key keeps all entries, or all but the last one. -/
theorem sublist_roomFor (key : String) (menus : RecentMenus) :
    (menus.roomFor key).Sublist menus.entries := by
  unfold roomFor
  split
  · exact List.Sublist.refl _
  · exact List.dropLast_sublist _

/-- A new or replaced entry goes to the front, and counts from now on. -/
def put (key : String) (hierarchy : MenuHierarchy) (now : Instant) (menus : RecentMenus) :
    RecentMenus :=
  { menus with
    entries :=
      (key, hierarchy.withExpiry (Instant.after now menus.lifetime)) ::
        others key (menus.roomFor key) }

/-- A valid entry goes to the front, an expired one goes away. -/
def get (key : String) (now : Instant) (menus : RecentMenus) :
    Option MenuHierarchy × RecentMenus :=
  match menus.entries.find? fun entry => entry.1 = key with
  | none => (none, { menus with misses := menus.misses + 1 })
  | some (_, hierarchy) =>
      if now < hierarchy.expiresAt then
        (some hierarchy,
          { menus with
            entries := (key, hierarchy) :: others key menus.entries
            hits := menus.hits + 1 })
      else
        (none,
          { menus with
            entries := others key menus.entries
            misses := menus.misses + 1
            expired := menus.expired + 1 })

/-- Exactly the expired entries go away, and are counted. -/
def cleanup (now : Instant) (menus : RecentMenus) : Nat × RecentMenus :=
  let count := menus.entries.countP fun entry => entry.2.expiresAt ≤ now
  (count,
    { menus with
      entries := menus.entries.filter fun entry => now < entry.2.expiresAt
      expired := menus.expired + count })

/-- The entry of a key goes away; the answer says whether there was one. -/
def invalidate (key : String) (menus : RecentMenus) : Bool × RecentMenus :=
  (menus.keys.contains key, { menus with entries := others key menus.entries })

/-- All entries go away, and the hits and misses are forgotten. -/
def invalidateAll (menus : RecentMenus) : RecentMenus :=
  { menus with entries := [], hits := 0, misses := 0 }

/-- Performs an operation. -/
def perform : MenuOperation → RecentMenus → MenuAnswer × RecentMenus
  | .put key hierarchy now, menus => (.done, menus.put key hierarchy now)
  | .get key now, menus =>
      let (hierarchy, next) := menus.get key now
      (.found hierarchy, next)
  | .cleanup now, menus =>
      let (count, next) := menus.cleanup now
      (.swept count, next)
  | .invalidate key, menus =>
      let (wasThere, next) := menus.invalidate key
      (.dropped wasThere, next)
  | .invalidateAll, menus => (.done, menus.invalidateAll)

/-- A look-up finds no entry, uses a valid one or drops an expired one. -/
theorem get_cases (key : String) (now : Instant) (menus : RecentMenus) :
    (key ∉ menus.keys ∧ menus.get key now = (none, { menus with misses := menus.misses + 1 })) ∨
      ∃ hierarchy, (key, hierarchy) ∈ menus.entries ∧
        (now < hierarchy.expiresAt ∧
            menus.get key now =
              (some hierarchy,
                { menus with
                  entries := (key, hierarchy) :: others key menus.entries
                  hits := menus.hits + 1 }) ∨
          ¬now < hierarchy.expiresAt ∧
            menus.get key now =
              (none,
                { menus with
                  entries := others key menus.entries
                  misses := menus.misses + 1
                  expired := menus.expired + 1 })) := by
  unfold get
  cases first : menus.entries.find? fun entry => entry.1 = key with
  | none =>
      left
      constructor
      · intro known
        rcases List.mem_map.mp known with ⟨entry, member, isKey⟩
        exact List.find?_eq_none.mp first entry member (decide_eq_true isKey)
      · rfl
  | some entry =>
      right
      rcases entry with ⟨other, hierarchy⟩
      obtain rfl : other = key := by simpa using List.find?_some first
      refine ⟨hierarchy, List.mem_of_find?_eq_some first, ?_⟩
      by_cases valid : now < hierarchy.expiresAt
      · exact Or.inl ⟨valid, if_pos valid⟩
      · exact Or.inr ⟨valid, if_neg valid⟩

/-- What can be seen of the list. -/
def view (menus : RecentMenus) : MenuView where
  keys := menus.keys
  size := menus.entries.length
  statistics :=
    { entries := menus.entries.length
      hits := menus.hits
      misses := menus.misses
      expired := menus.expired }

end RecentMenus

end Accessibility
