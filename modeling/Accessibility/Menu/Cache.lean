import Accessibility.Capacity
import Accessibility.Menu.Hierarchy
import Accessibility.Recency

/-!
# The cache of menu hierarchies

The hierarchies of recently used applications.  An entry counts for a fixed time after it was
stored, and when the cache is full the least recently used application makes room.
-/

namespace Accessibility

/-- How a cache has been used. -/
structure CacheStatistics where
  /-- The number of entries in the cache. -/
  entries : Nat
  /-- The number of look-ups that found a valid entry. -/
  hits : Nat
  /-- The number of the other look-ups. -/
  misses : Nat
  /-- The number of entries dropped because their time was over. -/
  expired : Nat
  deriving DecidableEq, Repr

/-- The share of look-ups that found a valid entry; none at all before the first look-up. -/
def CacheStatistics.hitRate (statistics : CacheStatistics) : Float :=
  let lookups := statistics.hits + statistics.misses
  if lookups = 0 then 0 else statistics.hits.toFloat / lookups.toFloat

/-- A cache of menu hierarchies by application. -/
structure MenuCache where
  capacity : Capacity
  /-- How long an entry counts. -/
  lifetime : Duration
  entries : Std.TreeMap String MenuHierarchy := ∅
  recency : Recency String := {}
  hits : Nat := 0
  misses : Nat := 0
  expired : Nat := 0

namespace MenuCache

/-- An empty cache with room for a number of entries, each of which counts for a while. -/
def ofCapacity (size : Nat) (lifetime : Duration) : MenuCache where
  capacity := Capacity.ofNat size
  lifetime := lifetime

/-- The empty cache with room for fifty applications, whose entries count for five minutes. -/
def standard : MenuCache :=
  ofCapacity 50 (Duration.ofSeconds 300)

/-- The cache without the entry of a key. -/
def drop (key : String) (cache : MenuCache) : MenuCache :=
  { cache with entries := cache.entries.erase key, recency := cache.recency.remove key }

/-- Looks up the valid hierarchy of a key.  A hit is a use; an entry whose time is over is
dropped. -/
def get (key : String) (now : Instant) (cache : MenuCache) : Option MenuHierarchy × MenuCache :=
  match cache.entries[key]? with
  | none => (none, { cache with misses := cache.misses + 1 })
  | some hierarchy =>
      if hierarchy.isValidAt now then
        (some hierarchy,
          { cache with hits := cache.hits + 1, recency := cache.recency.touch key })
      else
        (none,
          { cache.drop key with misses := cache.misses + 1, expired := cache.expired + 1 })

/-- The cache without the least recently used entry. -/
def evict (cache : MenuCache) : MenuCache :=
  match cache.recency.popOldest? with
  | some (oldest, recency) => { cache with entries := cache.entries.erase oldest, recency }
  | none => cache

/-- The cache with room for a key. -/
def makeRoom (key : String) (cache : MenuCache) : MenuCache :=
  if !cache.entries.contains key && cache.capacity.size ≤ cache.entries.size then
    cache.evict
  else
    cache

/-- Stores a hierarchy, which counts from now on.  Storing is a use. -/
def put (key : String) (hierarchy : MenuHierarchy) (now : Instant) (cache : MenuCache) :
    MenuCache :=
  let roomy := cache.makeRoom key
  { roomy with
    entries := roomy.entries.insert key (hierarchy.withExpiry (Instant.after now cache.lifetime))
    recency := roomy.recency.touch key }

/-- Drops the entry of a key and says whether there was one. -/
def invalidate (key : String) (cache : MenuCache) : Bool × MenuCache :=
  (cache.entries.contains key, cache.drop key)

/-- Drops all entries and forgets the hits and misses. -/
def invalidateAll (cache : MenuCache) : MenuCache :=
  { cache with entries := ∅, recency := cache.recency.clear, hits := 0, misses := 0 }

/-- The keys of the entries whose time is over. -/
def staleKeys (now : Instant) (cache : MenuCache) : List String :=
  (cache.entries.toList.filter fun entry => !entry.2.isValidAt now).map (·.1)

/-- Drops the entries whose time is over and counts them. -/
def cleanup (now : Instant) (cache : MenuCache) : Nat × MenuCache :=
  let stale := cache.staleKeys now
  let swept := stale.foldl (fun cache key => cache.drop key) cache
  (stale.length, { swept with expired := swept.expired + stale.length })

/-- How the cache has been used. -/
def statistics (cache : MenuCache) : CacheStatistics where
  entries := cache.entries.size
  hits := cache.hits
  misses := cache.misses
  expired := cache.expired

/-- The number of entries; those whose time is over count until they are dropped. -/
def size (cache : MenuCache) : Nat :=
  cache.entries.size

/-- The keys, the most recently used one first. -/
def keysByRecency (cache : MenuCache) : List String :=
  cache.recency.newestFirst

end MenuCache

end Accessibility
