import Accessibility.Capacity
import Accessibility.Recency
import Accessibility.Token.Basic

/-!
# The cache of opaque identifiers

A bounded two-way map between paths and identifiers.  When it is full the least recently used
pair makes room, and a token that has gone this way no longer leads anywhere.

Identifiers are drawn at random.  The draws are an argument: the first one that no living path
has is taken.
-/

namespace Accessibility

/-- Why a token leads to no path. -/
inductive TokenError where
  /-- The text is no token. -/
  | malformed (token : String)
  /-- The token was never handed out, or its pair has made room. -/
  | unknown (token : String)
  /-- The two directions of the map disagree. -/
  | inconsistent (token : String)
  deriving DecidableEq, Repr

/-- The wording of an error. -/
def TokenError.message : TokenError → String
  | malformed token => "Malformed element id '" ++ token ++ "'."
  | unknown token => "Element id '" ++ token ++ "' is unknown or has expired."
  | inconsistent token => "Opaque id cache is inconsistent for id '" ++ token ++ "'."

/-- A two-way map between paths and identifiers. -/
structure TokenCache where
  capacity : Capacity
  pathToId : Std.TreeMap String OpaqueId := ∅
  idToPath : Std.TreeMap OpaqueId String := ∅
  recency : Recency OpaqueId := {}

namespace TokenCache

/-- An empty cache with room for a number of pairs. -/
def ofCapacity (size : Nat) : TokenCache where
  capacity := Capacity.ofNat size

/-- The empty cache with room for 128000 pairs. -/
def standard : TokenCache :=
  ofCapacity 128000

/-- The cache without the least recently used pair. -/
def evict (cache : TokenCache) : TokenCache :=
  match cache.recency.popOldest? with
  | none => cache
  | some (oldest, recency) =>
      match cache.idToPath[oldest]? with
      | some path =>
          { cache with
            pathToId := cache.pathToId.erase path
            idToPath := cache.idToPath.erase oldest
            recency }
      | none => { cache with recency }

/-- The cache with room for a new pair. -/
def makeRoom (cache : TokenCache) : TokenCache :=
  if cache.capacity.size ≤ cache.pathToId.size then cache.evict else cache

/-- The first draw that no living path has, and the draws behind it. -/
def firstUnused? (cache : TokenCache) : List OpaqueId → Option (OpaqueId × List OpaqueId)
  | [] => none
  | draw :: rest =>
      if cache.idToPath.contains draw then cache.firstUnused? rest else some (draw, rest)

/-- The cache with a new pair. -/
def bind (path : String) (id : OpaqueId) (cache : TokenCache) : TokenCache :=
  { cache with
    pathToId := cache.pathToId.insert path id
    idToPath := cache.idToPath.insert id path
    recency := cache.recency.touch id }

/-- The identifier of a path: the one it has, or a new one.  The draws that were not needed are
returned; there is no result if they do not suffice. -/
def obtain? (path : String) (draws : List OpaqueId) (cache : TokenCache) :
    Option (OpaqueId × List OpaqueId × TokenCache) :=
  match cache.pathToId[path]? with
  | some id => some (id, draws, { cache with recency := cache.recency.touch id })
  | none =>
      let roomy := cache.makeRoom
      (roomy.firstUnused? draws).map fun (id, rest) => (id, rest, roomy.bind path id)

/-- The path of an identifier.  Success is a use. -/
def resolve (id : OpaqueId) (cache : TokenCache) : Except TokenError String × TokenCache :=
  match cache.idToPath[id]? with
  | none => (.error (.unknown id.encode), cache)
  | some path =>
      if cache.pathToId[path]? = some id then
        (.ok path, { cache with recency := cache.recency.touch id })
      else
        (.error (.inconsistent id.encode), cache)

/-- The path of a token. -/
def decode (token : String) (cache : TokenCache) : Except TokenError String × TokenCache :=
  match OpaqueId.decode? token with
  | none => (.error (.malformed token), cache)
  | some id => cache.resolve id

/-- Forgets all pairs. -/
def clear (cache : TokenCache) : TokenCache :=
  { cache with pathToId := ∅, idToPath := ∅, recency := cache.recency.clear }

/-- The number of pairs. -/
def size (cache : TokenCache) : Nat :=
  cache.pathToId.size

end TokenCache

end Accessibility
