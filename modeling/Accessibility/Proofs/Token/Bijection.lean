import Accessibility.Proofs.Recency
import Accessibility.Proofs.Token.Encoding
import Accessibility.Token.Cache

/-!
# Paths and their tokens

The cache of identifiers pairs paths with identifiers one to one, in both directions and within its
capacity, and every change keeps it so.  A live identifier therefore always leads to its path.
-/

namespace Accessibility

open Std

namespace TokenCache

variable {cache next : TokenCache} {path : String} {id : OpaqueId} {draws rest : List OpaqueId}

/-- Whether paths and identifiers lead to each other, the identifiers are those in the order of
use, and the pairs fit into the cache. -/
structure IsBijection (cache : TokenCache) : Prop where
  inverse : OrderedMap.AreInverse cache.pathToId cache.idToPath
  consistent : cache.recency.IsConsistent
  live : ∀ id, id ∈ cache.recency.newestFirst ↔ id ∈ cache.idToPath
  within : cache.size ≤ cache.capacity.size

/-! ## Single changes -/

/-- The cache without a pair. -/
def forget (path : String) (id : OpaqueId) (cache : TokenCache) : TokenCache :=
  { cache with
    pathToId := cache.pathToId.erase path
    idToPath := cache.idToPath.erase id
    recency := cache.recency.remove id }

/-- The cache after a use of an identifier. -/
def use (id : OpaqueId) (cache : TokenCache) : TokenCache :=
  { cache with recency := cache.recency.touch id }

theorem isBijection_ofCapacity (size : Nat) : (ofCapacity size).IsBijection where
  inverse := by simp [OrderedMap.AreInverse, ofCapacity]
  consistent := Recency.isConsistent_empty
  live := by
    intro id
    have listed : ({} : Recency OpaqueId).newestFirst = [] := Recency.newestFirst_clear {}
    simp [ofCapacity, listed]
  within := Nat.zero_le _

theorem isBijection_clear (cache : TokenCache) : cache.clear.IsBijection where
  inverse := by simp [OrderedMap.AreInverse, clear]
  consistent := Recency.isConsistent_clear cache.recency
  live := by simp [clear]
  within := Nat.zero_le _

namespace IsBijection

theorem mem_idToPath (bijection : cache.IsBijection) (pair : cache.pathToId[path]? = some id) :
    id ∈ cache.idToPath := by
  rw [bijection.inverse] at pair
  exact TreeMap.mem_iff_isSome_getElem?.mpr (by simp [pair])

theorem forget (bijection : cache.IsBijection) (pair : cache.pathToId[path]? = some id) :
    (cache.forget path id).IsBijection where
  inverse := bijection.inverse.erase pair
  consistent := bijection.consistent.remove id
  live := by
    intro other
    rw [TokenCache.forget, Recency.newestFirst_remove bijection.consistent, List.mem_filter,
      bijection.live, TreeMap.mem_erase]
    by_cases same : other = id
    · simp [same]
    · simp [same, Ne.symm same]
  within := by
    have within : cache.pathToId.size ≤ cache.capacity.size := bijection.within
    change (cache.pathToId.erase path).size ≤ cache.capacity.size
    rw [TreeMap.size_erase]
    split <;> omega

theorem use (bijection : cache.IsBijection) (pair : cache.pathToId[path]? = some id) :
    (cache.use id).IsBijection where
  inverse := bijection.inverse
  consistent := bijection.consistent.touch id
  live := by
    intro other
    rw [TokenCache.use, Recency.newestFirst_touch bijection.consistent, List.mem_cons,
      List.mem_filter, bijection.live]
    by_cases same : other = id
    · simp [same, bijection.mem_idToPath pair]
    · simp [same]
  within := bijection.within

theorem bind (bijection : cache.IsBijection) (newPath : path ∉ cache.pathToId)
    (newId : id ∉ cache.idToPath) (room : cache.size < cache.capacity.size) :
    (cache.bind path id).IsBijection where
  inverse := bijection.inverse.insert newPath newId
  consistent := bijection.consistent.touch id
  live := by
    intro other
    rw [TokenCache.bind, Recency.newestFirst_touch bijection.consistent, List.mem_cons,
      List.mem_filter, bijection.live, TreeMap.mem_insert, Std.compare_eq_iff_eq]
    by_cases same : other = id
    · simp [same]
    · simp [same, Ne.symm same]
  within := by
    change (cache.pathToId.insert path id).size ≤ cache.capacity.size
    rw [TreeMap.size_insert, if_neg (by simpa using newPath)]
    exact room

/-! ## Making room -/

/-- The oldest identifier leaves together with its path. -/
theorem evict_eq (bijection : cache.IsBijection) (filled : 0 < cache.size) :
    ∃ path id, cache.pathToId[path]? = some id ∧ cache.evict = cache.forget path id := by
  obtain ⟨id, isOldest⟩ : ∃ id, cache.recency.newestFirst.getLast? = some id := by
    have notEmpty : cache.pathToId.isEmpty = false := by
      rw [TreeMap.isEmpty_eq_size_eq_zero, beq_eq_false_iff_ne]
      exact Nat.ne_of_gt filled
    rcases TreeMap.isEmpty_eq_false_iff_exists_mem.mp notEmpty with ⟨path, isLive⟩
    rw [TreeMap.mem_iff_isSome_getElem?, Option.isSome_iff_exists] at isLive
    rcases isLive with ⟨id, pair⟩
    have listed := (bijection.live id).mpr (bijection.mem_idToPath pair)
    rw [← Option.isSome_iff_exists, List.getLast?_isSome]
    exact List.ne_nil_of_mem listed
  have isLive := (bijection.live id).mp (List.mem_of_getLast? isOldest)
  rw [TreeMap.mem_iff_isSome_getElem?, Option.isSome_iff_exists] at isLive
  rcases isLive with ⟨path, pair⟩
  refine ⟨path, id, (bijection.inverse path id).mpr pair, ?_⟩
  rw [evict, Recency.popOldest?_eq bijection.consistent, isOldest]
  simp [pair, TokenCache.forget]

/-- Room is made by the loss of at most one pair. -/
theorem makeRoom_eq (bijection : cache.IsBijection) :
    cache.makeRoom = cache ∧ cache.size < cache.capacity.size ∨
      ∃ path id, cache.pathToId[path]? = some id ∧ cache.makeRoom = cache.forget path id := by
  rw [makeRoom]
  by_cases full : cache.capacity.size ≤ cache.pathToId.size
  · right
    rw [if_pos full]
    exact bijection.evict_eq (Nat.lt_of_lt_of_le cache.capacity.size_pos full)
  · left
    rw [if_neg full]
    exact ⟨rfl, Nat.lt_of_not_le full⟩

theorem makeRoom (bijection : cache.IsBijection) : cache.makeRoom.IsBijection := by
  rcases bijection.makeRoom_eq with ⟨same, _⟩ | ⟨oldPath, oldId, pair, forgotten⟩
  · rw [same]
    exact bijection
  · rw [forgotten]
    exact bijection.forget pair

theorem capacity_makeRoom (bijection : cache.IsBijection) :
    cache.makeRoom.capacity = cache.capacity := by
  rcases bijection.makeRoom_eq with ⟨same, _⟩ | ⟨oldPath, oldId, _, forgotten⟩
  · rw [same]
  · rw [forgotten]
    rfl

theorem size_makeRoom_lt (bijection : cache.IsBijection) :
    cache.makeRoom.size < cache.capacity.size := by
  rcases bijection.makeRoom_eq with ⟨same, room⟩ | ⟨oldPath, oldId, pair, forgotten⟩
  · rw [same]
    exact room
  · have isLive : oldPath ∈ cache.pathToId :=
      TreeMap.mem_iff_isSome_getElem?.mpr (by simp [pair])
    have within : cache.pathToId.size ≤ cache.capacity.size := bijection.within
    have positive := cache.capacity.size_pos
    have fewer : (cache.pathToId.erase oldPath).size < cache.capacity.size := by
      rw [TreeMap.size_erase, if_pos (TreeMap.contains_iff_mem.mpr isLive)]
      omega
    rw [forgotten]
    exact fewer

theorem not_mem_makeRoom (bijection : cache.IsBijection) (newPath : path ∉ cache.pathToId) :
    path ∉ cache.makeRoom.pathToId := by
  rcases bijection.makeRoom_eq with ⟨same, _⟩ | ⟨oldPath, oldId, _, forgotten⟩
  · rw [same]
    exact newPath
  · rw [forgotten]
    exact fun held => newPath (TreeMap.mem_of_mem_erase held)

end IsBijection

/-! ## New identifiers -/

theorem firstUnused?_eq_none_iff :
    cache.firstUnused? draws = none ↔ ∀ draw ∈ draws, draw ∈ cache.idToPath := by
  induction draws with
  | nil => simp [firstUnused?]
  | cons draw draws ih =>
      rw [firstUnused?, List.forall_mem_cons]
      by_cases used : draw ∈ cache.idToPath
      · simp [used, ih]
      · simp [used]

theorem not_mem_of_firstUnused? (found : cache.firstUnused? draws = some (id, rest)) :
    id ∉ cache.idToPath := by
  induction draws with
  | nil => simp [firstUnused?] at found
  | cons draw draws ih =>
      rw [firstUnused?] at found
      by_cases used : draw ∈ cache.idToPath
      · rw [if_pos (TreeMap.contains_iff_mem.mpr used)] at found
        exact ih found
      · rw [if_neg (by simpa using used)] at found
        cases found
        exact used

/-- A path has no identifier only if it needs a new one and all draws are in use. -/
theorem obtain?_eq_none_iff :
    cache.obtain? path draws = none ↔
      path ∉ cache.pathToId ∧ ∀ draw ∈ draws, draw ∈ cache.makeRoom.idToPath := by
  rw [obtain?, ← firstUnused?_eq_none_iff, TreeMap.mem_iff_isSome_getElem?]
  cases cache.pathToId[path]? with
  | none => simp
  | some id => simp

theorem exists_obtain?
    (enough : path ∉ cache.pathToId → ∃ draw ∈ draws, draw ∉ cache.makeRoom.idToPath) :
    ∃ id rest next, cache.obtain? path draws = some (id, rest, next) := by
  cases obtained : cache.obtain? path draws with
  | none =>
      rcases obtain?_eq_none_iff.mp obtained with ⟨isNew, allUsed⟩
      rcases enough isNew with ⟨draw, member, unused⟩
      exact absurd (allUsed draw member) unused
  | some result => exact ⟨_, _, _, rfl⟩

namespace IsBijection

/-- A path that has an identifier keeps it, and any other is bound to an unused one. -/
theorem of_obtain? (bijection : cache.IsBijection)
    (obtained : cache.obtain? path draws = some (id, rest, next)) :
    next.IsBijection ∧ next.capacity = cache.capacity ∧ next.pathToId[path]? = some id := by
  rw [obtain?] at obtained
  cases pair : cache.pathToId[path]? with
  | some known =>
      rw [pair] at obtained
      cases obtained
      exact ⟨bijection.use pair, rfl, pair⟩
  | none =>
      have newPath : path ∉ cache.pathToId := by
        rw [TreeMap.mem_iff_isSome_getElem?, pair]
        exact Bool.false_ne_true
      rw [pair] at obtained
      simp only [Option.map_eq_some_iff, Prod.exists, Prod.mk.injEq] at obtained
      rcases obtained with ⟨_, _, found, rfl, rfl, rfl⟩
      have room : cache.makeRoom.size < cache.makeRoom.capacity.size := by
        rw [bijection.capacity_makeRoom]
        exact bijection.size_makeRoom_lt
      refine ⟨?_, bijection.capacity_makeRoom, ?_⟩
      · exact bijection.makeRoom.bind (bijection.not_mem_makeRoom newPath)
          (not_mem_of_firstUnused? found) room
      · simp [TokenCache.bind]

/-! ## Reading tokens -/

/-- A live identifier leads to its path, and no other leads anywhere. -/
theorem resolve_eq (bijection : cache.IsBijection) (id : OpaqueId) :
    cache.resolve id =
      match cache.idToPath[id]? with
      | none => (.error (.unknown id.encode), cache)
      | some path => (.ok path, cache.use id) := by
  rw [resolve]
  cases pair : cache.idToPath[id]? with
  | none => rfl
  | some path => exact if_pos ((bijection.inverse path id).mpr pair)

theorem decode_encode (bijection : cache.IsBijection) (pair : cache.pathToId[path]? = some id) :
    (cache.decode id.encode).1 = .ok path := by
  rw [decode, OpaqueId.decode?_encode]
  rw [bijection.inverse] at pair
  simp only [bijection.resolve_eq, pair]

theorem of_resolve (bijection : cache.IsBijection) (id : OpaqueId) :
    (cache.resolve id).2.IsBijection ∧ (cache.resolve id).2.capacity = cache.capacity ∧
      ∀ token, (cache.resolve id).1 ≠ .error (.inconsistent token) := by
  rw [bijection.resolve_eq]
  cases pair : cache.idToPath[id]? with
  | none => exact ⟨bijection, rfl, nofun⟩
  | some path => exact ⟨bijection.use ((bijection.inverse path id).mpr pair), rfl, nofun⟩

theorem of_decode (bijection : cache.IsBijection) (token : String) :
    (cache.decode token).2.IsBijection ∧ (cache.decode token).2.capacity = cache.capacity ∧
      ∀ other, (cache.decode token).1 ≠ .error (.inconsistent other) := by
  rw [decode]
  cases OpaqueId.decode? token with
  | none => exact ⟨bijection, rfl, nofun⟩
  | some id => exact bijection.of_resolve id

end IsBijection

end TokenCache

end Accessibility
