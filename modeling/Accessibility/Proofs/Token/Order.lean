import Accessibility.Proofs.Token.Bijection

/-!
# Pairs in the order of use

The pairs of the cache of identifiers form a list, the one used last in front.  A use moves a pair
to the front, a new pair goes there, and the last pair makes room.
-/

namespace Accessibility

open Std

namespace TokenCache

variable {cache : TokenCache} {pairs : List (String × OpaqueId)} {path : String} {id : OpaqueId}

/-- Whether the pairs of a cache, from the one used last on, are those of a list. -/
structure ListsPairs (cache : TokenCache) (pairs : List (String × OpaqueId)) : Prop where
  bijection : cache.IsBijection
  ids : cache.recency.newestFirst = pairs.map Prod.snd
  found : ∀ path id, cache.pathToId[path]? = some id ↔ (path, id) ∈ pairs

theorem listsPairs_ofCapacity (size : Nat) : (ofCapacity size).ListsPairs [] where
  bijection := isBijection_ofCapacity size
  ids := Recency.newestFirst_clear {}
  found := by simp [ofCapacity]

theorem listsPairs_clear (cache : TokenCache) : cache.clear.ListsPairs [] where
  bijection := isBijection_clear cache
  ids := Recency.newestFirst_clear cache.recency
  found := by simp [clear]

namespace ListsPairs

theorem idToPath_eq_some_iff (lists : cache.ListsPairs pairs) :
    cache.idToPath[id]? = some path ↔ (path, id) ∈ pairs := by
  rw [← lists.bijection.inverse, lists.found]

theorem mem_iff (lists : cache.ListsPairs pairs) :
    path ∈ cache.pathToId ↔ path ∈ pairs.map Prod.fst := by
  rw [TreeMap.mem_iff_isSome_getElem?, Option.isSome_iff_exists, List.mem_map, Prod.exists]
  simp only [lists.found]
  constructor
  · rintro ⟨id, member⟩
    exact ⟨path, id, member, rfl⟩
  · rintro ⟨_, id, member, rfl⟩
    exact ⟨id, member⟩

theorem nodup_ids (lists : cache.ListsPairs pairs) : (pairs.map Prod.snd).Nodup := by
  rw [← lists.ids]
  exact Recency.nodup_newestFirst lists.bijection.consistent

/-- In a list of pairs, the others under paths are the others under identifiers. -/
theorem snd_eq_iff (lists : cache.ListsPairs pairs) (member : (path, id) ∈ pairs)
    {other : String × OpaqueId} (otherMember : other ∈ pairs) : other.2 = id ↔ other.1 = path := by
  rw [← lists.found] at member
  rcases other with ⟨otherPath, otherId⟩
  rw [← lists.found] at otherMember
  constructor
  · rintro rfl
    rw [lists.bijection.inverse] at member otherMember
    exact Option.some.inj (otherMember.symm.trans member)
  · rintro rfl
    exact Option.some.inj (otherMember.symm.trans member)

theorem nodup_paths (lists : cache.ListsPairs pairs) : (pairs.map Prod.fst).Nodup := by
  apply List.Nodup.map_on _ (lists.nodup_ids.of_map Prod.snd)
  rintro ⟨one, oneId⟩ member ⟨other, otherId⟩ otherMember same
  have sameId : otherId = oneId := (lists.snd_eq_iff member otherMember).mpr same.symm
  exact Prod.ext same sameId.symm

theorem size_eq (lists : cache.ListsPairs pairs) : cache.size = pairs.length := by
  rw [size, OrderedMap.size_eq_length lists.nodup_paths fun _ => lists.mem_iff, List.length_map]

theorem use (lists : cache.ListsPairs pairs) (member : (path, id) ∈ pairs) :
    (cache.use id).ListsPairs ((path, id) :: pairs.filter fun pair => pair.1 ≠ path) where
  bijection := lists.bijection.use ((lists.found path id).mpr member)
  ids := by
    have same :
        pairs.filter (fun pair => pair.2 ≠ id) = pairs.filter fun pair => pair.1 ≠ path := by
      apply List.filter_congr
      intro other otherMember
      rw [decide_eq_decide]
      exact not_congr (lists.snd_eq_iff member otherMember)
    rw [TokenCache.use, Recency.newestFirst_touch lists.bijection.consistent, lists.ids,
      List.filter_map, ← same]
    rfl
  found := by
    intro other otherId
    change cache.pathToId[other]? = some otherId ↔ _
    rw [lists.found, List.mem_cons, List.mem_filter, decide_eq_true_eq, Prod.mk.injEq]
    by_cases isPath : other = path
    · subst isPath
      constructor
      · intro otherMember
        exact Or.inl ⟨rfl, (lists.snd_eq_iff member otherMember).mpr rfl⟩
      · rintro (⟨_, rfl⟩ | ⟨_, apart⟩)
        · exact member
        · contradiction
    · simp [isPath]

/-- The last pair is the one that makes room. -/
theorem evict (lists : cache.ListsPairs (pairs ++ [(path, id)])) :
    cache.evict.ListsPairs pairs := by
  have pair : cache.pathToId[path]? = some id := (lists.found path id).mpr (by simp)
  have back : cache.idToPath[id]? = some path := (lists.bijection.inverse path id).mp pair
  have evicted : cache.evict = cache.forget path id := by
    rw [TokenCache.evict, Recency.popOldest?_eq lists.bijection.consistent, lists.ids]
    simp [back, TokenCache.forget]
  have distinct := lists.nodup_ids
  have distinctPaths := lists.nodup_paths
  rw [List.map_append, List.nodup_append] at distinct distinctPaths
  rw [evicted]
  constructor
  · exact lists.bijection.forget pair
  · rw [TokenCache.forget, Recency.newestFirst_remove lists.bijection.consistent, lists.ids,
      List.map_append, List.filter_append, List.filter_eq_self.mpr]
    · simp
    · intro other member
      exact decide_eq_true (distinct.2.2 other member id (by simp))
  · intro other otherId
    rw [TokenCache.forget, OrderedMap.getElem?_erase_eq, Option.ite_none_left_eq_some, lists.found,
      List.mem_append, List.mem_singleton, Prod.mk.injEq]
    constructor
    · rintro ⟨apart, inFront | ⟨same, _⟩⟩
      · exact inFront
      · exact absurd same apart
    · intro inFront
      exact ⟨distinctPaths.2.2 other (List.mem_map_of_mem inFront) path (by simp), Or.inl inFront⟩

/-- Making room keeps as many pairs as leave room for another one. -/
theorem makeRoom (lists : cache.ListsPairs pairs) :
    cache.makeRoom.ListsPairs (pairs.take (cache.capacity.size - 1)) := by
  have size := lists.size_eq
  have within := lists.bijection.within
  have positive := cache.capacity.size_pos
  rw [TokenCache.size] at size within
  rw [TokenCache.makeRoom]
  split
  · rename_i full
    rcases pairs.eq_nil_or_concat with rfl | ⟨front, ⟨path, id⟩, rfl⟩
    · rw [List.length_nil] at size
      omega
    · rw [List.concat_eq_append] at lists size ⊢
      rw [List.length_append, List.length_singleton] at size
      rw [List.take_left' (by omega)]
      exact lists.evict
  · rw [List.take_of_length_le (by omega)]
    exact lists

theorem bind (lists : cache.ListsPairs pairs) (newPath : path ∉ cache.pathToId)
    (newId : id ∉ cache.idToPath) (room : cache.size < cache.capacity.size) :
    (cache.bind path id).ListsPairs ((path, id) :: pairs) where
  bijection := lists.bijection.bind newPath newId room
  ids := by
    have absent : id ∉ pairs.map Prod.snd := by
      rw [← lists.ids, lists.bijection.live]
      exact newId
    rw [TokenCache.bind, Recency.newestFirst_touch lists.bijection.consistent, lists.ids,
      List.filter_eq_self.mpr]
    · rfl
    · rintro other member
      apply decide_eq_true
      rintro rfl
      exact absent member
  found := by
    intro other otherId
    rw [TokenCache.bind, OrderedMap.getElem?_insert_eq, List.mem_cons, ← lists.found, Prod.mk.injEq]
    by_cases isPath : other = path
    · subst isPath
      simp [TreeMap.getElem?_eq_none newPath, eq_comm]
    · simp [isPath]

/-- A token leads to a path exactly if it is the token of its identifier. -/
theorem decode_eq_ok_iff (lists : cache.ListsPairs pairs) {token : String} :
    (cache.decode token).1 = .ok path ↔ ∃ id, token = id.encode ∧ (path, id) ∈ pairs := by
  rw [decode]
  cases read : OpaqueId.decode? token with
  | none =>
      constructor
      · intro leads
        cases leads
      · rintro ⟨id, rfl, _⟩
        rw [OpaqueId.decode?_encode] at read
        contradiction
  | some id =>
      obtain rfl := OpaqueId.decode?_eq_some_iff.mp read
      simp only [lists.bijection.resolve_eq, OpaqueId.encode_injective.eq_iff, exists_eq_left',
        ← lists.idToPath_eq_some_iff]
      cases cache.idToPath[id]? <;> simp

/-- A token that leads nowhere changes nothing. -/
theorem decode_of_error (lists : cache.ListsPairs pairs) {token : String} {error : TokenError}
    (fails : (cache.decode token).1 = .error error) :
    cache.decode token = (.error error, cache) := by
  rw [decode] at fails ⊢
  cases read : OpaqueId.decode? token with
  | none =>
      rw [read] at fails
      cases fails
      rfl
  | some id =>
      rw [read] at fails
      simp only [lists.bijection.resolve_eq] at fails ⊢
      cases pair : cache.idToPath[id]? with
      | none =>
          rw [pair] at fails
          cases fails
          rfl
      | some path =>
          rw [pair] at fails
          contradiction

end ListsPairs

end TokenCache

end Accessibility
