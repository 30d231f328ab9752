import Std.Data.TreeMap.Lemmas

/-!
# Entries of ordered maps

The ordered maps behind the caches are seen through the lists of their entries: the least entry is
the first one, and a key behind all others goes to the end.  Two maps that lead to each other's keys
stay inverse when a pair leaves both or enters both.
-/

namespace Accessibility.OrderedMap

open Std

universe u v

section Entries

variable {α : Type u} {β : Type v} [Ord α]

theorem values_eq_map_toList (map : TreeMap α β) : map.values = map.toList.map Prod.snd := by
  change map.foldr (fun _ value values => value :: values) [] = map.toList.map Prod.snd
  rw [TreeMap.foldr_eq_foldr_toList]
  induction map.toList with
  | nil => rfl
  | cons entry entries ih => rw [List.foldr_cons, ih, List.map_cons]

/-- The least entry of a map is the first one. -/
theorem minEntry?_eq_head?_toList (map : TreeMap α β) : map.minEntry? = map.toList.head? := by
  rcases map with ⟨⟨tree, wellFormed⟩⟩
  change DTreeMap.Internal.Impl.Const.minEntry? tree =
    (DTreeMap.Internal.Impl.Const.toList tree).head?
  clear wellFormed
  rw [DTreeMap.Internal.Impl.Const.toList_eq_toListModel_map]
  -- The first entry of a tree is the first one of its left part, unless this is empty.
  induction tree using DTreeMap.Internal.Impl.Const.minEntry?.induct with
  | case1 => simp [DTreeMap.Internal.Impl.Const.minEntry?]
  | case2 => simp [DTreeMap.Internal.Impl.Const.minEntry?]
  | case3 _ _ _ _ _ _ _ _ _ ih =>
      rw [DTreeMap.Internal.Impl.Const.minEntry?, ih]
      simp

variable [TransOrd α]

theorem nodup_map_fst_toList (map : TreeMap α β) : (map.toList.map Prod.fst).Nodup := by
  rw [TreeMap.map_fst_toList_eq_keys]
  exact TreeMap.nodup_keys

variable [LawfulEqOrd α]

theorem mem_map_fst_toList {map : TreeMap α β} {key : α} :
    key ∈ map.toList.map Prod.fst ↔ key ∈ map := by
  rw [TreeMap.map_fst_toList_eq_keys, TreeMap.mem_keys]

variable [DecidableEq α]

@[simp]
theorem getElem?_erase_eq (map : TreeMap α β) (key other : α) :
    (map.erase key)[other]? = if other = key then none else map[other]? := by
  rw [TreeMap.getElem?_erase]
  by_cases same : other = key
  · simp [same]
  · simp [same, Ne.symm same]

@[simp]
theorem getElem?_insert_eq (map : TreeMap α β) (key other : α) (value : β) :
    (map.insert key value)[other]? = if other = key then some value else map[other]? := by
  rw [TreeMap.getElem?_insert]
  by_cases same : other = key
  · simp [same]
  · simp [same, Ne.symm same]

omit [DecidableEq α] in
/-- The size of a map is the length of any list of its keys. -/
theorem size_eq_length {map : TreeMap α β} {keys : List α} (distinct : keys.Nodup)
    (same : ∀ key, key ∈ map ↔ key ∈ keys) : map.size = keys.length := by
  have perm : (map.toList.map Prod.fst).Perm keys := by
    rw [List.perm_ext_iff_of_nodup (nodup_map_fst_toList map) distinct]
    intro key
    rw [mem_map_fst_toList, same]
  rw [← perm.length_eq, List.length_map, TreeMap.length_toList]

/-- A key behind all others goes to the end. -/
theorem toList_insert_of_forall_lt {map : TreeMap α β} {key : α} (value : β)
    (behind : ∀ other ∈ map, compare other key = .lt) :
    (map.insert key value).toList = map.toList ++ [(key, value)] := by
  have behindEntries : ∀ entry ∈ map.toList, compare entry.1 key = .lt :=
    fun entry member => behind entry.1 (mem_map_fst_toList.mp (List.mem_map_of_mem member))
  have sameEntries : (map.insert key value).toList.Perm (map.toList ++ [(key, value)]) := by
    have others : map.toList.filter (fun entry => ¬key == entry.1) = map.toList := by
      rw [List.filter_eq_self]
      intro entry member
      have before := behindEntries entry member
      apply decide_eq_true
      intro isKey
      rw [beq_iff_eq.mp isKey, compare_self] at before
      contradiction
    have inserted := TreeMap.toList_insert_perm (t := map) (k := key) (v := value)
    rw [others] at inserted
    exact inserted.trans (List.perm_append_singleton _ _).symm
  apply List.Perm.eq_of_pairwise _ TreeMap.ordered_keys_toList _ sameEntries
  · intro one other _ _ before after
    exact absurd after (OrientedCmp.not_lt_of_lt before)
  · rw [List.pairwise_append]
    refine ⟨TreeMap.ordered_keys_toList, List.pairwise_singleton _ _, ?_⟩
    intro entry member last isLast
    rw [List.mem_singleton.mp isLast]
    exact behindEntries entry member

end Entries

/-! ## Inverse maps -/

/-- Whether two maps lead to each other's keys. -/
def AreInverse {α : Type u} {β : Type v} [Ord α] [Ord β] (map : TreeMap α β)
    (back : TreeMap β α) : Prop :=
  ∀ (key : α) (value : β), map[key]? = some value ↔ back[value]? = some key

namespace AreInverse

variable {α : Type u} {β : Type v} [Ord α] [TransOrd α] [LawfulEqOrd α] [DecidableEq α]
  [Ord β] [TransOrd β] [LawfulEqOrd β] [DecidableEq β] {map : TreeMap α β} {back : TreeMap β α}
  {key : α} {value : β}

/-- Inverse maps stay so without a pair. -/
theorem erase (inverse : AreInverse map back) (pair : map[key]? = some value) :
    AreInverse (map.erase key) (back.erase value) := by
  intro other otherValue
  rw [getElem?_erase_eq, getElem?_erase_eq, Option.ite_none_left_eq_some,
    Option.ite_none_left_eq_some, ← inverse]
  apply and_congr_left
  intro held
  apply not_congr
  constructor
  · rintro rfl
    exact Option.some.inj (held.symm.trans pair)
  · rintro rfl
    rw [inverse] at held pair
    exact Option.some.inj (held.symm.trans pair)

/-- Inverse maps stay so with a new pair. -/
theorem insert (inverse : AreInverse map back) (newKey : key ∉ map) (newValue : value ∉ back) :
    AreInverse (map.insert key value) (back.insert value key) := by
  intro other otherValue
  rw [getElem?_insert_eq, getElem?_insert_eq]
  by_cases isKey : other = key
  · by_cases isValue : otherValue = value
    · simp [isKey, isValue]
    · have absent : back[otherValue]? ≠ some key := by
        intro held
        rw [← inverse, TreeMap.getElem?_eq_none newKey] at held
        contradiction
      simp [isKey, isValue, Ne.symm isValue, absent]
  · by_cases isValue : otherValue = value
    · have absent : map[other]? ≠ some value := by
        intro held
        rw [inverse, TreeMap.getElem?_eq_none newValue] at held
        contradiction
      simp [isKey, Ne.symm isKey, isValue, absent]
    · rw [if_neg isKey, if_neg isValue]
      exact inverse other otherValue

end AreInverse

end Accessibility.OrderedMap
