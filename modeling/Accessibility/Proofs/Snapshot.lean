import Accessibility.Proofs.OrderedMap
import Accessibility.Snapshot
import Mathlib.Data.List.Induction
import Mathlib.Data.List.Nodup

/-!
# Entries of snapshots

A snapshot made of entries under distinct paths has exactly these entries.  Its roots are those
found by a path that has no ancestor.
-/

namespace Accessibility

open Std

namespace Snapshot

variable {snapshot : Snapshot} {entries : List (String × Element)} {key : String}
  {element : Element}

/-! ## Snapshots made of entries -/

theorem ofEntries_append (entries : List (String × Element)) (last : String × Element) :
    ofEntries (entries ++ [last]) = (ofEntries entries).insert last.1 last.2 :=
  List.foldl_append

theorem mem_ofEntries_iff : key ∈ ofEntries entries ↔ key ∈ entries.map Prod.fst := by
  induction entries using List.reverseRecOn with
  | nil => simp [ofEntries]
  | append_singleton entries last ih =>
      rw [ofEntries_append, TreeMap.mem_insert, Std.compare_eq_iff_eq, ih, List.map_append,
        List.mem_append, List.map_singleton, List.mem_singleton, or_comm, eq_comm]

/-- Under distinct paths no entry takes the place of another. -/
theorem getElem?_ofEntries_eq_some_iff (distinct : (entries.map Prod.fst).Nodup) :
    (ofEntries entries)[key]? = some element ↔ (key, element) ∈ entries := by
  induction entries using List.reverseRecOn with
  | nil => simp [ofEntries]
  | append_singleton entries last ih =>
      rw [List.map_append, List.nodup_append] at distinct
      rcases distinct with ⟨distinctBefore, _, apart⟩
      have fresh : last.1 ∉ entries.map Prod.fst := fun earlier =>
        apart last.1 earlier last.1 (List.mem_singleton_self last.1) rfl
      rw [ofEntries_append, OrderedMap.getElem?_insert_eq, List.mem_append, List.mem_singleton,
        Prod.ext_iff]
      by_cases isLast : key = last.1
      · have absent : (key, element) ∉ entries := by
          intro earlier
          exact fresh (isLast ▸ List.mem_map_of_mem earlier)
        rw [if_pos isLast, or_iff_right absent]
        simp [isLast, eq_comm]
      · rw [if_neg isLast, ih distinctBefore]
        simp [isLast]

theorem mem_of_getElem?_ofEntries (found : (ofEntries entries)[key]? = some element) :
    (key, element) ∈ entries := by
  induction entries using List.reverseRecOn with
  | nil => simp [ofEntries] at found
  | append_singleton entries last ih =>
      rw [ofEntries_append, OrderedMap.getElem?_insert_eq] at found
      rw [List.mem_append, List.mem_singleton]
      split at found
      · rename_i isLast
        exact Or.inr (Prod.ext isLast (Option.some.inj found).symm)
      · exact Or.inl (ih found)

theorem size_ofEntries (distinct : (entries.map Prod.fst).Nodup) :
    (ofEntries entries).size = entries.length := by
  rw [OrderedMap.size_eq_length distinct fun key => mem_ofEntries_iff, List.length_map]

theorem mem_ofTree_iff_mem_map_path {root : Element} :
    key ∈ ofTree root ↔ key ∈ (Element.preorderAll root.topLevel).map Element.path := by
  rw [ofTree, mem_ofEntries_iff, List.map_map]
  rfl

/-! ## Roots -/

/-- Whether the roots carry the paths they are kept under. -/
def IsKeyed (snapshot : Snapshot) : Prop :=
  ∀ entry ∈ snapshot.roots, entry.2.path = entry.1

theorem hasAncestor_congr {one other : Snapshot} (sameKeys : ∀ key, key ∈ one ↔ key ∈ other)
    (key : String) : one.hasAncestor key = other.hasAncestor key := by
  have sameContains : one.contains = other.contains := by
    funext key
    rw [Bool.eq_iff_iff, TreeMap.contains_iff_mem, TreeMap.contains_iff_mem, sameKeys]
  rw [hasAncestor, hasAncestor, sameContains]

theorem mem_roots_iff : (key, element) ∈ snapshot.roots ↔ snapshot.rootAt? key = some element := by
  rw [roots, List.mem_filter, TreeMap.mem_toList_iff_getElem?_eq_some, rootAt?]
  cases snapshot.hasAncestor key <;> simp

theorem nodup_map_fst_roots (snapshot : Snapshot) : (snapshot.roots.map Prod.fst).Nodup := by
  have sublist : (snapshot.roots.map Prod.fst).Sublist (snapshot.toList.map Prod.fst) :=
    List.filter_sublist.map Prod.fst
  exact (OrderedMap.nodup_map_fst_toList snapshot).sublist sublist

theorem mem_map_fst_roots_iff :
    key ∈ snapshot.roots.map Prod.fst ↔ ∃ element, snapshot.rootAt? key = some element := by
  simp [← mem_roots_iff]

theorem rootAt?_eq_none_iff : snapshot.rootAt? key = none ↔ key ∉ snapshot.roots.map Prod.fst := by
  rw [mem_map_fst_roots_iff, Option.eq_none_iff_forall_ne_some, not_exists]

/-- A path is that of a root if it is in the snapshot and has no ancestor there. -/
theorem mem_map_fst_roots_iff_mem :
    key ∈ snapshot.roots.map Prod.fst ↔ key ∈ snapshot ∧ snapshot.hasAncestor key = false := by
  rw [mem_map_fst_roots_iff, TreeMap.mem_iff_isSome_getElem?, Option.isSome_iff_exists]
  cases hasOne : snapshot.hasAncestor key <;> simp [rootAt?, hasOne]

theorem isKeyed_ofTree (root : Element) : (ofTree root).IsKeyed := by
  rintro ⟨key, element⟩ isRoot
  have isEntry := TreeMap.mem_toList_iff_getElem?_eq_some.mp (List.mem_filter.mp isRoot).1
  obtain ⟨found, _, same⟩ := List.mem_map.mp (mem_of_getElem?_ofEntries isEntry)
  cases same
  rfl

theorem IsKeyed.path_eq (keyed : snapshot.IsKeyed) (isRoot : snapshot.rootAt? key = some element) :
    element.path = key :=
  keyed (key, element) (mem_roots_iff.mpr isRoot)

end Snapshot

end Accessibility
