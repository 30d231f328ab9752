import Accessibility.Proofs.Dictionary
import Accessibility.Proofs.Snapshot
import Mathlib.Data.String.Basic

/-!
# Snapshots as their entries are listed

The entries of a snapshot can be listed in any order.  The roots among them are gathered in an
ordered map, which lists them in the order of their keys whatever the order before was.
-/

namespace Accessibility

open Std

universe u

/-- The entries of a map from texts as a dictionary. -/
def OrderedMap.toDictionary {α : Type u} (map : TreeMap String α) : Dictionary α where
  entries := map.toList
  ordered := by
    have ordered := TreeMap.ordered_keys_toList (t := map)
    exact ordered.imp fun earlier => compareOfLessAndEq_eq_lt.mp earlier

theorem OrderedMap.get?_toDictionary {α : Type u} (map : TreeMap String α) (key : String) :
    (toDictionary map).get? key = map[key]? := by
  ext value
  rw [Dictionary.get?_eq_some_iff, ← TreeMap.mem_toList_iff_getElem?_eq_some, toDictionary]

namespace Snapshot

variable {snapshot : Snapshot} {listed : List (String × Element)}

/-- The roots as a dictionary. -/
def rootDictionary (snapshot : Snapshot) : Dictionary Element where
  entries := snapshot.roots
  ordered := (OrderedMap.toDictionary snapshot).ordered.sublist List.filter_sublist

theorem get?_rootDictionary (snapshot : Snapshot) (key : String) :
    snapshot.rootDictionary.get? key = snapshot.rootAt? key := by
  ext element
  rw [Dictionary.get?_eq_some_iff, ← mem_roots_iff, rootDictionary]

theorem pairwise_map_fst_roots (snapshot : Snapshot) :
    (snapshot.roots.map Prod.fst).Pairwise (· < ·) :=
  snapshot.rootDictionary.pairwise_names

/-! ## Roots of listed entries -/

/-- The roots among entries as they are listed, gathered in an ordered map. -/
def gatherRoots (listed : List (String × Element)) : TreeMap String Element :=
  ofEntries (listed.filter fun entry => !(ofEntries listed).hasAncestor entry.1)

theorem hasAncestor_ofEntries (isListing : listed.Perm snapshot.toList) (key : String) :
    (ofEntries listed).hasAncestor key = snapshot.hasAncestor key := by
  apply hasAncestor_congr
  intro other
  rw [mem_ofEntries_iff, (isListing.map Prod.fst).mem_iff, OrderedMap.mem_map_fst_toList]

/-- The gathered roots are those found by a path, in whatever order the entries are listed. -/
theorem getElem?_gatherRoots (isListing : listed.Perm snapshot.toList) (key : String) :
    (gatherRoots listed)[key]? = snapshot.rootAt? key := by
  have distinct : (listed.map Prod.fst).Nodup :=
    (isListing.map Prod.fst).nodup_iff.mpr (OrderedMap.nodup_map_fst_toList snapshot)
  have distinctRoots :
      ((listed.filter fun entry => !(ofEntries listed).hasAncestor entry.1).map Prod.fst).Nodup :=
    distinct.sublist (List.filter_sublist.map Prod.fst)
  ext element
  rw [gatherRoots, getElem?_ofEntries_eq_some_iff distinctRoots, ← mem_roots_iff, roots,
    List.mem_filter, List.mem_filter, isListing.mem_iff, hasAncestor_ofEntries isListing]

theorem toList_gatherRoots (isListing : listed.Perm snapshot.toList) :
    (gatherRoots listed).toList = snapshot.roots := by
  have same : OrderedMap.toDictionary (gatherRoots listed) = snapshot.rootDictionary := by
    apply Dictionary.eq_of_get?_eq
    intro key
    rw [OrderedMap.get?_toDictionary, getElem?_gatherRoots isListing, get?_rootDictionary]
  exact congrArg Dictionary.entries same

end Snapshot

end Accessibility
