import Accessibility.Proofs.ChangeSet
import Accessibility.Proofs.Element.Normal
import Accessibility.Proofs.Path.Identity

/-!
# Changes that leave the identities

If the elements of a tree change but not its shape and not their identities, all of them keep their
paths.  The two snapshots then have roots under the same paths, so that no root is gone and none is
new: what has changed is reported as modified.
-/

namespace Accessibility

/-- Snapshots with the same paths have roots under the same paths. -/
theorem Snapshot.exists_rootAt?_iff {before after : Snapshot}
    (sameKeys : ∀ key, key ∈ before ↔ key ∈ after) (key : String) :
    (∃ element, before.rootAt? key = some element) ↔
      ∃ element, after.rootAt? key = some element := by
  rw [← mem_map_fst_roots_iff, ← mem_map_fst_roots_iff, mem_map_fst_roots_iff_mem,
    mem_map_fst_roots_iff_mem, sameKeys, hasAncestor_congr sameKeys]

namespace ChangeSet

variable {before after : Snapshot}

/-- If all roots were there before, the new elements are the modified ones, pruned. -/
theorem newElements_eq_map_modified
    (wereThere : ∀ key current, after.rootAt? key = some current →
      ∃ previous, before.rootAt? key = some previous) :
    (between before after).newElements =
      (between before after).modified.map fun modification =>
        modification.before.prune modification.after := by
  rw [between, List.map_filterMap]
  apply List.filterMap_congr
  rintro ⟨key, current⟩ isRoot
  rcases wereThere key current (Snapshot.mem_roots_iff.mp isRoot) with ⟨previous, wasRoot⟩
  simp only [newElement?, modification?, wasRoot]
  split <;> rfl

/-- A modified root had the same path before. -/
theorem path_eq_of_mem_modified (beforeKeyed : before.IsKeyed) (afterKeyed : after.IsKeyed)
    {modification : Modification} (listed : modification ∈ (between before after).modified) :
    modification.before.path = modification.after.path := by
  rcases mem_modified_iff.mp listed with ⟨key, current, isRoot, found⟩
  rcases modification?_eq_some_iff.mp found with ⟨wasRoot, rfl, _⟩
  rw [beforeKeyed.path_eq wasRoot, afterKeyed.path_eq isRoot]

end ChangeSet

namespace Element

variable {before after : Element}

/-- Trees with the same identities have snapshots with the same paths. -/
theorem mem_ofTree_generatePaths_iff
    (same : ∀ position : Position,
      (before.at? position).map identity = (after.at? position).map identity) (key : String) :
    key ∈ Snapshot.ofTree before.generatePaths ↔ key ∈ Snapshot.ofTree after.generatePaths := by
  have samePaths (position : Position) :
      (before.generatePaths.at? position).map path =
        (after.generatePaths.at? position).map path := by
    have sameThere := congrArg (Option.map Prod.fst) (map_at?_generatePaths_eq same position)
    rwa [Option.map_map, Option.map_map] at sameThere
  have sameKind : before.generatePaths.isSystemWide = after.generatePaths.isSystemWide := by
    rw [isSystemWide_generatePaths, isSystemWide_generatePaths]
    exact isSystemWide_eq_of_identity_eq (Option.some.inj (same []))
  rw [Snapshot.mem_ofTree_iff_mem_map_path, Snapshot.mem_ofTree_iff_mem_map_path,
    map_preorderAll_topLevel_eq_of_at? samePaths sameKind]

/-- Trees of the same shape, with the same identities at every position, get the same paths there,
whatever else they show and carry.  Between the two, no root is removed, the new elements are the
pruned copies of the modified ones, and every modified root has kept its path. -/
theorem generatePaths_of_identities_eq
    (same : ∀ position : Position,
      (before.at? position).map identity = (after.at? position).map identity) :
    (∀ position : Position,
      (before.generatePaths.at? position).map bookkeeping =
        (after.generatePaths.at? position).map bookkeeping) ∧
      let changes := ChangeSet.betweenTrees before.generatePaths after.generatePaths
      changes.removedPaths = [] ∧
        changes.newElements = changes.modified.map (fun modification =>
          modification.before.prune modification.after) ∧
        ∀ modification ∈ changes.modified,
          modification.before.path = modification.after.path := by
  have sameRoots := Snapshot.exists_rootAt?_iff (mem_ofTree_generatePaths_iff same)
  refine ⟨map_at?_generatePaths_eq same, ?_, ?_, ?_⟩
  · apply ChangeSet.removedPaths_eq_nil_iff.mpr
    intro key previous wasRoot
    exact (sameRoots key).mp ⟨previous, wasRoot⟩
  · apply ChangeSet.newElements_eq_map_modified
    intro key current isRoot
    exact (sameRoots key).mpr ⟨current, isRoot⟩
  · intro modification listed
    exact ChangeSet.path_eq_of_mem_modified (Snapshot.isKeyed_ofTree _) (Snapshot.isKeyed_ofTree _)
      listed

/-- Rows that cannot be told apart, under a role that cannot be written, get other values. -/
theorem generatePaths_of_identities_eq_other_values :
    let row : Element := { path := "row", properties := { role := "a/b", value := some "1" } }
    let table : Element := { properties := { role := "AXTable" }, children := [row, row] }
    let change (properties : Properties) := { properties with value := some "2" }
    let later := table.mapProperties change
    let changes := ChangeSet.betweenTrees table.generatePaths later.generatePaths
    (∀ position : Position,
      (table.at? position).map identity = (later.at? position).map identity) ∧
      changes.modified.length = 1 ∧ changes.removedPaths = [] ∧
      changes.newElements.map path = ["macos://ui/AXTable"] := by
  intro row table change later changes
  have keeps : identity ∘ mapProperties change = identity := by
    funext element
    cases element
    rfl
  have same (position : Position) :
      (table.at? position).map identity = (later.at? position).map identity := by
    rw [at?_mapProperties, Option.map_map, keeps]
  rcases generatePaths_of_identities_eq same with ⟨_, noneRemoved, pruned, _⟩
  refine ⟨same, ?_, noneRemoved, ?_⟩
  · decide
  · rw [pruned]
    decide

end Element

end Accessibility
