import Accessibility.Proofs.ChangeSet
import Accessibility.Proofs.Element.Symmetry
import Accessibility.Proofs.Snapshot.Listing
import Accessibility.Proofs.Text.ByteOrder
import Mathlib.Data.List.Sort

/-!
# Change sets the other way round

A change set is the same in whatever order the entries of the two snapshots are listed, and what it
lists comes in the order of the keys of the roots.  The changes back from the later snapshot remove
the roots that are wholly new and have the same modifications the other way round.
-/

namespace Accessibility

open Std

/-- The modification the other way round. -/
def Modification.swap (modification : Modification) : Modification :=
  ⟨modification.after, modification.before⟩

namespace ChangeSet

variable {before after : Snapshot} {listed later : List (String × Element)} {key : String}

/-! ## Listed entries -/

/-- Adds what a root of the later snapshot tells beside the roots of the earlier one. -/
def record (earlier : TreeMap String Element) (changes : ChangeSet) (entry : String × Element) :
    ChangeSet :=
  match earlier[entry.1]? with
  | none => { changes with newElements := changes.newElements ++ [entry.2] }
  | some previous =>
      if previous.changed entry.2 then
        { changes with
          newElements := changes.newElements ++ [previous.prune entry.2]
          modified := changes.modified ++ [⟨previous, entry.2⟩] }
      else
        changes

/-- The changes between two snapshots whose entries are listed in some order, root by root. -/
def betweenListed (listed later : List (String × Element)) : ChangeSet :=
  let earlier := Snapshot.gatherRoots listed
  let current := Snapshot.gatherRoots later
  { current.toList.foldl (record earlier) {} with
    removedPaths := earlier.keys.filter fun path => !current.contains path }

theorem record_eq {earlier : TreeMap String Element}
    (areRoots : ∀ key, earlier[key]? = before.rootAt? key) (changes : ChangeSet)
    (entry : String × Element) :
    record earlier changes entry =
      { changes with
        newElements := changes.newElements ++ (newElement? before entry.1 entry.2).toList
        modified := changes.modified ++ (modification? before entry.1 entry.2).toList } := by
  rw [record, newElement?, modification?, areRoots]
  cases before.rootAt? entry.1 with
  | none => simp
  | some previous => cases isChanged : previous.changed entry.2 <;> simp [isChanged]

/-- After any number of roots the lists hold what these tell, in their order. -/
theorem foldl_record {earlier : TreeMap String Element}
    (areRoots : ∀ key, earlier[key]? = before.rootAt? key) (changes : ChangeSet)
    (entries : List (String × Element)) :
    entries.foldl (record earlier) changes =
      { changes with
        newElements := changes.newElements ++
          entries.filterMap fun entry => newElement? before entry.1 entry.2
        modified := changes.modified ++
          entries.filterMap fun entry => modification? before entry.1 entry.2 } := by
  induction entries generalizing changes with
  | nil => simp
  | cons entry rest ih =>
      rw [List.foldl_cons, ih, record_eq areRoots]
      simp only [List.filterMap_eq_flatMap_toList, List.flatMap_cons, List.append_assoc]

/-- The changes are the same in whatever order the entries are listed. -/
theorem betweenListed_eq (isListing : listed.Perm before.toList)
    (isLaterListing : later.Perm after.toList) :
    betweenListed listed later = between before after := by
  have keys : (Snapshot.gatherRoots listed).keys = before.roots.map Prod.fst := by
    rw [← TreeMap.map_fst_toList_eq_keys, Snapshot.toList_gatherRoots isListing]
  have removed (path : String) :
      (!(Snapshot.gatherRoots later).contains path) = (after.rootAt? path).isNone := by
    rw [TreeMap.contains_eq_isSome_getElem?, Snapshot.getElem?_gatherRoots isLaterListing,
      Option.not_isSome]
  simp only [betweenListed, between, foldl_record (Snapshot.getElem?_gatherRoots isListing),
    Snapshot.toList_gatherRoots isLaterListing, keys, removed, List.nil_append]

/-! ## The keys of the roots -/

/-- Whether the entries are the new elements and the modifications under the keys of their roots. -/
structure AreUnderRoots (before after : Snapshot) (added : Dictionary Element)
    (altered : Dictionary Modification) : Prop where
  newElements : (between before after).newElements = added.entries.map Prod.snd
  modified : (between before after).modified = altered.entries.map Prod.snd
  /-- A new element is a root that was not there, whole, or what is left of a changed one. -/
  isNew : ∀ key element, (key, element) ∈ added.entries ↔
    ∃ current, (key, current) ∈ after.roots ∧
      (key ∉ before.roots.map Prod.fst ∧ current = element ∨
        ∃ previous, (key, previous) ∈ before.roots ∧ previous.changed current = true ∧
          previous.prune current = element)
  /-- A modification holds the two states of a root that has changed. -/
  isModified : ∀ key modification, (key, modification) ∈ altered.entries ↔
    (key, modification.before) ∈ before.roots ∧ (key, modification.after) ∈ after.roots ∧
      modification.before.changed modification.after = true

/-- The new elements under the keys of their roots. -/
def newRoots (before after : Snapshot) : Dictionary Element :=
  after.rootDictionary.filterMap (newElement? before)

/-- The modifications under the keys of their roots. -/
def modifiedRoots (before after : Snapshot) : Dictionary Modification :=
  after.rootDictionary.filterMap (modification? before)

theorem get?_newRoots_eq_some_iff {element : Element} :
    (newRoots before after).get? key = some element ↔
      ∃ current, after.rootAt? key = some current ∧
        newElement? before key current = some element := by
  rw [newRoots, Dictionary.get?_filterMap, Snapshot.get?_rootDictionary, Option.bind_eq_some_iff]

theorem get?_modifiedRoots_eq_some_iff {modification : Modification} :
    (modifiedRoots before after).get? key = some modification ↔
      before.rootAt? key = some modification.before ∧
        after.rootAt? key = some modification.after ∧
        modification.before.changed modification.after = true := by
  rw [modifiedRoots, Dictionary.get?_filterMap, Snapshot.get?_rootDictionary,
    Option.bind_eq_some_iff]
  constructor
  · rintro ⟨current, isRoot, found⟩
    rcases modification?_eq_some_iff.mp found with ⟨wasRoot, rfl, changed⟩
    exact ⟨wasRoot, isRoot, changed⟩
  · rintro ⟨wasRoot, isRoot, changed⟩
    exact ⟨modification.after, isRoot, modification?_eq_some_iff.mpr ⟨wasRoot, rfl, changed⟩⟩

theorem areUnderRoots (before after : Snapshot) :
    AreUnderRoots before after (newRoots before after) (modifiedRoots before after) where
  newElements :=
    (Dictionary.map_snd_entries_filterMap (newElement? before) after.rootDictionary).symm
  modified :=
    (Dictionary.map_snd_entries_filterMap (modification? before) after.rootDictionary).symm
  isNew key element := by
    simp only [← Dictionary.get?_eq_some_iff, get?_newRoots_eq_some_iff, newElement?_eq_some_iff,
      Snapshot.rootAt?_eq_none_iff, Snapshot.mem_roots_iff]
  isModified key modification := by
    rw [← Dictionary.get?_eq_some_iff, get?_modifiedRoots_eq_some_iff, Snapshot.mem_roots_iff,
      Snapshot.mem_roots_iff]

theorem pairwise_removedPaths (before after : Snapshot) :
    (between before after).removedPaths.Pairwise (· < ·) :=
  before.pairwise_map_fst_roots.sublist List.filter_sublist

/-! ## The other way round -/

/-- The modifications the other way round are under the same keys. -/
theorem modifiedRoots_swap (before after : Snapshot) :
    modifiedRoots after before =
      (modifiedRoots before after).filterMap fun _ modification => some modification.swap := by
  apply Dictionary.eq_of_get?_eq
  intro key
  ext modification
  rw [Dictionary.get?_filterMap, Option.bind_eq_some_iff, get?_modifiedRoots_eq_some_iff,
    Element.changed_comm]
  constructor
  · rintro ⟨isRoot, wasRoot, changed⟩
    exact ⟨modification.swap, get?_modifiedRoots_eq_some_iff.mpr ⟨wasRoot, isRoot, changed⟩, rfl⟩
  · rintro ⟨reverse, found, same⟩
    cases same
    rcases get?_modifiedRoots_eq_some_iff.mp found with ⟨wasRoot, isRoot, changed⟩
    exact ⟨isRoot, wasRoot, changed⟩

theorem modified_between_swap (before after : Snapshot) :
    (between after before).modified = (between before after).modified.map Modification.swap := by
  rw [(areUnderRoots after before).modified, (areUnderRoots before after).modified,
    modifiedRoots_swap, Dictionary.map_snd_entries_filterMap, List.map_map, ← List.filterMap_eq_map]
  rfl

/-- The changes back remove the new roots that were not there. -/
theorem removedPaths_between_swap (before after : Snapshot) :
    (between after before).removedPaths =
      (newRoots before after).names.filter fun key => key ∉ before.roots.map Prod.fst := by
  have inOrder := (newRoots before after).pairwise_names
  apply (pairwise_removedPaths after before).eq_of_mem_iff (inOrder.sublist List.filter_sublist)
  intro key
  rw [mem_removedPaths_iff, List.mem_filter, Dictionary.mem_names_iff, decide_eq_true_eq,
    Snapshot.rootAt?_eq_none_iff]
  apply and_congr_left
  intro wasAbsent
  simp only [get?_newRoots_eq_some_iff, newElement?_eq_some_iff, Snapshot.rootAt?_eq_none_iff]
  constructor
  · rintro ⟨current, isRoot⟩
    exact ⟨current, current, isRoot, Or.inl ⟨wasAbsent, rfl⟩⟩
  · rintro ⟨_, current, isRoot, _⟩
    exact ⟨current, isRoot⟩

theorem hasChanges_between_swap (before after : Snapshot) :
    (between after before).hasChanges = (between before after).hasChanges := by
  have unchanged {before after : Snapshot} (same : (between before after).hasChanges = false) :
      (between after before).hasChanges = false := by
    rw [hasChanges_eq_false_iff] at same ⊢
    rcases same with ⟨sameKeys, agree⟩
    constructor
    · intro key
      exact (sameKeys key).symm
    · intro key current previous isRoot wasRoot
      exact (agree key previous current wasRoot isRoot).symm
  rw [Bool.eq_iff_iff, ← not_iff_not, Bool.not_eq_true, Bool.not_eq_true]
  exact ⟨unchanged, unchanged⟩

/-- A change set does not depend on the order in which the entries are listed, its lists come in the
byte order of the keys of the roots, and the changes back remove what is wholly new and modify the
same roots the other way round. -/
theorem between_antisymmetric (before after : Snapshot) :
    let changes := between before after
    let reverse := between after before
    (∀ listed later : List (String × Element), listed.Perm before.toList →
      later.Perm after.toList → betweenListed listed later = changes) ∧
      ∃ (added : Dictionary Element) (altered : Dictionary Modification),
        AreUnderRoots before after added altered ∧
          Text.IsIncreasing changes.removedPaths ∧ Text.IsIncreasing added.names ∧
          Text.IsIncreasing altered.names ∧
          reverse.removedPaths = added.names.filter (fun key => key ∉ before.roots.map Prod.fst) ∧
          reverse.modified = changes.modified.map Modification.swap ∧
          reverse.hasChanges = changes.hasChanges := by
  intro changes reverse
  have increasing {α : Type} (dictionary : Dictionary α) : Text.IsIncreasing dictionary.names :=
    Text.isIncreasing_iff.mpr dictionary.pairwise_names
  constructor
  · intro listed later isListing isLaterListing
    exact betweenListed_eq isListing isLaterListing
  · exact ⟨newRoots before after, modifiedRoots before after, areUnderRoots before after,
      Text.isIncreasing_iff.mpr (pairwise_removedPaths before after),
      increasing _, increasing _, removedPaths_between_swap before after,
      modified_between_swap before after, hasChanges_between_swap before after⟩

end ChangeSet

end Accessibility
