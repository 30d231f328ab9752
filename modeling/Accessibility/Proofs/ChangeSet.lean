import Accessibility.Proofs.Element.Agreement
import Accessibility.Proofs.Element.Equality
import Accessibility.Proofs.Snapshot

/-!
# Change sets applied

What a change set says is enough to get from the roots of one snapshot to those of the other, and
it says nothing about roots that are as before.
-/

namespace Accessibility

theorem Element.path_prune (before after : Element) : (before.prune after).path = after.path := by
  cases after
  rfl

namespace ChangeSet

variable {before after : Snapshot} {key : String} {element : Element}

/-- The modification of the root that was under a path. -/
def modificationOf? (changes : ChangeSet) (path : String) : Option Modification :=
  changes.modified.find? fun modification => modification.before.path = path

/-- The root under a path after the changes. -/
def replaced (changes : ChangeSet) (entry : String × Element) : String × Element :=
  match changes.modificationOf? entry.1 with
  | some modification => (entry.1, modification.after)
  | none => entry

/-- The roots after the changes: those that are not removed, with the later state of the modified
ones, and the new elements that are not the pruned copy of a modified root. -/
def applyTo (changes : ChangeSet) (roots : List (String × Element)) : List (String × Element) :=
  (roots.filter fun entry => entry.1 ∉ changes.removedPaths).map changes.replaced ++
    (changes.newElements.filter fun element => (changes.modificationOf? element.path).isNone).map
      fun element => (element.path, element)

/-! ## What is in a change set -/

theorem mem_removedPaths_iff :
    key ∈ (between before after).removedPaths ↔
      (∃ previous, before.rootAt? key = some previous) ∧ after.rootAt? key = none := by
  rw [between, List.mem_filter, Snapshot.mem_map_fst_roots_iff, Option.isNone_iff_eq_none]

theorem modification?_eq_some_iff {current : Element} {modification : Modification} :
    modification? before key current = some modification ↔
      before.rootAt? key = some modification.before ∧ current = modification.after ∧
        modification.before.changed modification.after = true := by
  rcases modification with ⟨earlier, later⟩
  rw [modification?]
  cases before.rootAt? key with
  | none => simp
  | some previous =>
      simp only [Option.ite_none_right_eq_some, Option.some.injEq, Modification.mk.injEq]
      constructor
      · rintro ⟨changed, rfl, rfl⟩
        exact ⟨rfl, rfl, changed⟩
      · rintro ⟨rfl, rfl, changed⟩
        exact ⟨changed, rfl, rfl⟩

theorem mem_modified_iff {modification : Modification} :
    modification ∈ (between before after).modified ↔
      ∃ key current, after.rootAt? key = some current ∧
        modification? before key current = some modification := by
  simp [between, List.mem_filterMap, Snapshot.mem_roots_iff]

theorem newElement?_eq_some_iff {current : Element} :
    newElement? before key current = some element ↔
      before.rootAt? key = none ∧ current = element ∨
        ∃ previous, before.rootAt? key = some previous ∧ previous.changed current = true ∧
          previous.prune current = element := by
  rw [newElement?]
  cases before.rootAt? key with
  | none => simp
  | some previous => simp

theorem path_of_newElement? {current : Element}
    (found : newElement? before key current = some element) : element.path = current.path := by
  rcases newElement?_eq_some_iff.mp found with ⟨_, rfl⟩ | ⟨previous, _, _, rfl⟩
  · rfl
  · exact Element.path_prune previous current

theorem mem_newElements_iff :
    element ∈ (between before after).newElements ↔
      ∃ key current, after.rootAt? key = some current ∧
        newElement? before key current = some element := by
  simp [between, List.mem_filterMap, Snapshot.mem_roots_iff]

/-- The modification of a root is listed under no other path. -/
theorem bind_modification?_eq_some (beforeKeyed : before.IsKeyed) {modification : Modification}
    (listed : modification ∈ (between before after).modified)
    (samePath : modification.before.path = key) :
    (after.rootAt? key).bind (modification? before key) = some modification := by
  rcases mem_modified_iff.mp listed with ⟨other, current, isRoot, found⟩
  rcases modification?_eq_some_iff.mp found with ⟨wasRoot, _, _⟩
  obtain rfl : other = key := (beforeKeyed.path_eq wasRoot).symm.trans samePath
  rw [isRoot, Option.bind_some, found]

theorem modificationOf?_eq (beforeKeyed : before.IsKeyed) (key : String) :
    (between before after).modificationOf? key =
      (after.rootAt? key).bind (modification? before key) := by
  cases first : (between before after).modificationOf? key with
  | some modification =>
      rw [bind_modification?_eq_some beforeKeyed (List.mem_of_find?_eq_some first)]
      simpa using List.find?_some first
  | none =>
      symm
      rw [Option.eq_none_iff_forall_ne_some]
      intro modification bound
      rcases Option.bind_eq_some_iff.mp bound with ⟨current, isRoot, found⟩
      rcases modification?_eq_some_iff.mp found with ⟨wasRoot, _, _⟩
      have listed := mem_modified_iff.mpr ⟨key, current, isRoot, found⟩
      have differs := List.find?_eq_none.mp first modification listed
      exact differs (decide_eq_true (beforeKeyed.path_eq wasRoot))

/-! ## The roots after the changes -/

theorem replaced_eq (beforeKeyed : before.IsKeyed) {previous current : Element}
    (wasRoot : before.rootAt? key = some previous) (isRoot : after.rootAt? key = some current) :
    (between before after).replaced (key, previous) =
      (key, if previous.changed current then current else previous) := by
  rw [replaced, modificationOf?_eq beforeKeyed, isRoot, Option.bind_some, modification?]
  simp only [wasRoot]
  cases previous.changed current <;> rfl

/-- The roots that stay are those of both snapshots. -/
theorem mem_map_replaced_iff (beforeKeyed : before.IsKeyed) :
    (key, element) ∈ (before.roots.filter fun entry =>
        entry.1 ∉ (between before after).removedPaths).map (between before after).replaced ↔
      ∃ previous current, before.rootAt? key = some previous ∧
        after.rootAt? key = some current ∧
        (if previous.changed current then current else previous) = element := by
  rw [List.mem_map]
  constructor
  · rintro ⟨⟨other, previous⟩, kept, same⟩
    rw [List.mem_filter, Snapshot.mem_roots_iff, decide_eq_true_eq, mem_removedPaths_iff] at kept
    rcases kept with ⟨wasRoot, notRemoved⟩
    obtain ⟨current, isRoot⟩ : ∃ current, after.rootAt? other = some current := by
      rw [← Option.ne_none_iff_exists']
      exact fun absent => notRemoved ⟨⟨previous, wasRoot⟩, absent⟩
    rw [replaced_eq beforeKeyed wasRoot isRoot] at same
    cases same
    exact ⟨previous, current, wasRoot, isRoot, rfl⟩
  · rintro ⟨previous, current, wasRoot, isRoot, rfl⟩
    refine ⟨(key, previous), ?_, replaced_eq beforeKeyed wasRoot isRoot⟩
    rw [List.mem_filter, Snapshot.mem_roots_iff, decide_eq_true_eq, mem_removedPaths_iff]
    refine ⟨wasRoot, ?_⟩
    rintro ⟨_, absent⟩
    rw [isRoot] at absent
    cases absent

/-- The new elements that are no pruned copies are the roots that were not there before. -/
theorem mem_newElements_without_modification_iff (beforeKeyed : before.IsKeyed)
    (afterKeyed : after.IsKeyed) :
    element ∈ (between before after).newElements ∧
        (between before after).modificationOf? element.path = none ↔
      after.rootAt? element.path = some element ∧ before.rootAt? element.path = none := by
  constructor
  · rintro ⟨isNew, unmodified⟩
    rcases mem_newElements_iff.mp isNew with ⟨key, current, isRoot, found⟩
    obtain rfl : element.path = key :=
      (path_of_newElement? found).trans (afterKeyed.path_eq isRoot)
    rcases newElement?_eq_some_iff.mp found with ⟨wasAbsent, rfl⟩ | ⟨previous, wasRoot, changed, _⟩
    · exact ⟨isRoot, wasAbsent⟩
    · rw [modificationOf?_eq beforeKeyed, isRoot] at unmodified
      simp [modification?, wasRoot, changed] at unmodified
  · rintro ⟨isRoot, wasAbsent⟩
    constructor
    · exact mem_newElements_iff.mpr
        ⟨element.path, element, isRoot, newElement?_eq_some_iff.mpr (Or.inl ⟨wasAbsent, rfl⟩)⟩
    · rw [modificationOf?_eq beforeKeyed, isRoot]
      simp [modification?, wasAbsent]

/-- The roots after the changes are those that stay and those that are new. -/
theorem mem_applyTo_iff (beforeKeyed : before.IsKeyed) (afterKeyed : after.IsKeyed) :
    (key, element) ∈ (between before after).applyTo before.roots ↔
      (∃ previous current, before.rootAt? key = some previous ∧
        after.rootAt? key = some current ∧
        (if previous.changed current then current else previous) = element) ∨
      after.rootAt? key = some element ∧ before.rootAt? key = none := by
  rw [applyTo, List.mem_append, mem_map_replaced_iff beforeKeyed, List.mem_map]
  apply or_congr_right
  constructor
  · rintro ⟨added, isAdded, same⟩
    cases same
    rw [List.mem_filter, Option.isNone_iff_eq_none] at isAdded
    exact (mem_newElements_without_modification_iff beforeKeyed afterKeyed).mp isAdded
  · rintro ⟨isRoot, wasAbsent⟩
    obtain rfl := afterKeyed.path_eq isRoot
    refine ⟨element, ?_, rfl⟩
    rw [List.mem_filter, Option.isNone_iff_eq_none]
    exact (mem_newElements_without_modification_iff beforeKeyed afterKeyed).mpr
      ⟨isRoot, wasAbsent⟩

theorem map_fst_replaced (changes : ChangeSet) (entries : List (String × Element)) :
    (entries.map changes.replaced).map Prod.fst = entries.map Prod.fst := by
  rw [List.map_map]
  apply List.map_congr_left
  intro entry _
  rw [Function.comp_apply, replaced]
  split <;> rfl

theorem sublist_map_path_newElements (afterKeyed : after.IsKeyed) :
    ((between before after).newElements.map Element.path).Sublist (after.roots.map Prod.fst) := by
  rw [between]
  unfold Snapshot.IsKeyed at afterKeyed
  generalize after.roots = roots at afterKeyed ⊢
  induction roots with
  | nil => exact List.Sublist.refl _
  | cons entry rest ih =>
      rcases List.forall_mem_cons.mp afterKeyed with ⟨keyed, restKeyed⟩
      cases found : newElement? before entry.1 entry.2 with
      | none =>
          simp only [List.filterMap_cons, found]
          exact (ih restKeyed).cons _
      | some element =>
          simp only [List.filterMap_cons, found, List.map_cons]
          rw [path_of_newElement? found, keyed]
          exact (ih restKeyed).cons_cons _

/-- The roots after the changes have the paths of the later roots, each once. -/
theorem perm_map_fst_applyTo (beforeKeyed : before.IsKeyed) (afterKeyed : after.IsKeyed) :
    (((between before after).applyTo before.roots).map Prod.fst).Perm
      (after.roots.map Prod.fst) := by
  have distinct : (((between before after).applyTo before.roots).map Prod.fst).Nodup := by
    rw [applyTo, List.map_append, map_fst_replaced, List.map_map, List.nodup_append]
    refine ⟨?_, ?_, ?_⟩
    · exact (Snapshot.nodup_map_fst_roots before).sublist (List.filter_sublist.map _)
    · exact (Snapshot.nodup_map_fst_roots after).sublist
        ((List.filter_sublist.map _).trans (sublist_map_path_newElements afterKeyed))
    · rintro key wasKept _ isAdded rfl
      rcases List.mem_map.mp wasKept with ⟨⟨key, previous⟩, kept, rfl⟩
      rcases List.mem_map.mp isAdded with ⟨element, added, samePath⟩
      change element.path = key at samePath
      have wasRoot := Snapshot.mem_roots_iff.mp (List.mem_filter.mp kept).1
      rw [List.mem_filter, Option.isNone_iff_eq_none] at added
      obtain ⟨_, wasAbsent⟩ :=
        (mem_newElements_without_modification_iff beforeKeyed afterKeyed).mp added
      rw [← samePath, wasAbsent] at wasRoot
      cases wasRoot
  rw [List.perm_ext_iff_of_nodup distinct (Snapshot.nodup_map_fst_roots after)]
  intro key
  rw [Snapshot.mem_map_fst_roots_iff, List.mem_map]
  constructor
  · rintro ⟨⟨_, element⟩, member, rfl⟩
    rcases (mem_applyTo_iff beforeKeyed afterKeyed).mp member with
      ⟨_, current, _, isRoot, _⟩ | ⟨isRoot, _⟩
    · exact ⟨current, isRoot⟩
    · exact ⟨element, isRoot⟩
  · rintro ⟨current, isRoot⟩
    cases wasRoot : before.rootAt? key with
    | none =>
        exact ⟨(key, current),
          (mem_applyTo_iff beforeKeyed afterKeyed).mpr (Or.inr ⟨isRoot, wasRoot⟩), rfl⟩
    | some previous =>
        exact ⟨(key, _), (mem_applyTo_iff beforeKeyed afterKeyed).mpr
          (Or.inl ⟨previous, current, wasRoot, isRoot, rfl⟩), rfl⟩

/-! ## Minimality -/

/-- A root that is as before is left out. -/
theorem not_listed_of_agrees (beforeKeyed : before.IsKeyed) (afterKeyed : after.IsKeyed)
    {previous current : Element} (wasRoot : before.rootAt? key = some previous)
    (isRoot : after.rootAt? key = some current) (agrees : previous.Agrees current) :
    key ∉ (between before after).removedPaths ∧
      (∀ modification ∈ (between before after).modified,
        modification.before.path ≠ key ∧ modification.after.path ≠ key) ∧
      ∀ element ∈ (between before after).newElements, element.path ≠ key := by
  have unchanged := Element.changed_eq_false_iff_agrees.mpr agrees
  refine ⟨?_, ?_, ?_⟩
  · rw [mem_removedPaths_iff, isRoot]
    exact fun removed => nomatch removed.2
  · intro modification member
    rcases mem_modified_iff.mp member with ⟨other, later, isOther, found⟩
    have otherKey : other ≠ key := by
      rintro rfl
      rw [isRoot] at isOther
      cases isOther
      simp [modification?, wasRoot, unchanged] at found
    rcases modification?_eq_some_iff.mp found with ⟨wasOther, rfl, _⟩
    rw [beforeKeyed.path_eq wasOther, afterKeyed.path_eq isOther]
    exact ⟨otherKey, otherKey⟩
  · rintro element member rfl
    rcases mem_newElements_iff.mp member with ⟨other, later, isOther, found⟩
    obtain rfl : element.path = other :=
      (path_of_newElement? found).trans (afterKeyed.path_eq isOther)
    rw [isRoot] at isOther
    cases isOther
    simp [newElement?, wasRoot, unchanged] at found

theorem removedPaths_eq_nil_iff :
    (between before after).removedPaths = [] ↔
      ∀ key previous, before.rootAt? key = some previous →
        ∃ current, after.rootAt? key = some current := by
  simp only [List.eq_nil_iff_forall_not_mem, mem_removedPaths_iff, ← Option.ne_none_iff_exists']
  constructor
  · intro noneRemoved key previous wasRoot absent
    exact noneRemoved key ⟨by simp [wasRoot], absent⟩
  · rintro stays key ⟨wasRoot, absent⟩
    rcases Option.ne_none_iff_exists'.mp wasRoot with ⟨previous, wasRoot⟩
    exact stays key previous wasRoot absent

theorem modified_eq_nil_iff :
    (between before after).modified = [] ↔
      ∀ key previous current, before.rootAt? key = some previous →
        after.rootAt? key = some current → previous.Agrees current := by
  simp only [List.eq_nil_iff_forall_not_mem, mem_modified_iff,
    ← Element.changed_eq_false_iff_agrees, ← Bool.not_eq_true]
  constructor
  · intro noneModified key previous current wasRoot isRoot changed
    apply noneModified ⟨previous, current⟩
    exact ⟨key, current, isRoot, modification?_eq_some_iff.mpr ⟨wasRoot, rfl, changed⟩⟩
  · rintro agree modification ⟨key, current, isRoot, found⟩
    rcases modification?_eq_some_iff.mp found with ⟨wasRoot, rfl, changed⟩
    exact agree key _ _ wasRoot isRoot changed

theorem newElements_eq_nil_iff :
    (between before after).newElements = [] ↔
      ∀ key current, after.rootAt? key = some current →
        ∃ previous, before.rootAt? key = some previous ∧ previous.Agrees current := by
  simp only [List.eq_nil_iff_forall_not_mem, mem_newElements_iff,
    ← Element.changed_eq_false_iff_agrees]
  constructor
  · intro noneNew key current isRoot
    cases wasRoot : before.rootAt? key with
    | none =>
        have isNew : newElement? before key current = some current :=
          newElement?_eq_some_iff.mpr (Or.inl ⟨wasRoot, rfl⟩)
        exact absurd ⟨key, current, isRoot, isNew⟩ (noneNew current)
    | some previous =>
        refine ⟨previous, rfl, ?_⟩
        rw [← Bool.not_eq_true]
        intro changed
        have isNew : newElement? before key current = some (previous.prune current) :=
          newElement?_eq_some_iff.mpr (Or.inr ⟨previous, wasRoot, changed, rfl⟩)
        exact noneNew _ ⟨key, current, isRoot, isNew⟩
  · rintro agree element ⟨key, current, isRoot, found⟩
    rcases agree key current isRoot with ⟨previous, wasRoot, unchanged⟩
    simp [newElement?, wasRoot, unchanged] at found

/-- Nothing has changed exactly when the same paths have roots that agree. -/
theorem hasChanges_eq_false_iff :
    (between before after).hasChanges = false ↔
      (∀ key, key ∈ before.roots.map Prod.fst ↔ key ∈ after.roots.map Prod.fst) ∧
        ∀ key previous current, (key, previous) ∈ before.roots → (key, current) ∈ after.roots →
          previous.Agrees current := by
  simp only [hasChanges, Bool.or_eq_false_iff, Bool.not_eq_false', List.isEmpty_iff,
    removedPaths_eq_nil_iff, modified_eq_nil_iff, newElements_eq_nil_iff,
    Snapshot.mem_roots_iff, Snapshot.mem_map_fst_roots_iff]
  constructor
  · rintro ⟨⟨noneNew, noneRemoved⟩, noneModified⟩
    refine ⟨fun key => ⟨?_, ?_⟩, noneModified⟩
    · rintro ⟨previous, wasRoot⟩
      exact noneRemoved key previous wasRoot
    · rintro ⟨current, isRoot⟩
      rcases noneNew key current isRoot with ⟨previous, wasRoot, _⟩
      exact ⟨previous, wasRoot⟩
  · rintro ⟨sameKeys, agree⟩
    refine ⟨⟨?_, ?_⟩, agree⟩
    · intro key current isRoot
      rcases (sameKeys key).mpr ⟨current, isRoot⟩ with ⟨previous, wasRoot⟩
      exact ⟨previous, wasRoot, agree key previous current wasRoot isRoot⟩
    · intro key previous wasRoot
      exact (sameKeys key).mp ⟨previous, wasRoot⟩

/-- A change set leads from the earlier roots to the later ones, up to the paths recorded in roots
that are as before, and it lists none of these. -/
theorem between_complete_minimal (beforeKeyed : before.IsKeyed) (afterKeyed : after.IsKeyed)
    (numeric : ∀ entry ∈ after.roots, entry.2.isNumeric = true) :
    let changes := between before after
    ((changes.applyTo before.roots).map Prod.fst).Perm (after.roots.map Prod.fst) ∧
      (∀ key element, (key, element) ∈ changes.applyTo before.roots →
        ∃ current, (key, current) ∈ after.roots ∧
          ((element == current) = true ∨
            (key, element) ∈ before.roots ∧ element.Agrees current)) ∧
      (∀ key previous current, (key, previous) ∈ before.roots → (key, current) ∈ after.roots →
        previous.Agrees current →
          key ∉ changes.removedPaths ∧
            (∀ modification ∈ changes.modified,
              modification.before.path ≠ key ∧ modification.after.path ≠ key) ∧
            ∀ element ∈ changes.newElements, element.path ≠ key) ∧
      (changes.hasChanges = false ↔
        (∀ key, key ∈ before.roots.map Prod.fst ↔ key ∈ after.roots.map Prod.fst) ∧
          ∀ key previous current, (key, previous) ∈ before.roots → (key, current) ∈ after.roots →
            previous.Agrees current) := by
  intro changes
  refine ⟨perm_map_fst_applyTo beforeKeyed afterKeyed, ?_, ?_, hasChanges_eq_false_iff⟩
  · intro key element member
    rcases (mem_applyTo_iff beforeKeyed afterKeyed).mp member with
      ⟨previous, current, wasRoot, isRoot, same⟩ | ⟨isRoot, _⟩
    · refine ⟨current, Snapshot.mem_roots_iff.mpr isRoot, ?_⟩
      cases changed : previous.changed current with
      | true =>
        left
        obtain rfl : current = element := by simpa [changed] using same
        exact Element.beq_self (numeric (key, current) (Snapshot.mem_roots_iff.mpr isRoot))
      | false =>
        right
        obtain rfl : previous = element := by simpa [changed] using same
        exact ⟨Snapshot.mem_roots_iff.mpr wasRoot, Element.changed_eq_false_iff_agrees.mp changed⟩
    · refine ⟨element, Snapshot.mem_roots_iff.mpr isRoot, Or.inl ?_⟩
      exact Element.beq_self (numeric (key, element) (Snapshot.mem_roots_iff.mpr isRoot))
  · intro key previous current wasRoot isRoot agrees
    rw [Snapshot.mem_roots_iff] at wasRoot isRoot
    exact not_listed_of_agrees beforeKeyed afterKeyed wasRoot isRoot agrees

theorem between_complete_minimal_pressed_button :
    let window : Element := { path := "macos://ui/AXWindow", properties := { role := "AXWindow" } }
    let button : Element := { path := "macos://ui/AXButton", properties := { role := "AXButton" } }
    let pressed : Element := { button with children := [Element.ofRole "AXImage"] }
    let before := Snapshot.ofEntries [(window.path, window), (button.path, button)]
    let after := Snapshot.ofEntries [(button.path, pressed)]
    before.IsKeyed ∧ after.IsKeyed ∧ (∀ entry ∈ after.roots, entry.2.isNumeric = true) ∧
      (((between before after).applyTo before.roots).map Prod.fst).Perm
        (after.roots.map Prod.fst) := by
  intro window button pressed before after
  have beforeKeyed : before.IsKeyed := by
    unfold Snapshot.IsKeyed
    decide
  have afterKeyed : after.IsKeyed := by
    unfold Snapshot.IsKeyed
    decide
  have numeric : ∀ entry ∈ after.roots, entry.2.isNumeric = true := by
    decide
  rcases between_complete_minimal beforeKeyed afterKeyed numeric with ⟨sameKeys, _⟩
  exact ⟨beforeKeyed, afterKeyed, numeric, sameKeys⟩

end ChangeSet

end Accessibility
