import Accessibility.Proofs.Element.Agreement
import Accessibility.Proofs.Filtering

/-!
# Pruned trees

A tree is pruned against an earlier one by leaving out the subtrees that are as before.  Every
element is compared with its counterpart at the same position of the earlier tree, and those that
stay move up to the places that become free before them.  What has changed is never left out, and
what stays has changed somewhere or has no counterpart.
-/

namespace Accessibility

namespace Element

/-- Whether two elements differ in nothing but the parents that they record. -/
structure SameButParent (one other : Element) : Prop where
  path : one.path = other.path
  properties : one.properties = other.properties
  children : one.children = other.children

theorem at?_cons_of_children_eq {one other : Element} (same : one.children = other.children)
    (number : Nat) (rest : Position) : one.at? (number :: rest) = other.at? (number :: rest) := by
  rw [at?, at?, same]

/-- An element beside its counterpart in an earlier tree, if it has one. -/
structure Comparison where
  before? : Option Element
  after : Element

namespace Comparison

variable {comparison found : Comparison} {number : Nat} {position place : Position}

/-- Whether an element stays: it has no counterpart or differs from it. -/
def stays (comparison : Comparison) : Bool :=
  comparison.before?.all (·.changed comparison.after)

/-- The element pruned against its counterpart, and whole if it has none. -/
def pruned (comparison : Comparison) : Element :=
  match comparison.before? with
  | some before => before.prune comparison.after
  | none => comparison.after

/-- A child with the element recorded as its parent; the children of an element without counterpart
record what they did. -/
def adopting (comparison : Comparison) (child : Element) : Element :=
  match comparison.before? with
  | some _ => adopted comparison.after.path child
  | none => child

/-- The children, each beside the child that was at its place. -/
def children (comparison : Comparison) : List Comparison :=
  comparison.after.children.mapIdx fun number child =>
    ⟨comparison.before?.bind (·.children[number]?), child⟩

/-- The comparison at a position. -/
def at? (comparison : Comparison) : Position → Option Comparison
  | [] => some comparison
  | number :: rest => comparison.children[number]?.bind (at? · rest)

/-- The place of a child among those that stay. -/
def newNumber (comparison : Comparison) (number : Nat) : Nat :=
  (comparison.children.take number).countP stays

/-- The position in the pruned tree of what was at a position; none if it is left out. -/
def newPosition? (comparison : Comparison) : Position → Option Position
  | [] => some []
  | number :: rest =>
      comparison.children[number]?.bind fun child =>
        if child.stays then
          (child.newPosition? rest).map (comparison.newNumber number :: ·)
        else
          none

/-! ## Children that stay -/

theorem getElem?_children (comparison : Comparison) (number : Nat) :
    comparison.children[number]? = (comparison.after.children[number]?).map fun child =>
      ⟨comparison.before?.bind (·.children[number]?), child⟩ :=
  List.getElem?_mapIdx

theorem pruneChildren_eq (parentPath : String) (earlier later : List Element) :
    pruneChildren parentPath earlier later =
      ((later.mapIdx fun number child => Comparison.mk earlier[number]? child).filter stays).map
        fun child => adopted parentPath child.pruned := by
  induction later generalizing earlier with
  | nil => cases earlier <;> rfl
  | cons child rest ih =>
      cases earlier with
      | nil =>
          rw [pruneChildren, ih, List.mapIdx_cons, List.filter_cons_of_pos rfl]
          simp [pruned]
      | cons previous others =>
          rw [pruneChildren, ih, List.mapIdx_cons]
          cases changed : previous.changed child <;> simp [stays, changed, pruned]

/-- The children of a pruned element are those that stay, pruned in turn. -/
theorem children_pruned (comparison : Comparison) :
    comparison.pruned.children =
      (comparison.children.filter stays).map fun child => comparison.adopting child.pruned := by
  rcases comparison with ⟨_ | before, after⟩
  · have allStay : ∀ child ∈ children ⟨none, after⟩, child.stays = true := by
      intro child isChild
      rcases List.mem_mapIdx.mp isChild with ⟨number, inside, rfl⟩
      rfl
    rw [List.filter_eq_self.mpr allStay]
    apply List.ext_getElem?
    intro number
    rw [List.getElem?_map, getElem?_children, Option.map_map]
    exact Option.map_id'.symm
  · cases after
    exact pruneChildren_eq _ before.children _

@[simp]
theorem path_pruned (comparison : Comparison) : comparison.pruned.path = comparison.after.path := by
  rcases comparison with ⟨_ | before, after⟩
  · rfl
  · cases after
    rfl

@[simp]
theorem properties_pruned (comparison : Comparison) :
    comparison.pruned.properties = comparison.after.properties := by
  rcases comparison with ⟨_ | before, after⟩
  · rfl
  · cases after
    rfl

/-- A child that stays is found at its new place. -/
theorem getElem?_children_pruned {child : Comparison}
    (isChild : comparison.children[number]? = some child) (stays : child.stays = true) :
    comparison.pruned.children[comparison.newNumber number]? =
      some (comparison.adopting child.pruned) := by
  rw [children_pruned, List.getElem?_map, newNumber,
    Filtering.getElem?_filter_of_getElem? isChild stays, Option.map_some]

/-- A child of a pruned element is one that stays, at its new place. -/
theorem exists_child_of_getElem?_children_pruned {kept : Element}
    (isChild : comparison.pruned.children[number]? = some kept) :
    ∃ old child, comparison.children[old]? = some child ∧ child.stays = true ∧
      comparison.newNumber old = number ∧ comparison.adopting child.pruned = kept := by
  rw [children_pruned, List.getElem?_map, Option.map_eq_some_iff] at isChild
  rcases isChild with ⟨child, isKept, same⟩
  rcases Filtering.exists_getElem?_of_getElem?_filter isKept with ⟨old, isOld, stays, place⟩
  exact ⟨old, child, isOld, stays, place, same⟩

/-! ## Positions of what stays -/

theorem at?_eq (comparison : Comparison) (position : Position) :
    comparison.at? position = (comparison.after.at? position).map fun element =>
      ⟨comparison.before?.bind (·.at? position), element⟩ := by
  induction position generalizing comparison with
  | nil => rcases comparison with ⟨_ | before, after⟩ <;> rfl
  | cons number rest ih =>
      rw [at?, getElem?_children, Element.at?]
      cases comparison.after.children[number]? with
      | none => rfl
      | some child =>
          rw [Option.map_some, Option.bind_some, ih, Option.bind_assoc]
          rfl

theorem at?_eq_some_iff :
    comparison.at? position = some found ↔
      comparison.after.at? position = some found.after ∧
        found.before? = comparison.before?.bind (·.at? position) := by
  rw [at?_eq, Option.map_eq_some_iff]
  constructor
  · rintro ⟨element, isAt, rfl⟩
    exact ⟨isAt, rfl⟩
  · rintro ⟨isAt, same⟩
    exact ⟨found.after, isAt, by rw [← same]⟩

theorem at?_cons_eq_some_iff {rest : Position} :
    comparison.at? (number :: rest) = some found ↔
      ∃ child, comparison.children[number]? = some child ∧ child.at? rest = some found := by
  rw [at?, Option.bind_eq_some_iff]

theorem newPosition?_cons_eq_some_iff {rest : Position} :
    comparison.newPosition? (number :: rest) = some place ↔
      ∃ child below, comparison.children[number]? = some child ∧ child.stays = true ∧
        child.newPosition? rest = some below ∧ place = comparison.newNumber number :: below := by
  rw [newPosition?, Option.bind_eq_some_iff]
  constructor
  · rintro ⟨child, isChild, found⟩
    rw [Option.ite_none_right_eq_some, Option.map_eq_some_iff] at found
    rcases found with ⟨stays, below, isBelow, rfl⟩
    exact ⟨child, below, isChild, stays, isBelow, rfl⟩
  · rintro ⟨child, below, isChild, stays, isBelow, rfl⟩
    refine ⟨child, isChild, ?_⟩
    rw [if_pos stays, isBelow, Option.map_some]

/-- An element that is left out is in a subtree that is as before. -/
theorem exists_unchanged_of_newPosition?_eq_none (isOut : comparison.newPosition? position = none)
    (isAt : comparison.at? position = some found) :
    ∃ above below unchanged, position = above ++ below ∧ above ≠ [] ∧
      comparison.at? above = some unchanged ∧ unchanged.stays = false := by
  induction position generalizing comparison with
  | nil => contradiction
  | cons number rest ih =>
      rcases at?_cons_eq_some_iff.mp isAt with ⟨child, isChild, isAt⟩
      cases stays : child.stays with
      | false => exact ⟨[number], rest, child, rfl, by simp, by simp [at?, isChild], stays⟩
      | true =>
          have outBelow : child.newPosition? rest = none := by
            simpa [newPosition?, isChild, stays] using isOut
          rcases ih outBelow isAt with ⟨above, below, unchanged, rfl, _, isAbove, asBefore⟩
          refine ⟨number :: above, below, unchanged, rfl, by simp, ?_, asBefore⟩
          exact at?_cons_eq_some_iff.mpr ⟨child, isChild, isAbove⟩

theorem stays_of_newPosition? (isKept : comparison.newPosition? position = some place)
    (isBelow : position ≠ []) (isAt : comparison.at? position = some found) :
    found.stays = true := by
  induction position generalizing comparison place with
  | nil => contradiction
  | cons number rest ih =>
      rcases newPosition?_cons_eq_some_iff.mp isKept with ⟨child, below, isChild, stays, isKept, _⟩
      rw [at?, isChild, Option.bind_some] at isAt
      by_cases isLast : rest = []
      · rw [isLast] at isAt
        cases isAt
        exact stays
      · exact ih isKept isLast isAt

theorem sameButParent_adopting (comparison : Comparison) (child : Element) :
    (comparison.adopting child).SameButParent child := by
  unfold adopting
  cases comparison.before? <;> exact ⟨rfl, rfl, rfl⟩

theorem at?_adopting_of_at? {child kept : Element} (comparison : Comparison)
    (isAt : child.at? place = some kept) :
    ∃ other, (comparison.adopting child).at? place = some other ∧ other.SameButParent kept := by
  have same := sameButParent_adopting comparison child
  cases place with
  | nil =>
      cases isAt
      exact ⟨_, rfl, same⟩
  | cons number rest =>
      exact ⟨kept, (at?_cons_of_children_eq same.children number rest).trans isAt, rfl, rfl, rfl⟩

theorem exists_at?_of_at?_adopting {child kept : Element}
    (isAt : (comparison.adopting child).at? place = some kept) :
    ∃ original, child.at? place = some original := by
  have same := sameButParent_adopting comparison child
  cases place with
  | nil => exact ⟨child, rfl⟩
  | cons number rest =>
      exact ⟨kept, (at?_cons_of_children_eq same.children number rest).symm.trans isAt⟩

/-- What stays is found at its new position, pruned against its counterpart. -/
theorem at?_pruned_of_newPosition? (isKept : comparison.newPosition? position = some place) :
    ∃ found kept, comparison.at? position = some found ∧
      comparison.pruned.at? place = some kept ∧ kept.SameButParent found.pruned := by
  induction position generalizing comparison place with
  | nil =>
      cases isKept
      exact ⟨comparison, comparison.pruned, rfl, rfl, rfl, rfl, rfl⟩
  | cons number rest ih =>
      rcases newPosition?_cons_eq_some_iff.mp isKept with
        ⟨child, below, isChild, stays, keptBelow, rfl⟩
      rcases ih keptBelow with ⟨found, kept, isAt, isAtBelow, same⟩
      rcases at?_adopting_of_at? comparison isAtBelow with ⟨other, isAdopted, sameOther⟩
      refine ⟨found, other, at?_cons_eq_some_iff.mpr ⟨child, isChild, isAt⟩, ?_, ?_⟩
      · exact Element.at?_cons_eq_some_iff.mpr
          ⟨_, getElem?_children_pruned isChild stays, isAdopted⟩
      · exact ⟨sameOther.path.trans same.path, sameOther.properties.trans same.properties,
          sameOther.children.trans same.children⟩

/-- Everything in a pruned tree has stayed. -/
theorem exists_newPosition?_of_at?_pruned {kept : Element}
    (isAt : comparison.pruned.at? place = some kept) :
    ∃ position, comparison.newPosition? position = some place := by
  induction place generalizing comparison kept with
  | nil => exact ⟨[], rfl⟩
  | cons number rest ih =>
      rcases Element.at?_cons_eq_some_iff.mp isAt with ⟨keptChild, isKept, isAt⟩
      rcases exists_child_of_getElem?_children_pruned isKept with
        ⟨old, child, isChild, stays, rfl, rfl⟩
      rcases exists_at?_of_at?_adopting isAt with ⟨original, isAt⟩
      rcases ih isAt with ⟨below, isBelow⟩
      exact ⟨old :: below,
        newPosition?_cons_eq_some_iff.mpr ⟨child, rest, isChild, stays, isBelow, rfl⟩⟩

/-! ## Order of what stays -/

theorem newNumber_lt_iff {other : Nat} {child otherChild : Comparison}
    (isChild : comparison.children[number]? = some child)
    (isOther : comparison.children[other]? = some otherChild) (childStays : child.stays = true)
    (otherStays : otherChild.stays = true) :
    comparison.newNumber number < comparison.newNumber other ↔ number < other :=
  Filtering.countP_take_lt_iff isChild isOther childStays otherStays

theorem newNumber_eq_iff {other : Nat} {child otherChild : Comparison}
    (isChild : comparison.children[number]? = some child)
    (isOther : comparison.children[other]? = some otherChild) (childStays : child.stays = true)
    (otherStays : otherChild.stays = true) :
    comparison.newNumber number = comparison.newNumber other ↔ number = other := by
  have before := newNumber_lt_iff isChild isOther childStays otherStays
  have after := newNumber_lt_iff isOther isChild otherStays childStays
  omega

/-- No two elements get to one position. -/
theorem position_eq_of_newPosition?_eq {other : Position}
    (isKept : comparison.newPosition? position = some place)
    (otherKept : comparison.newPosition? other = some place) : position = other := by
  induction position generalizing comparison other place with
  | nil =>
      cases isKept
      cases other with
      | nil => rfl
      | cons number rest =>
          rcases newPosition?_cons_eq_some_iff.mp otherKept with ⟨_, _, _, _, _, same⟩
          contradiction
  | cons number rest ih =>
      rcases newPosition?_cons_eq_some_iff.mp isKept with
        ⟨child, below, isChild, stays, keptBelow, rfl⟩
      cases other with
      | nil => cases otherKept
      | cons otherNumber otherRest =>
          rcases newPosition?_cons_eq_some_iff.mp otherKept with
            ⟨otherChild, otherBelow, isOther, otherStays, otherKeptBelow, same⟩
          rcases List.cons.inj same with ⟨sameNumber, rfl⟩
          obtain rfl := (newNumber_eq_iff isChild isOther stays otherStays).mp sameNumber
          cases isChild.symm.trans isOther
          rw [ih keptBelow otherKeptBelow]

/-- The way to a new position is that of an element above, followed by the way from there. -/
theorem newPosition?_append (comparison : Comparison) (position rest : Position) :
    comparison.newPosition? (position ++ rest) =
      (comparison.newPosition? position).bind fun above =>
        (comparison.at? position).bind fun found =>
          (found.newPosition? rest).map (above ++ ·) := by
  induction position generalizing comparison with
  | nil => exact Option.map_id'.symm
  | cons number position ih =>
      rw [List.cons_append, newPosition?, newPosition?, at?]
      cases comparison.children[number]? with
      | none => rfl
      | some child =>
          simp only [Option.bind_some, ih]
          cases child.stays with
          | false => rfl
          | true =>
              cases child.newPosition? position <;> cases child.at? position <;>
                simp [Function.comp_def]

/-- A child gets to the new position of its parent, at its place among the children that stay. -/
theorem newPosition?_concat_eq_some_iff :
    comparison.newPosition? (position ++ [number]) = some place ↔
      ∃ above found child, comparison.newPosition? position = some above ∧
        comparison.at? position = some found ∧ found.children[number]? = some child ∧
        child.stays = true ∧ place = above ++ [found.newNumber number] := by
  simp only [newPosition?_append, Option.bind_eq_some_iff, Option.map_eq_some_iff,
    newPosition?_cons_eq_some_iff]
  constructor
  · rintro ⟨above, isAbove, found, isAt, _, ⟨child, _, isChild, stays, isLast, rfl⟩, rfl⟩
    cases isLast
    exact ⟨above, found, child, isAbove, isAt, isChild, stays, rfl⟩
  · rintro ⟨above, found, child, isAbove, isAt, isChild, stays, rfl⟩
    exact ⟨above, isAbove, found, isAt, _, ⟨child, [], isChild, stays, rfl, rfl⟩, rfl⟩

/-- Siblings that stay keep their order. -/
theorem lt_iff_of_newPosition?_concat {other first second : Nat} {above : Position}
    (isKept : comparison.newPosition? (position ++ [number]) = some (above ++ [first]))
    (otherKept : comparison.newPosition? (position ++ [other]) = some (above ++ [second])) :
    first < second ↔ number < other := by
  rcases newPosition?_concat_eq_some_iff.mp isKept with
    ⟨_, found, child, _, isAt, isChild, stays, same⟩
  rcases newPosition?_concat_eq_some_iff.mp otherKept with
    ⟨_, _, otherChild, _, isAtOther, isOther, otherStays, sameOther⟩
  cases isAt.symm.trans isAtOther
  have isFirst := List.append_inj_right' same rfl
  have isSecond := List.append_inj_right' sameOther rfl
  rw [List.singleton_inj] at isFirst isSecond
  rw [isFirst, isSecond]
  exact newNumber_lt_iff isChild isOther stays otherStays

end Comparison

/-! ## What pruning keeps -/

open Comparison

theorem parentPath_of_mem_children_prune {before after child : Element}
    (isChild : child ∈ (before.prune after).children) : child.parentPath = some after.path := by
  have children := children_pruned ⟨some before, after⟩
  change (before.prune after).children = _ at children
  rw [children, List.mem_map] at isChild
  rcases isChild with ⟨kept, _, rfl⟩
  rfl

/-- What is left out is in a subtree that is as before. -/
theorem exists_unchanged_above {before after element : Element} {position : Position}
    (isAt : after.at? position = some element)
    (isOut : newPosition? ⟨some before, after⟩ position = none) :
    ∃ above below previous current, position = above ++ below ∧ above ≠ [] ∧
      before.at? above = some previous ∧ after.at? above = some current ∧
        previous.changed current = false := by
  have found : Comparison.at? ⟨some before, after⟩ position =
      some ⟨before.at? position, element⟩ := Comparison.at?_eq_some_iff.mpr ⟨isAt, rfl⟩
  rcases exists_unchanged_of_newPosition?_eq_none isOut found with
    ⟨above, below, ⟨previous?, current⟩, split, isBelow, isAbove, asBefore⟩
  rcases Comparison.at?_eq_some_iff.mp isAbove with ⟨isCurrent, wasPrevious⟩
  cases previous? with
  | none => cases asBefore
  | some previous =>
      exact ⟨above, below, previous, current, split, isBelow, wasPrevious.symm, isCurrent, asBefore⟩

/-- An element that differs from its counterpart or has none is not left out. -/
theorem exists_newPosition?_of_differs {before after element : Element} {position : Position}
    (isAt : after.at? position = some element)
    (differs : ∀ previous, before.at? position = some previous →
      previous.sameProperties element = false) :
    ∃ place, newPosition? ⟨some before, after⟩ position = some place := by
  rw [← Option.ne_none_iff_exists']
  intro isOut
  rcases exists_unchanged_above isAt isOut with
    ⟨above, below, previous, current, rfl, _, wasPrevious, isCurrent, asBefore⟩
  have agrees := changed_eq_false_iff_agrees.mp asBefore below
  rw [at?_append, isCurrent, Option.bind_some] at isAt
  rw [at?_append, wasPrevious, Option.bind_some] at differs
  rw [isAt] at agrees
  generalize previous.at? below = counterpart? at agrees differs
  cases agrees with
  | some looksLike =>
      have notSame := differs _ rfl
      rw [looksLike.1] at notSame
      contradiction

/-- What stays shows the same at its new position, is whole if it has no counterpart, and has a
changed element in its subtree otherwise. -/
theorem exists_kept_of_newPosition? {before after : Element} {position place : Position}
    (isKept : newPosition? ⟨some before, after⟩ position = some place) :
    ∃ element kept, after.at? position = some element ∧
      (before.prune after).at? place = some kept ∧
      kept.SameButParent (pruned ⟨before.at? position, element⟩) ∧
      (position ≠ [] → stays ⟨before.at? position, element⟩ = true) := by
  rcases at?_pruned_of_newPosition? isKept with ⟨⟨previous?, element⟩, kept, isAt, isNow, same⟩
  rcases Comparison.at?_eq_some_iff.mp isAt with ⟨isElement, wasPrevious⟩
  change previous? = before.at? position at wasPrevious
  subst wasPrevious
  exact ⟨element, kept, isElement, isNow, same,
    fun isBelow => stays_of_newPosition? isKept isBelow isAt⟩

/-- A pruned tree has the changed and the new elements of the later one at new positions, which keep
parents and the order of siblings.  What else stays has a change somewhere below it, and what is
left out is in a subtree that is as before. -/
theorem prune_keeps_changes (before after : Element) :
    let tree := before.prune after
    let newPosition? := Comparison.newPosition? ⟨some before, after⟩
    (∀ position element, after.at? position = some element →
      (∀ previous, before.at? position = some previous →
        previous.sameProperties element = false) →
          ∃ place, newPosition? position = some place) ∧
    (∀ position place, newPosition? position = some place →
      ∃ element kept, after.at? position = some element ∧ tree.at? place = some kept ∧
        kept.path = element.path ∧ kept.properties = element.properties ∧
        (before.at? position = none → kept.children = element.children) ∧
        ∀ previous, before.at? position = some previous →
          (position ≠ [] → previous.changed element = true) ∧
            ∀ child ∈ kept.children, child.parentPath = some kept.path) ∧
    (∀ place kept, tree.at? place = some kept →
      ∃! position, newPosition? position = some place) ∧
    (∀ position element, after.at? position = some element → newPosition? position = none →
      ∃ above below previous current, position = above ++ below ∧ above ≠ [] ∧
        before.at? above = some previous ∧ after.at? above = some current ∧
          previous.changed current = false) ∧
    newPosition? [] = some [] ∧
    (∀ position number place, newPosition? (position ++ [number]) = some place →
      ∃ above next, newPosition? position = some above ∧ place = above ++ [next]) ∧
    ∀ position number other above first second,
      newPosition? (position ++ [number]) = some (above ++ [first]) →
        newPosition? (position ++ [other]) = some (above ++ [second]) →
          (first < second ↔ number < other) := by
  intro tree newPosition?
  refine ⟨?_, ?_, ?_, ?_, rfl, ?_, ?_⟩
  · intro position element isAt differs
    exact exists_newPosition?_of_differs isAt differs
  · intro position place isKept
    rcases exists_kept_of_newPosition? isKept with ⟨element, kept, isAt, isNow, same, stays⟩
    have samePath : kept.path = element.path := same.path.trans (path_pruned _)
    refine ⟨element, kept, isAt, isNow, samePath,
      same.properties.trans (properties_pruned _), ?_, ?_⟩
    · intro isNew
      rw [same.children, isNew]
      rfl
    · intro previous wasPrevious
      rw [wasPrevious] at same stays
      refine ⟨stays, ?_⟩
      intro child isChild
      rw [same.children] at isChild
      rw [samePath]
      exact parentPath_of_mem_children_prune isChild
  · intro place kept isAt
    change (pruned ⟨some before, after⟩).at? place = some kept at isAt
    rcases exists_newPosition?_of_at?_pruned isAt with ⟨position, isKept⟩
    exact ⟨position, isKept, fun other otherKept => position_eq_of_newPosition?_eq otherKept isKept⟩
  · intro position element isAt isOut
    exact exists_unchanged_above isAt isOut
  · intro position number place isKept
    rcases newPosition?_concat_eq_some_iff.mp isKept with ⟨above, found, _, isAbove, _, _, _, same⟩
    exact ⟨above, _, isAbove, same⟩
  · intro position number other above first second isKept otherKept
    exact lt_iff_of_newPosition?_concat isKept otherKept

end Element

end Accessibility
