import Accessibility.Capture
import Accessibility.Proofs.Element.Scope
import Accessibility.Proofs.Path.Generation

/-!
# Paths at every depth

The path of an element is made from the elements on the way to it and their siblings.  What lies
deeper has no part in it, nor have the paths that a tree carried before.  It is therefore the same
to cut a tree off and to give it its paths in either order, and a snapshot shows no other paths than
a deeper one.
-/

namespace Accessibility

/-- Siblings get the same segments after a change to what is not shown. -/
theorem Segment.amongSiblings_map {change : Element → Element}
    (same : ∀ element, (change element).properties = element.properties)
    (siblings : List Element) (element : Element) (number : Nat) :
    amongSiblings (siblings.map change) (change element) number =
      amongSiblings siblings element number := by
  apply amongSiblings_congr
  · rw [List.map_map]
    apply List.map_congr_left
    intro sibling _
    exact Element.identity_congr (same sibling)
  · exact Element.identity_congr (same element)

namespace Element

/-! ## Cutting off -/

@[simp]
theorem childless_truncate (depth : Nat) (element : Element) :
    (element.truncate depth).childless = element.childless := by
  cases depth with
  | zero => rw [truncate_zero]; rfl
  | succ depth => rw [truncate_succ]; rfl

theorem isSystemWide_truncate (depth : Nat) (element : Element) :
    (element.truncate depth).isSystemWide = element.isSystemWide := by
  rw [isSystemWide, role, properties_truncate]
  rfl

/-- Of two depths the smaller one counts. -/
theorem truncate_truncate (depth other : Nat) (element : Element) :
    (element.truncate depth).truncate other = element.truncate (min depth other) := by
  induction depth generalizing other element with
  | zero =>
      rw [Nat.zero_min]
      cases other with
      | zero => rw [truncate_zero, childless_truncate, truncate_zero]
      | succ other => rw [truncate_succ, truncate_zero]; rfl
  | succ depth ih =>
      cases other with
      | zero => rw [Nat.min_zero, truncate_zero, truncate_zero, childless_truncate]
      | succ other =>
          rw [Nat.succ_min_succ, truncate_succ, truncate_succ, truncate_succ]
          simp only [List.map_map, Function.comp_def, ih]

/-- The elements at positions up to the depth stay as they are, but for their children. -/
theorem map_childless_at?_truncate (depth : Nat) (element : Element) (position : Position) :
    ((element.truncate depth).at? position).map childless =
      if position.length ≤ depth then (element.at? position).map childless else none := by
  rw [at?_truncate]
  split
  · simp only [Option.map_map, Function.comp_def, childless_truncate]
  · rfl

/-! ## Paths of a tree that is cut off -/

/-- A change to all items may be made before or after one that depends on their places if each item
comes out the same. -/
theorem map_mapIdx_of_comm {α β : Type} {change : α → β} {assign : Nat → α → α}
    {assignChanged : Nat → β → β} {items : List α}
    (comm : ∀ number item, change (assign number item) = assignChanged number (change item)) :
    (items.mapIdx assign).map change = (items.map change).mapIdx assignChanged := by
  apply List.ext_getElem?
  intro number
  rw [List.getElem?_map, List.getElem?_mapIdx, List.getElem?_mapIdx, List.getElem?_map]
  cases items[number]? with
  | none => rfl
  | some item => exact congrArg some (comm number item)

theorem assignPath_truncate (depth : Nat) (path : Path) (parentPath : Option String)
    (element : Element) :
    (assignPath path parentPath element).truncate depth =
      assignPath path parentPath (element.truncate depth) := by
  induction depth generalizing path parentPath element with
  | zero =>
      rw [truncate_zero, truncate_zero, assignPath_eq_mapIdx, assignPath_eq_mapIdx]
      rfl
  | succ depth ih =>
      rw [truncate_succ, truncate_succ, assignPath_eq_mapIdx, assignPath_eq_mapIdx]
      congr 1
      apply map_mapIdx_of_comm
      intro number child
      rw [ih, Segment.amongSiblings_map (properties_truncate depth)]

/-- A tree that is cut off gets the paths that it had in the whole tree. -/
theorem generatePaths_truncate (depth : Nat) (root : Element) :
    (root.truncate depth).generatePaths = root.generatePaths.truncate depth := by
  by_cases isScreen : root.isSystemWide = true
  · have isScreenToo := (isSystemWide_truncate depth root).trans isScreen
    rw [generatePaths_of_isSystemWide isScreen, generatePaths_of_isSystemWide isScreenToo]
    cases depth with
    | zero =>
        rw [truncate_zero, truncate_zero]
        rfl
    | succ depth =>
        rw [truncate_succ, truncate_succ]
        congr 1
        symm
        apply map_mapIdx_of_comm
        intro number child
        rw [assignPath_truncate, Segment.amongSiblings_map (properties_truncate depth)]
  · have isNoScreen : ¬(root.truncate depth).isSystemWide = true :=
      (isSystemWide_truncate depth root).symm ▸ isScreen
    rw [generatePaths_of_not_isSystemWide isScreen, generatePaths_of_not_isSystemWide isNoScreen,
      assignPath_truncate,
      Segment.identifying_congr (identity_congr (properties_truncate depth root))]

/-! ## Paths of a tree that has paths -/

/-- Siblings with paths get the same segments as without. -/
theorem amongSiblings_mapIdx_assignPath {siblings : List Element} (paths : Nat → Element → Path)
    (parentPath : Option String) (path : Path) (element : Element) (number : Nat) :
    Segment.amongSiblings
        (siblings.mapIdx fun place sibling => assignPath (paths place sibling) parentPath sibling)
        (assignPath path parentPath element) number =
      Segment.amongSiblings siblings element number :=
  Segment.amongSiblings_congr
    (map_mapIdx_of_same fun sibling _ _ => identity_assignPath _ _ sibling)
    (identity_assignPath _ _ element) number

/-- A path that is assigned replaces those that were assigned before. -/
theorem assignPath_assignPath (path other : Path) (parentPath otherParent : Option String)
    (element : Element) :
    assignPath path parentPath (assignPath other otherParent element) =
      assignPath path parentPath element := by
  induction element using induction generalizing path other parentPath otherParent with
  | step element ih =>
      rw [assignPath_eq_mapIdx path parentPath (assignPath other otherParent element),
        assignPath_eq_mapIdx path parentPath element, properties_assignPath, children_assignPath,
        List.mapIdx_mapIdx]
      congr 1
      apply List.ext_getElem?
      intro number
      rw [List.getElem?_mapIdx, List.getElem?_mapIdx]
      cases isChild : element.children[number]? with
      | none => rfl
      | some child =>
          simp only [Option.map_some, Function.comp_apply, amongSiblings_mapIdx_assignPath,
            ih child (List.mem_of_getElem? isChild)]

/-- Paths that are given a second time are the same. -/
theorem generatePaths_generatePaths (root : Element) :
    root.generatePaths.generatePaths = root.generatePaths := by
  by_cases isScreen : root.isSystemWide = true
  · have isScreenToo := (isSystemWide_generatePaths root).trans isScreen
    rw [generatePaths_of_isSystemWide isScreenToo, properties_generatePaths,
      children_generatePaths_of_isSystemWide isScreen, List.mapIdx_mapIdx]
    simp only [Function.comp_def, amongSiblings_mapIdx_assignPath, assignPath_assignPath]
    rw [generatePaths_of_isSystemWide isScreen]
  · have isNoScreen : ¬root.generatePaths.isSystemWide = true :=
      (isSystemWide_generatePaths root).symm ▸ isScreen
    rw [generatePaths_of_not_isSystemWide isNoScreen,
      Segment.identifying_congr (identity_congr (properties_generatePaths root)),
      generatePaths_of_not_isSystemWide isScreen, assignPath_assignPath]

/-! ## Snapshots of different depths -/

/-- A snapshot that is cut off is that of the smaller depth. -/
theorem capture_truncate (root : Element) (scope : Scope) (depth other : Nat) :
    (root.capture scope depth).map (truncate other) = root.capture scope (min depth other) := by
  rw [capture, capture]
  cases root.select? scope with
  | none => rfl
  | some found =>
      change Except.ok ((found.truncate depth).generatePaths.truncate other) =
        Except.ok (found.truncate (min depth other)).generatePaths
      rw [← generatePaths_truncate, truncate_truncate]

/-- Cutting a tree off keeps the elements up to the depth as they are, and their paths whether it
is given them before or afterwards.  Neither cutting off nor giving paths once more changes more
than was changed before. -/
theorem generatePaths_at_every_depth (root : Element) (depth other : Nat) :
    root.generatePaths.truncate depth = (root.truncate depth).generatePaths ∧
      (root.truncate depth).truncate other = root.truncate (min depth other) ∧
      (∀ position : Position,
        ((root.truncate depth).at? position).map childless =
          if position.length ≤ depth then (root.at? position).map childless else none) ∧
      root.generatePaths.generatePaths = root.generatePaths ∧
      ∀ scope, (root.capture scope depth).map (truncate other) =
        root.capture scope (min depth other) :=
  ⟨(generatePaths_truncate depth root).symm, truncate_truncate depth other root,
    map_childless_at?_truncate depth root, generatePaths_generatePaths root,
    fun scope => capture_truncate root scope depth other⟩

end Element

end Accessibility
