import Accessibility.Proofs.Resolution.Walk

/-!
# Paths that lead back

Giving a tree its paths changes nothing that elements show.  Afterwards every element carries the
written form of the path along the way down to it, made from the siblings that stand in the tree
with the paths.
-/

namespace Accessibility

namespace Element

/-! ## Assigning paths -/

theorem assignPath_eq (path : Path) (parentPath : Option String) (element : Element) :
    assignPath path parentPath element =
      ⟨path.render, parentPath, element.properties,
        assignChildren path (Segment.ofSiblings element.children) element.children⟩ := by
  cases element
  rw [assignPath]

theorem assignChildren_eq_zipWith (path : Path) (segments : List Segment)
    (children : List Element) :
    assignChildren path segments children =
      List.zipWith (fun segment child => assignPath (path.child segment) (some path.render) child)
        segments children := by
  induction segments generalizing children with
  | nil => cases children <;> rfl
  | cons segment segments ih =>
      cases children with
      | nil => rfl
      | cons child children => rw [assignChildren, ih, List.zipWith_cons_cons]

theorem assignTopLevel_eq_zipWith (segments : List Segment) (elements : List Element) :
    assignTopLevel segments elements =
      List.zipWith (fun segment element => assignPath { first := segment } none element)
        segments elements := by
  induction segments generalizing elements with
  | nil => cases elements <;> rfl
  | cons segment segments ih =>
      cases elements with
      | nil => rfl
      | cons element elements => rw [assignTopLevel, ih, List.zipWith_cons_cons]

/-- A list made from siblings and their segments has for every sibling what is made from it. -/
theorem zipWith_ofSiblings {α : Type} (make : Segment → Element → α) (siblings : List Element) :
    List.zipWith make (Segment.ofSiblings siblings) siblings =
      siblings.mapIdx fun number element =>
        make (Segment.amongSiblings siblings element number) element := by
  apply List.ext_getElem?
  intro number
  rw [List.getElem?_zipWith, Segment.getElem?_ofSiblings, List.getElem?_mapIdx]
  cases siblings[number]? <;> rfl

theorem assignPath_eq_mapIdx (path : Path) (parentPath : Option String) (element : Element) :
    assignPath path parentPath element =
      ⟨path.render, parentPath, element.properties,
        element.children.mapIdx fun number child =>
          assignPath (path.child (Segment.amongSiblings element.children child number))
            (some path.render) child⟩ := by
  rw [assignPath_eq, assignChildren_eq_zipWith, zipWith_ofSiblings]

/-- The children of an element with its path. -/
theorem children_assignPath (path : Path) (parentPath : Option String) (element : Element) :
    (assignPath path parentPath element).children =
      element.children.mapIdx fun number child =>
        assignPath (path.child (Segment.amongSiblings element.children child number))
          (some path.render) child := by
  rw [assignPath_eq_mapIdx]

@[simp]
theorem path_assignPath (path : Path) (parentPath : Option String) (element : Element) :
    (assignPath path parentPath element).path = path.render := by
  rw [assignPath_eq]

@[simp]
theorem properties_assignPath (path : Path) (parentPath : Option String) (element : Element) :
    (assignPath path parentPath element).properties = element.properties := by
  rw [assignPath_eq]

theorem identity_assignPath (path : Path) (parentPath : Option String) (element : Element) :
    (assignPath path parentPath element).identity = element.identity :=
  identity_congr (properties_assignPath path parentPath element)

/-- A list changed item by item gives the same as before where no change is seen. -/
theorem map_mapIdx_of_same {α β : Type} {see : α → β} {change : Nat → α → α} {items : List α}
    (same : ∀ item ∈ items, ∀ number, see (change number item) = see item) :
    (items.mapIdx change).map see = items.map see := by
  apply List.ext_getElem?
  intro number
  rw [List.getElem?_map, List.getElem?_mapIdx, List.getElem?_map]
  cases found : items[number]? with
  | none => rfl
  | some item => exact congrArg some (same item (List.mem_of_getElem? found) number)

/-- A tree shows the same after a change to what is below the root if the change is not seen. -/
theorem map_properties_preorder_of_children {one other : Element} {change : Nat → Element → Element}
    (sameRoot : one.properties = other.properties)
    (changed : one.children = other.children.mapIdx change)
    (same : ∀ child ∈ other.children, ∀ number,
      (change number child).preorder.map properties = child.preorder.map properties) :
    one.preorder.map properties = other.preorder.map properties := by
  rw [preorder_eq_cons, preorder_eq_cons, changed, List.map_cons, List.map_cons, sameRoot,
    List.map_flatMap, List.map_flatMap, List.flatMap_def, List.flatMap_def,
    map_mapIdx_of_same same]

/-- The elements show the same with their paths as without. -/
theorem map_properties_preorder_assignPath (path : Path) (parentPath : Option String)
    (element : Element) :
    (assignPath path parentPath element).preorder.map properties =
      element.preorder.map properties := by
  induction element using induction generalizing path parentPath with
  | step element ih =>
      apply map_properties_preorder_of_children
      · exact properties_assignPath path parentPath element
      · exact children_assignPath path parentPath element
      · intro child isChild number
        exact ih child isChild _ _

/-! ## Paths to all elements of a tree -/

theorem generatePaths_of_isSystemWide {root : Element} (isScreen : root.isSystemWide = true) :
    root.generatePaths =
      ⟨Path.scheme ++ systemWideRole, none, root.properties,
        root.children.mapIdx fun number child =>
          assignPath { first := Segment.amongSiblings root.children child number } none child⟩ := by
  rw [generatePaths, if_pos isScreen, assignTopLevel_eq_zipWith, zipWith_ofSiblings]

theorem generatePaths_of_not_isSystemWide {root : Element}
    (isNoScreen : ¬root.isSystemWide = true) :
    root.generatePaths = assignPath { first := Segment.identifying root } none root := by
  rw [generatePaths, if_neg isNoScreen]

theorem properties_generatePaths (root : Element) :
    root.generatePaths.properties = root.properties := by
  unfold generatePaths
  split
  · rfl
  · exact properties_assignPath _ _ root

theorem isSystemWide_generatePaths (root : Element) :
    root.generatePaths.isSystemWide = root.isSystemWide := by
  rw [isSystemWide, role, properties_generatePaths]
  rfl

theorem children_generatePaths_of_isSystemWide {root : Element}
    (isScreen : root.isSystemWide = true) :
    root.generatePaths.children =
      root.children.mapIdx fun number child =>
        assignPath { first := Segment.amongSiblings root.children child number } none child := by
  rw [generatePaths_of_isSystemWide isScreen]

theorem map_properties_preorder_generatePaths (root : Element) :
    root.generatePaths.preorder.map properties = root.preorder.map properties := by
  by_cases isScreen : root.isSystemWide = true
  · apply map_properties_preorder_of_children
    · exact properties_generatePaths root
    · exact children_generatePaths_of_isSystemWide isScreen
    · intro child _ number
      exact map_properties_preorder_assignPath _ _ child
  · rw [generatePaths_of_not_isSystemWide isScreen]
    exact map_properties_preorder_assignPath _ _ root

@[simp]
theorem size_generatePaths (root : Element) : root.generatePaths.size = root.size := by
  have same := congrArg List.length (map_properties_preorder_generatePaths root)
  rwa [List.length_map, List.length_map, length_preorder, length_preorder] at same

theorem isRole_generatePaths {root : Element}
    (areRoles : ∀ element ∈ root.preorder, Segment.IsRole element.role) :
    ∀ element ∈ root.generatePaths.preorder, Segment.IsRole element.role := by
  intro element member
  have shown := List.mem_map_of_mem (f := properties) member
  rw [map_properties_preorder_generatePaths] at shown
  obtain ⟨original, member, same⟩ := List.mem_map.mp shown
  have isRole := areRoles original member
  rwa [role, same] at isRole

theorem isRole_topLevel_generatePaths {root : Element}
    (areRoles : ∀ element ∈ root.preorder, Segment.IsRole element.role) :
    ∀ top ∈ root.generatePaths.topLevel, ∀ element ∈ top.preorder,
      Segment.IsRole element.role := by
  intro top isTop element below
  exact isRole_generatePaths areRoles element (mem_preorder_of_mem_topLevel isTop below)

/-! ## Positions with and without paths -/

/-- Below an element with its path, every child is an original one with the path that belongs to
it. -/
theorem exists_of_getElem?_children_assignPath {path : Path} {parentPath : Option String}
    {element child : Element} {number : Nat}
    (isChild : (assignPath path parentPath element).children[number]? = some child) :
    ∃ original, element.children[number]? = some original ∧
      assignPath (path.child (Segment.amongSiblings element.children original number))
        (some path.render) original = child := by
  rw [children_assignPath, List.getElem?_mapIdx] at isChild
  exact Option.map_eq_some_iff.mp isChild

/-- Below the screen, every child is an original one with the path of its own segment. -/
theorem exists_of_getElem?_children_generatePaths {root child : Element} {number : Nat}
    (isScreen : root.isSystemWide = true)
    (isChild : root.generatePaths.children[number]? = some child) :
    ∃ original, root.children[number]? = some original ∧
      assignPath { first := Segment.amongSiblings root.children original number } none original =
        child := by
  rw [children_generatePaths_of_isSystemWide isScreen, List.getElem?_mapIdx] at isChild
  exact Option.map_eq_some_iff.mp isChild

theorem exists_assignPath_of_at?_assignPath {path : Path} {parentPath : Option String}
    {element found : Element} {position : Position}
    (isAt : (assignPath path parentPath element).at? position = some found) :
    ∃ ownPath ownParent original, element.at? position = some original ∧
      assignPath ownPath ownParent original = found := by
  induction position generalizing path parentPath element with
  | nil => exact ⟨path, parentPath, element, rfl, Option.some.inj isAt⟩
  | cons number position ih =>
      obtain ⟨child, isChild, isAt⟩ := at?_cons_eq_some_iff.mp isAt
      obtain ⟨originalChild, isOriginal, rfl⟩ := exists_of_getElem?_children_assignPath isChild
      obtain ⟨ownPath, ownParent, original, isAtOriginal, carries⟩ := ih isAt
      exact ⟨ownPath, ownParent, original,
        at?_cons_eq_some_iff.mpr ⟨originalChild, isOriginal, isAtOriginal⟩, carries⟩

/-- In a tree with its paths, all elements but the screen are those of the tree without, each with
some path. -/
theorem exists_assignPath_of_at?_generatePaths {root found : Element} {position : Position}
    (isAt : root.generatePaths.at? position = some found)
    (isAddressed : ¬(root.isSystemWide = true ∧ position = [])) :
    ∃ path parentPath original, root.at? position = some original ∧
      assignPath path parentPath original = found := by
  by_cases isScreen : root.isSystemWide = true
  · cases position with
    | nil => exact absurd ⟨isScreen, rfl⟩ isAddressed
    | cons number position =>
        obtain ⟨child, isChild, isAt⟩ := at?_cons_eq_some_iff.mp isAt
        obtain ⟨originalChild, isOriginal, rfl⟩ :=
          exists_of_getElem?_children_generatePaths isScreen isChild
        obtain ⟨path, parentPath, original, isAtOriginal, carries⟩ :=
          exists_assignPath_of_at?_assignPath isAt
        exact ⟨path, parentPath, original,
          at?_cons_eq_some_iff.mpr ⟨originalChild, isOriginal, isAtOriginal⟩, carries⟩
  · rw [generatePaths_of_not_isSystemWide isScreen] at isAt
    exact exists_assignPath_of_at?_assignPath isAt

/-- A tree has no positions with its paths that it has not without. -/
theorem exists_at?_of_at?_generatePaths {root found : Element} {position : Position}
    (isAt : root.generatePaths.at? position = some found) :
    ∃ original, root.at? position = some original := by
  by_cases isScreen : root.isSystemWide = true ∧ position = []
  · obtain ⟨_, rfl⟩ := isScreen
    exact ⟨root, rfl⟩
  · obtain ⟨_, _, original, isAtOriginal, _⟩ :=
      exists_assignPath_of_at?_generatePaths isAt isScreen
    exact ⟨original, isAtOriginal⟩

/-! ## Elements with their paths -/

/-- Whether an element carries the written form of a path and everything below it the written form
of the path on which the segments of siblings follow. -/
inductive Carries : Path → Element → Prop where
  | intro {path : Path} {element : Element}
      (carries : element.path = path.render)
      (below : ∀ (number : Nat) (child : Element), element.children[number]? = some child →
        Carries (path.child (Segment.amongSiblings element.children child number)) child) :
      Carries path element

theorem map_identity_children_assignPath (path : Path) (parentPath : Option String)
    (element : Element) :
    (assignPath path parentPath element).children.map identity =
      element.children.map identity := by
  rw [children_assignPath]
  exact map_mapIdx_of_same fun child _ _ => identity_assignPath _ _ child

theorem map_identity_children_generatePaths {root : Element} (isScreen : root.isSystemWide = true) :
    root.generatePaths.children.map identity = root.children.map identity := by
  rw [children_generatePaths_of_isSystemWide isScreen]
  exact map_mapIdx_of_same fun child _ _ => identity_assignPath _ _ child

theorem carries_assignPath (path : Path) (parentPath : Option String) (element : Element) :
    Carries path (assignPath path parentPath element) := by
  induction element using induction generalizing path parentPath with
  | step element ih =>
      apply Carries.intro
      · exact path_assignPath path parentPath element
      · intro number child isChild
        obtain ⟨original, isOriginal, rfl⟩ := exists_of_getElem?_children_assignPath isChild
        -- The segment was made from the children without paths, which show the same.
        rw [Segment.amongSiblings_congr (map_identity_children_assignPath path parentPath element)
          (identity_assignPath _ _ original)]
        exact ih original (List.mem_of_getElem? isOriginal) _ _

/-- Every element at the top level carries the path of its own segment. -/
theorem carries_topLevel_generatePaths {root element : Element} {number : Nat}
    (isTop : root.generatePaths.topLevel[number]? = some element) :
    Carries { first := Segment.amongSiblings root.generatePaths.topLevel element number }
      element := by
  rw [topLevel, isSystemWide_generatePaths] at isTop ⊢
  by_cases isScreen : root.isSystemWide = true
  · rw [if_pos isScreen] at isTop ⊢
    obtain ⟨original, _, rfl⟩ := exists_of_getElem?_children_generatePaths isScreen isTop
    rw [Segment.amongSiblings_congr (map_identity_children_generatePaths isScreen)
      (identity_assignPath _ _ original)]
    exact carries_assignPath _ none original
  · rw [if_neg isScreen] at isTop ⊢
    have isRoot := List.mem_of_getElem? isTop
    rw [List.mem_singleton] at isRoot
    rw [isRoot, Segment.amongSiblings_singleton,
      Segment.identifying_congr (identity_congr (properties_generatePaths root)), generatePaths,
      if_neg isScreen]
    exact carries_assignPath _ none root

/-- The way down to an element carries on the path of the element it starts from. -/
theorem Carries.leads {path : Path} {siblings : List Element} {number : Nat}
    {element found : Element} {position : Position} (carries : Carries path element)
    (isSibling : siblings[number]? = some element) (isAt : element.at? position = some found) :
    ∃ below : List Segment,
      Leads siblings (number :: position)
        ⟨Segment.amongSiblings siblings element number, below⟩ found ∧
      found.path = ({ path with rest := path.rest ++ below } : Path).render := by
  induction position generalizing path siblings number element with
  | nil =>
      obtain ⟨carriesHere, _⟩ := carries
      rw [at?_nil, Option.some_inj] at isAt
      subst isAt
      exact ⟨[], .arrive isSibling, by rw [List.append_nil, carriesHere]⟩
  | cons next position ih =>
      obtain ⟨_, carriesBelow⟩ := carries
      obtain ⟨child, isChild, isAt⟩ := at?_cons_eq_some_iff.mp isAt
      obtain ⟨below, leads, carriesFound⟩ := ih (carriesBelow next child isChild) isChild isAt
      refine ⟨_, .descend isSibling leads, ?_⟩
      rw [carriesFound, Path.child, List.append_assoc]
      rfl

/-- The number of segments on the way to a position: one for every level below the root, and one
for the root unless it stands for the screen. -/
def segmentsTo (root : Element) (position : Position) : Nat :=
  if root.isSystemWide then position.length else position.length + 1

theorem segmentsTo_of_isSystemWide {root : Element} (isScreen : root.isSystemWide = true)
    (position : Position) : root.segmentsTo position = position.length :=
  if_pos isScreen

theorem segmentsTo_of_not_isSystemWide {root : Element} (isNoScreen : ¬root.isSystemWide = true)
    (position : Position) : root.segmentsTo position = position.length + 1 :=
  if_neg isNoScreen

/-- The segments to a position exceed its length at most by one. -/
theorem segmentsTo_le_iff {root : Element} {position : Position} {limit : Nat}
    (shallow : position.length ≤ limit) :
    root.segmentsTo position ≤ limit ↔ root.isSystemWide = true ∨ position.length < limit := by
  by_cases isScreen : root.isSystemWide = true
  · rw [segmentsTo_of_isSystemWide isScreen]
    exact iff_of_true shallow (Or.inl isScreen)
  · rw [segmentsTo_of_not_isSystemWide isScreen, or_iff_right isScreen, Nat.succ_le_iff]

theorem segmentsTo_eq_of_exceeds {root : Element} {position : Position} {limit : Nat}
    (shallow : position.length ≤ limit) (exceeds : limit < root.segmentsTo position) :
    root.segmentsTo position = limit + 1 := by
  by_cases isScreen : root.isSystemWide = true
  · rw [segmentsTo_of_isSystemWide isScreen] at exceeds
    exact absurd exceeds (Nat.not_lt.mpr shallow)
  · rw [segmentsTo_of_not_isSystemWide isScreen] at exceeds ⊢
    omega

/-! ## Ways from the top level -/

/-- The numbers chosen from the top level on to get to a position. -/
def chosenTo (root : Element) (position : Position) : List Nat :=
  if root.isSystemWide then position else 0 :: position

theorem chosenTo_injective (root : Element) : Function.Injective root.chosenTo := by
  intro position other same
  rw [chosenTo, chosenTo] at same
  split at same
  · exact same
  · exact (List.cons.inj same).2

@[simp]
theorem positionIn_chosenTo (root : Element) (position : Position) :
    Resolver.positionIn root (root.chosenTo position) = position := by
  rw [Resolver.positionIn, chosenTo]
  split <;> rfl

theorem length_chosenTo (root : Element) (position : Position) :
    (root.chosenTo position).length = root.segmentsTo position := by
  rw [chosenTo, segmentsTo]
  split <;> rfl

theorem among?_chosenTo {root : Element} {position : Position}
    (isAddressed : ¬(root.isSystemWide = true ∧ position = [])) :
    among? root.topLevel (root.chosenTo position) = root.at? position := by
  rw [chosenTo, topLevel]
  by_cases isScreen : root.isSystemWide = true
  · rw [if_pos isScreen, if_pos isScreen]
    cases position with
    | nil => exact absurd ⟨isScreen, rfl⟩ isAddressed
    | cons number rest => rfl
  · rw [if_neg isScreen, if_neg isScreen]
    rfl

/-- The numbers that lead from the top level down to an element lead to its position. -/
theorem exists_chosenTo_of_among? {root element : Element} {chosen : List Nat}
    (isAt : among? root.topLevel chosen = some element) :
    ∃ position : Position, root.chosenTo position = chosen ∧
      ¬(root.isSystemWide = true ∧ position = []) ∧ root.at? position = some element := by
  obtain ⟨number, top, rest, rfl, isTop, isBelow⟩ := among?_eq_some_iff.mp isAt
  rw [topLevel] at isTop
  by_cases isScreen : root.isSystemWide = true
  · rw [if_pos isScreen] at isTop
    refine ⟨number :: rest, if_pos isScreen, by simp, ?_⟩
    exact at?_cons_eq_some_iff.mpr ⟨top, isTop, isBelow⟩
  · rw [if_neg isScreen, List.getElem?_singleton] at isTop
    split at isTop
    · rename_i isFirst
      cases isTop
      exact ⟨rest, by rw [chosenTo, if_neg isScreen, isFirst], by simp [isScreen], isBelow⟩
    · contradiction

/-- The elements that paths lead to are those at all positions but that of a screen. -/
theorem mem_preorderAll_topLevel_iff {root element : Element} :
    element ∈ preorderAll root.topLevel ↔
      ∃ position : Position,
        ¬(root.isSystemWide = true ∧ position = []) ∧ root.at? position = some element := by
  rw [mem_preorderAll_iff_among?]
  constructor
  · rintro ⟨chosen, isAt⟩
    obtain ⟨position, _, isAddressed, isAt⟩ := exists_chosenTo_of_among? isAt
    exact ⟨position, isAddressed, isAt⟩
  · rintro ⟨position, isAddressed, isAt⟩
    exact ⟨root.chosenTo position, (among?_chosenTo isAddressed).trans isAt⟩

theorem chosenTo_generatePaths (root : Element) (position : Position) :
    root.generatePaths.chosenTo position = root.chosenTo position := by
  rw [chosenTo, chosenTo, isSystemWide_generatePaths]

/-- In a tree with its paths, every element below the top level carries the written form of the
path on the way down to it. -/
theorem leads_of_among? {root found : Element} {chosen : Position}
    (isAt : among? root.generatePaths.topLevel chosen = some found) :
    ∃ path, Leads root.generatePaths.topLevel chosen path found ∧ found.path = path.render := by
  obtain ⟨number, top, rest, rfl, isTop, isAt⟩ := among?_eq_some_iff.mp isAt
  obtain ⟨below, leads, carries⟩ := (carries_topLevel_generatePaths isTop).leads isTop isAt
  exact ⟨_, leads, carries⟩

/-- In a tree with its paths, every element except the root that stands for the screen carries the
written form of the path on the way down to it. -/
theorem leads_generatePaths {root element : Element} {position : Position}
    (isAt : root.generatePaths.at? position = some element)
    (isAddressed : ¬(root.isSystemWide = true ∧ position = [])) :
    ∃ (path : Path) (chosen : List Nat),
      Leads root.generatePaths.topLevel chosen path element ∧
      element.path = path.render ∧
      Resolver.positionIn root.generatePaths chosen = position ∧
      path.length = root.segmentsTo position := by
  rw [← isSystemWide_generatePaths] at isAddressed
  obtain ⟨path, leads, carries⟩ := leads_of_among? ((among?_chosenTo isAddressed).trans isAt)
  refine ⟨path, _, leads, carries, positionIn_chosenTo _ _, ?_⟩
  rw [leads.length_path, chosenTo_generatePaths, length_chosenTo]

/-! ## Parents -/

/-- A child of an element with its path records this path. -/
theorem parentPath_of_mem_children_assignPath {path : Path} {parentPath : Option String}
    {element child : Element} (isChild : child ∈ (assignPath path parentPath element).children) :
    child.parentPath = some path.render := by
  obtain ⟨number, isNumber⟩ := List.mem_iff_getElem?.mp isChild
  obtain ⟨original, _, rfl⟩ := exists_of_getElem?_children_assignPath isNumber
  rw [assignPath_eq]

/-- In a tree with its paths, every element records the path of the one it is a child of. -/
theorem parentPath_of_at?_generatePaths {root parent child : Element} {position : Position}
    (isAt : root.generatePaths.at? position = some parent)
    (isAddressed : ¬(root.isSystemWide = true ∧ position = []))
    (isChild : child ∈ parent.children) : child.parentPath = some parent.path := by
  obtain ⟨path, parentPath, original, _, rfl⟩ :=
    exists_assignPath_of_at?_generatePaths isAt isAddressed
  rw [path_assignPath]
  exact parentPath_of_mem_children_assignPath isChild

/-- An element at the top level records no parent. -/
theorem parentPath_of_mem_topLevel {root top : Element}
    (isTop : top ∈ root.generatePaths.topLevel) : top.parentPath = none := by
  rw [topLevel, isSystemWide_generatePaths] at isTop
  by_cases isScreen : root.isSystemWide = true
  · rw [if_pos isScreen, children_generatePaths_of_isSystemWide isScreen] at isTop
    obtain ⟨number, inside, rfl⟩ := List.mem_mapIdx.mp isTop
    rw [assignPath_eq]
  · rw [if_neg isScreen, List.mem_singleton] at isTop
    rw [isTop, generatePaths, if_neg isScreen, assignPath_eq]

end Element

end Accessibility
