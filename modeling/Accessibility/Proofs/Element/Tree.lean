import Accessibility.Element.Basic
import Mathlib.Data.List.Nodup

/-!
# Trees of elements

The elements of a tree are those at its positions, and what differs from position to position is not
seen twice among them.  Walking down a tree uses it up: the siblings at a level and everything below
the chosen one are no more than the siblings with all below them.
-/

namespace Accessibility

namespace Element

/-- What holds of an element when it holds of its children holds of every element. -/
theorem induction {motive : Element → Prop}
    (step : ∀ element : Element, (∀ child ∈ element.children, motive child) → motive element)
    (element : Element) : motive element :=
  step element fun child _ => induction step child
termination_by sizeOf element
decreasing_by
  have smaller := List.sizeOf_lt_of_mem ‹_›
  cases element
  simp only [Element.mk.sizeOf_spec] at smaller ⊢
  omega

/-! ## Elements in preorder -/

theorem preorderAll_eq_flatMap (elements : List Element) :
    preorderAll elements = elements.flatMap preorder := by
  induction elements with
  | nil => rfl
  | cons element rest ih => rw [preorderAll, ih, List.flatMap_cons]

theorem preorder_eq_cons (element : Element) :
    element.preorder = element :: element.children.flatMap preorder := by
  rw [← preorderAll_eq_flatMap]
  cases element
  rfl

theorem mem_preorder {element other : Element} :
    other ∈ element.preorder ↔
      other = element ∨ ∃ child ∈ element.children, other ∈ child.preorder := by
  rw [preorder_eq_cons, List.mem_cons, List.mem_flatMap]

theorem sublist_preorderAll (elements : List Element) : elements.Sublist (preorderAll elements) := by
  induction elements with
  | nil => exact List.Sublist.refl _
  | cons element rest ih =>
      rw [preorderAll, preorder_eq_cons, List.cons_append]
      exact (ih.trans (List.sublist_append_right _ _)).cons_cons element

theorem mem_preorder_self (element : Element) : element ∈ element.preorder :=
  mem_preorder.mpr (Or.inl rfl)

theorem mem_preorder_of_mem_children {element child other : Element}
    (isChild : child ∈ element.children) (below : other ∈ child.preorder) :
    other ∈ element.preorder :=
  mem_preorder.mpr (Or.inr ⟨child, isChild, below⟩)

/-- What is below an element of a tree is in the tree. -/
theorem mem_preorder_trans {root element other : Element} (inside : element ∈ root.preorder)
    (below : other ∈ element.preorder) : other ∈ root.preorder := by
  induction root using induction with
  | step root ih =>
      rcases mem_preorder.mp inside with rfl | ⟨child, isChild, inside⟩
      · exact below
      · exact mem_preorder_of_mem_children isChild (ih child isChild inside)

/-! ## Sizes -/

theorem size_eq (element : Element) : element.size = 1 + sizeAll element.children := by
  cases element
  rfl

theorem length_flatMap_preorder {elements : List Element}
    (counted : ∀ element ∈ elements, element.preorder.length = element.size) :
    (elements.flatMap preorder).length = sizeAll elements := by
  induction elements with
  | nil => rfl
  | cons element rest ih =>
      obtain ⟨countedFirst, countedRest⟩ := List.forall_mem_cons.mp counted
      rw [List.flatMap_cons, List.length_append, countedFirst, ih countedRest, sizeAll]

/-- The size is the number of elements. -/
theorem length_preorder (element : Element) : element.preorder.length = element.size := by
  induction element using induction with
  | step element ih =>
      rw [preorder_eq_cons, List.length_cons, length_flatMap_preorder ih, size_eq, Nat.add_comm]

theorem length_le_sizeAll (elements : List Element) : elements.length ≤ sizeAll elements := by
  induction elements with
  | nil => exact Nat.le_refl 0
  | cons element rest ih =>
      rw [sizeAll, size_eq, List.length_cons]
      omega

/-- The siblings and what is below one of them are no more than all that is there. -/
theorem length_add_sizeAll_children_le {siblings : List Element} {element : Element}
    (isSibling : element ∈ siblings) :
    siblings.length + sizeAll element.children ≤ sizeAll siblings := by
  induction isSibling with
  | head rest =>
      have others := length_le_sizeAll rest
      rw [sizeAll, size_eq, List.length_cons]
      omega
  | tail first _ ih =>
      rw [sizeAll, size_eq, List.length_cons]
      omega

/-! ## Elements at the top level -/

theorem sizeAll_topLevel_le (root : Element) : sizeAll root.topLevel ≤ root.size := by
  rw [topLevel]
  split
  · rw [size_eq]
    exact Nat.le_add_left _ 1
  · simp only [sizeAll, Nat.add_zero, Nat.le_refl]

theorem mem_preorder_of_mem_topLevel {root top element : Element} (isTop : top ∈ root.topLevel)
    (below : element ∈ top.preorder) : element ∈ root.preorder := by
  rw [topLevel] at isTop
  split at isTop
  · exact mem_preorder_of_mem_children isTop below
  · rw [List.mem_singleton] at isTop
    rwa [← isTop]

/-! ## Elements at positions -/

@[simp]
theorem at?_nil (element : Element) : element.at? [] = some element :=
  rfl

theorem at?_cons_eq_some_iff {element found : Element} {number : Nat} {rest : Position} :
    element.at? (number :: rest) = some found ↔
      ∃ child, element.children[number]? = some child ∧ child.at? rest = some found := by
  rw [at?, Option.bind_eq_some_iff]

theorem mem_preorder_of_at? {element found : Element} {position : Position}
    (isAt : element.at? position = some found) : found ∈ element.preorder := by
  induction position generalizing element with
  | nil =>
      rw [← Option.some.inj isAt]
      exact mem_preorder_self element
  | cons number rest ih =>
      obtain ⟨child, isChild, isAt⟩ := at?_cons_eq_some_iff.mp isAt
      exact mem_preorder_of_mem_children (List.mem_of_getElem? isChild) (ih isAt)

/-- The elements of a tree are those at its positions. -/
theorem mem_preorder_iff_at? {element other : Element} :
    other ∈ element.preorder ↔ ∃ position, element.at? position = some other := by
  constructor
  · intro member
    induction element using induction with
    | step element ih =>
        rcases mem_preorder.mp member with rfl | ⟨child, isChild, below⟩
        · exact ⟨[], rfl⟩
        · obtain ⟨position, isAt⟩ := ih child isChild below
          obtain ⟨number, isNumber⟩ := List.mem_iff_getElem?.mp isChild
          exact ⟨number :: position, at?_cons_eq_some_iff.mpr ⟨child, isNumber, isAt⟩⟩
  · rintro ⟨position, isAt⟩
    exact mem_preorder_of_at? isAt

theorem at?_append (element : Element) (position rest : Position) :
    element.at? (position ++ rest) = (element.at? position).bind (at? · rest) := by
  induction position generalizing element with
  | nil => rfl
  | cons number position ih =>
      rw [List.cons_append, at?, at?]
      cases element.children[number]? with
      | none => rfl
      | some child => exact ih child

theorem mem_children_of_at?_append {root parent child : Element} {position : Position}
    {number : Nat} (isAt : root.at? position = some parent)
    (isBelow : root.at? (position ++ [number]) = some child) : child ∈ parent.children := by
  rw [at?_append, isAt, Option.bind_some, at?_cons_eq_some_iff] at isBelow
  obtain ⟨found, isNumber, same⟩ := isBelow
  rw [← Option.some.inj same]
  exact List.mem_of_getElem? isNumber

/-! ## Elements told apart by their positions -/

/-- The element at a position below siblings: the first number chooses one of them. -/
def among? (siblings : List Element) : Position → Option Element
  | [] => none
  | number :: rest => siblings[number]?.bind (at? · rest)

theorem among?_eq_some_iff {siblings : List Element} {found : Element} {position : Position} :
    among? siblings position = some found ↔
      ∃ number sibling rest, position = number :: rest ∧ siblings[number]? = some sibling ∧
        sibling.at? rest = some found := by
  cases position with
  | nil => simp [among?]
  | cons number rest =>
      rw [among?, Option.bind_eq_some_iff]
      constructor
      · rintro ⟨sibling, isSibling, isAt⟩
        exact ⟨number, sibling, rest, rfl, isSibling, isAt⟩
      · rintro ⟨_, sibling, _, same, isSibling, isAt⟩
        cases same
        exact ⟨sibling, isSibling, isAt⟩

theorem among?_cons_of_among?_children {siblings : List Element} {sibling found : Element}
    {number : Nat} {position : Position} (isSibling : siblings[number]? = some sibling)
    (isBelow : among? sibling.children position = some found) :
    among? siblings (number :: position) = some found := by
  cases position with
  | nil => contradiction
  | cons next rest =>
      rw [among?, isSibling]
      exact isBelow

theorem mem_preorderAll_iff_among? {siblings : List Element} {element : Element} :
    element ∈ preorderAll siblings ↔ ∃ position, among? siblings position = some element := by
  rw [preorderAll_eq_flatMap, List.mem_flatMap]
  constructor
  · rintro ⟨sibling, isSibling, below⟩
    obtain ⟨number, isNumber⟩ := List.mem_iff_getElem?.mp isSibling
    obtain ⟨rest, isAt⟩ := mem_preorder_iff_at?.mp below
    exact ⟨number :: rest,
      among?_eq_some_iff.mpr ⟨number, sibling, rest, rfl, isNumber, isAt⟩⟩
  · rintro ⟨position, isAt⟩
    obtain ⟨number, sibling, rest, rfl, isNumber, isAt⟩ := among?_eq_some_iff.mp isAt
    exact ⟨sibling, List.mem_of_getElem? isNumber, mem_preorder_of_at? isAt⟩

section Distinguishes

variable {α : Type} {see : Element → α} {element : Element} {siblings : List Element}

/-- Whether what is seen of the elements at two positions is different. -/
def Distinguishes (see : Element → α) (elementAt? : Position → Option Element) : Prop :=
  ∀ (position other : Position) (found another : Element), elementAt? position = some found →
    elementAt? other = some another → see found = see another → position = other

theorem Distinguishes.at? {sibling : Element} (distinct : Distinguishes see (among? siblings))
    (isSibling : sibling ∈ siblings) : Distinguishes see sibling.at? := by
  intro position other found another isAt isAtOther same
  obtain ⟨number, isNumber⟩ := List.mem_iff_getElem?.mp isSibling
  have below : number :: position = number :: other :=
    distinct _ _ found another
      (among?_eq_some_iff.mpr ⟨number, sibling, position, rfl, isNumber, isAt⟩)
      (among?_eq_some_iff.mpr ⟨number, sibling, other, rfl, isNumber, isAtOther⟩) same
  exact (List.cons.inj below).2

theorem Distinguishes.among? (distinct : Distinguishes see element.at?) :
    Distinguishes see (among? element.children) := by
  intro position other found another isAt isAtOther
  obtain ⟨number, child, rest, rfl, isChild, isAt⟩ := among?_eq_some_iff.mp isAt
  obtain ⟨otherNumber, otherChild, otherRest, rfl, isOther, isAtOther⟩ :=
    among?_eq_some_iff.mp isAtOther
  exact distinct _ _ found another (at?_cons_eq_some_iff.mpr ⟨child, isChild, isAt⟩)
    (at?_cons_eq_some_iff.mpr ⟨otherChild, isOther, isAtOther⟩)

theorem nodup_map_flatMap_preorder (distinct : Distinguishes see (Element.among? siblings))
    (each : ∀ sibling ∈ siblings, Distinguishes see sibling.at? →
      (sibling.preorder.map see).Nodup) :
    ((siblings.flatMap preorder).map see).Nodup := by
  rw [List.map_flatMap, List.nodup_flatMap]
  constructor
  · intro sibling isSibling
    exact each sibling isSibling (distinct.at? isSibling)
  · rw [List.pairwise_iff_getElem]
    intro one other oneInside otherInside before seen inOne inOther
    obtain ⟨found, below, rfl⟩ := List.mem_map.mp inOne
    obtain ⟨another, belowOther, same⟩ := List.mem_map.mp inOther
    obtain ⟨rest, isAt⟩ := mem_preorder_iff_at?.mp below
    obtain ⟨otherRest, isAtOther⟩ := mem_preorder_iff_at?.mp belowOther
    have samePosition := distinct (other :: otherRest) (one :: rest) another found
      (among?_eq_some_iff.mpr ⟨_, _, _, rfl, List.getElem?_eq_getElem otherInside, isAtOther⟩)
      (among?_eq_some_iff.mpr ⟨_, _, _, rfl, List.getElem?_eq_getElem oneInside, isAt⟩) same
    exact Nat.ne_of_gt before (List.cons.inj samePosition).1

/-- What differs at different positions of a tree is not seen twice in it. -/
theorem nodup_map_preorder (distinct : Distinguishes see element.at?) :
    (element.preorder.map see).Nodup := by
  induction element using induction with
  | step element ih =>
      rw [preorder_eq_cons, List.map_cons, List.nodup_cons]
      constructor
      · intro seenBelow
        obtain ⟨found, inside, same⟩ := List.mem_map.mp seenBelow
        obtain ⟨child, isChild, below⟩ := List.mem_flatMap.mp inside
        obtain ⟨number, isNumber⟩ := List.mem_iff_getElem?.mp isChild
        obtain ⟨rest, isAt⟩ := mem_preorder_iff_at?.mp below
        have isBelow := at?_cons_eq_some_iff.mpr ⟨child, isNumber, isAt⟩
        cases distinct _ _ found element isBelow (at?_nil element) same
      · exact nodup_map_flatMap_preorder distinct.among? ih

/-- What differs at different positions below siblings is not seen twice there. -/
theorem nodup_map_preorderAll (distinct : Distinguishes see (Element.among? siblings)) :
    ((preorderAll siblings).map see).Nodup := by
  rw [preorderAll_eq_flatMap]
  exact nodup_map_flatMap_preorder distinct fun _ _ => nodup_map_preorder

end Distinguishes

end Element

end Accessibility
