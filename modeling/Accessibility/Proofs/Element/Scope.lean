import Accessibility.Proofs.Element.Tree
import Accessibility.Scope

/-!
# Parts of trees

Narrowing a tree down to a scope finds one of its elements.  Cutting a tree off below a depth keeps
the elements at the positions that are not longer than the depth, and changes nothing that they
show.
-/

namespace Accessibility

namespace Element

/-! ## Narrowing down -/

theorem mem_preorder_of_mem_children_self {element child : Element}
    (isChild : child ∈ element.children) : child ∈ element.preorder :=
  mem_preorder_of_mem_children isChild (mem_preorder_self child)

theorem mem_preorder_of_application? {name : String} {root found : Element}
    (isFound : root.application? name = some found) : found ∈ root.preorder := by
  unfold application? at isFound
  split at isFound
  · rw [← Option.some.inj isFound]
    exact mem_preorder_self root
  · split at isFound
    · exact mem_preorder_of_mem_children_self (List.mem_of_find?_eq_some isFound)
    · contradiction

theorem deepestAt?_eq (holds : Frame → Bool) (element : Element) :
    element.deepestAt? holds =
      if element.isSystemWide then lastAt? holds element.children
      else if holds element.properties.frame then
        (lastAt? holds element.children).or (some element)
      else none := by
  cases element
  rw [deepestAt?]

theorem exists_of_lastAt? {holds : Frame → Bool} {elements : List Element} {found : Element}
    (isFound : lastAt? holds elements = some found) :
    ∃ element ∈ elements, element.deepestAt? holds = some found := by
  induction elements with
  | nil => contradiction
  | cons element rest ih =>
      rw [lastAt?, Option.or_eq_some_iff] at isFound
      rcases isFound with later | ⟨_, here⟩
      · obtain ⟨other, member, isFound⟩ := ih later
        exact ⟨other, List.mem_cons_of_mem element member, isFound⟩
      · exact ⟨element, List.mem_cons_self, here⟩

theorem mem_preorder_of_deepestAt? {holds : Frame → Bool} {root found : Element}
    (isFound : root.deepestAt? holds = some found) : found ∈ root.preorder := by
  induction root using induction with
  | step root ih =>
      have below (isLast : lastAt? holds root.children = some found) : found ∈ root.preorder := by
        obtain ⟨child, isChild, isFound⟩ := exists_of_lastAt? isLast
        exact mem_preorder_of_mem_children isChild (ih child isChild isFound)
      rw [deepestAt?_eq] at isFound
      split at isFound
      · exact below isFound
      · split at isFound
        · rcases Option.or_eq_some_iff.mp isFound with isLast | ⟨_, isRoot⟩
          · exact below isLast
          · rw [← Option.some.inj isRoot]
            exact mem_preorder_self root
        · contradiction

/-- What a tree is narrowed down to is one of its elements. -/
theorem mem_preorder_of_select? {root found : Element} {scope : Scope}
    (isFound : root.select? scope = some found) : found ∈ root.preorder := by
  cases scope with
  | systemWide =>
      rw [← Option.some.inj isFound]
      exact mem_preorder_self root
  | application name => exact mem_preorder_of_application? isFound
  | position x y => exact mem_preorder_of_deepestAt? isFound

/-! ## Cutting off -/

theorem truncateAll_eq_map (depth : Nat) (elements : List Element) :
    truncateAll depth elements = elements.map (truncate depth) := by
  induction elements with
  | nil => rfl
  | cons element rest ih => rw [truncateAll, ih, List.map_cons]

@[simp]
theorem properties_truncate (depth : Nat) (element : Element) :
    (element.truncate depth).properties = element.properties := by
  cases element
  cases depth <;> rfl

/-- An element on its own: all that is recorded of it but its children. -/
def childless (element : Element) : Element :=
  { element with children := [] }

theorem truncate_zero (element : Element) : element.truncate 0 = element.childless := by
  cases element
  rfl

theorem truncate_succ (depth : Nat) (element : Element) :
    element.truncate (depth + 1) =
      { element with children := element.children.map (truncate depth) } := by
  rw [← truncateAll_eq_map]
  cases element
  rfl

theorem children_truncate_zero (element : Element) : (element.truncate 0).children = [] := by
  rw [truncate_zero, childless]

theorem children_truncate_succ (depth : Nat) (element : Element) :
    (element.truncate (depth + 1)).children = element.children.map (truncate depth) := by
  rw [truncate_succ]

/-- A tree cut off below a depth has what the tree has at the positions up to this length. -/
theorem at?_truncate (depth : Nat) (element : Element) (position : Position) :
    (element.truncate depth).at? position =
      if position.length ≤ depth then
        (element.at? position).map (truncate (depth - position.length))
      else none := by
  induction position generalizing depth element with
  | nil => simp
  | cons number position ih =>
      cases depth with
      | zero => simp [at?, children_truncate_zero]
      | succ depth =>
          rw [at?, at?, children_truncate_succ, List.getElem?_map]
          cases element.children[number]? with
          | none => simp
          | some child => simp [ih]

theorem properties_of_mem_preorder_truncate {depth : Nat} {root element : Element}
    (member : element ∈ (root.truncate depth).preorder) :
    ∃ original ∈ root.preorder, original.properties = element.properties := by
  obtain ⟨position, isAt⟩ := mem_preorder_iff_at?.mp member
  rw [at?_truncate] at isAt
  split at isAt
  · obtain ⟨original, isAtOriginal, rfl⟩ := Option.map_eq_some_iff.mp isAt
    exact ⟨original, mem_preorder_of_at? isAtOriginal, (properties_truncate _ original).symm⟩
  · contradiction

end Element

end Accessibility
