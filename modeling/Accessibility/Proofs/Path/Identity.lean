import Accessibility.Proofs.Path.Generation

/-!
# Paths and identities

The paths that a tree is given depend on its shape and on the identities of its elements, and on
nothing else that they show or carried before.
-/

namespace Accessibility

namespace Element

variable {one other : Element}

/-- What a snapshot records of an element: its path and the path of its parent. -/
def bookkeeping (element : Element) : String × Option String :=
  (element.path, element.parentPath)

theorem bookkeeping_assignPath (path : Path) (parentPath : Option String) (element : Element) :
    (assignPath path parentPath element).bookkeeping = (path.render, parentPath) := by
  rw [assignPath_eq]
  rfl

/-- The children of trees with the same identities get the same segments. -/
theorem amongSiblings_eq_of_identities_eq {child otherChild : Element}
    (same : ∀ position : Position,
      (one.at? position).map identity = (other.at? position).map identity)
    (sameChild : ∀ position : Position,
      (child.at? position).map identity = (otherChild.at? position).map identity) (number : Nat) :
    Segment.amongSiblings one.children child number =
      Segment.amongSiblings other.children otherChild number :=
  Segment.amongSiblings_congr (map_children_eq_of_at? same) (Option.some.inj (sameChild [])) number

theorem map_at?_assignPath_eq (path : Path) (parentPath : Option String)
    (same : ∀ position : Position,
      (one.at? position).map identity = (other.at? position).map identity)
    (position : Position) :
    ((assignPath path parentPath one).at? position).map bookkeeping =
      ((assignPath path parentPath other).at? position).map bookkeeping := by
  induction position generalizing path parentPath one other with
  | nil =>
      rw [at?_nil, at?_nil, Option.map_some, Option.map_some, bookkeeping_assignPath,
        bookkeeping_assignPath]
  | cons number position ih =>
      rw [at?, at?, children_assignPath, children_assignPath, List.getElem?_mapIdx,
        List.getElem?_mapIdx]
      rcases getElem?_children_cases same number with
        ⟨isNone, otherIsNone⟩ | ⟨child, otherChild, isChild, isOther, sameBelow⟩
      · rw [isNone, otherIsNone]
        rfl
      · rw [isChild, isOther, Option.map_some, Option.map_some, Option.bind_some, Option.bind_some,
          amongSiblings_eq_of_identities_eq same sameBelow]
        exact ih _ _ sameBelow

theorem isSystemWide_eq_of_identity_eq (same : one.identity = other.identity) :
    one.isSystemWide = other.isSystemWide := by
  rw [isSystemWide, isSystemWide, role_eq_of_identity_eq same]

/-- Trees of the same shape with the same identities get the same paths. -/
theorem map_at?_generatePaths_eq
    (same : ∀ position : Position,
      (one.at? position).map identity = (other.at? position).map identity)
    (position : Position) :
    (one.generatePaths.at? position).map bookkeeping =
      (other.generatePaths.at? position).map bookkeeping := by
  have sameKind := isSystemWide_eq_of_identity_eq (Option.some.inj (same []))
  by_cases isScreen : other.isSystemWide = true
  · have isScreenToo := sameKind.trans isScreen
    cases position with
    | nil =>
        rw [generatePaths, generatePaths, if_pos isScreen, if_pos isScreenToo]
        rfl
    | cons number position =>
        rw [at?, at?, children_generatePaths_of_isSystemWide isScreen,
          children_generatePaths_of_isSystemWide isScreenToo, List.getElem?_mapIdx,
          List.getElem?_mapIdx]
        rcases getElem?_children_cases same number with
          ⟨isNone, otherIsNone⟩ | ⟨child, otherChild, isChild, isOther, sameBelow⟩
        · rw [isNone, otherIsNone]
          rfl
        · rw [isChild, isOther, Option.map_some, Option.map_some, Option.bind_some,
            Option.bind_some, amongSiblings_eq_of_identities_eq same sameBelow]
          exact map_at?_assignPath_eq _ none sameBelow position
  · have isNoScreen : ¬one.isSystemWide = true := sameKind ▸ isScreen
    rw [generatePaths, generatePaths, if_neg isScreen, if_neg isNoScreen,
      Segment.identifying_congr (Option.some.inj (same []))]
    exact map_at?_assignPath_eq _ none same position

end Element

end Accessibility
