import Accessibility.Proofs.Path.Distinct
import Accessibility.Proofs.Path.Generation
import Accessibility.Proofs.Snapshot

/-!
# Snapshots of generated paths

The segments of siblings are different, and so are the paths on different ways down a tree.  A tree
with its paths therefore loses no element in a snapshot, where every element is found by its path
and its parent by the path that it records.
-/

namespace Accessibility

namespace Leads

variable {siblings : List Element} {position otherPosition : Element.Position}
  {path otherPath : Path} {found another : Element}

/-- The segments on a way can be written if the roles can. -/
theorem isWritable (leads : Leads siblings position path found)
    (areRoles : ∀ sibling ∈ siblings, ∀ element ∈ sibling.preorder, Segment.IsRole element.role) :
    ∀ segment ∈ path.segments, segment.IsWritable := by
  intro segment onWay
  obtain ⟨level, element, number, rfl, ⟨sibling, isSibling, inside⟩, _⟩ :=
    leads.exists_of_mem_segments onWay
  constructor
  · rw [Segment.role_amongSiblings]
    exact areRoles sibling isSibling element inside
  · exact Segment.canonical_amongSiblings

/-- Different ways down from the same siblings have different paths. -/
theorem position_eq_of_path_eq (leads : Leads siblings position path found)
    (otherLeads : Leads siblings otherPosition otherPath another) (same : path = otherPath) :
    position = otherPosition := by
  induction leads generalizing otherPosition otherPath another with
  | arrive isSibling =>
      cases otherLeads with
      | arrive isOther =>
          rw [Segment.number_eq_of_amongSiblings_eq isSibling isOther (congrArg Path.first same)]
      | descend isOther below => cases congrArg Path.rest same
  | descend isSibling _ ih =>
      cases otherLeads with
      | arrive isOther => cases congrArg Path.rest same
      | descend isOther below =>
          have sameNumber := Segment.number_eq_of_amongSiblings_eq isSibling isOther
            (congrArg Path.first same)
          subst sameNumber
          rw [isSibling] at isOther
          cases isOther
          rw [ih below (Path.segments_injective (congrArg Path.rest same))]

end Leads

namespace Element

variable {root : Element}

/-- No two elements below the top level carry the same path. -/
theorem distinguishes_path (areRoles : ∀ element ∈ root.preorder, Segment.IsRole element.role) :
    Distinguishes Element.path (among? root.generatePaths.topLevel) := by
  intro position other found another isAt isOther same
  rcases leads_of_among? isAt with ⟨path, leads, carries⟩
  rcases leads_of_among? isOther with ⟨otherPath, otherLeads, otherCarries⟩
  have canBeWritten := isRole_topLevel_generatePaths areRoles
  rw [carries, otherCarries] at same
  have samePath := Path.eq_of_render_eq (leads.isWritable canBeWritten)
    (otherLeads.isWritable canBeWritten) same
  exact leads.position_eq_of_path_eq otherLeads samePath

theorem position_eq_of_path_eq (areRoles : ∀ element ∈ root.preorder, Segment.IsRole element.role)
    {position other : Position} {found another : Element}
    (isAddressed : ¬(root.isSystemWide = true ∧ position = []))
    (isAddressedToo : ¬(root.isSystemWide = true ∧ other = []))
    (isAt : root.generatePaths.at? position = some found)
    (isAtOther : root.generatePaths.at? other = some another) (same : found.path = another.path) :
    position = other := by
  rw [← isSystemWide_generatePaths] at isAddressed isAddressedToo
  apply root.generatePaths.chosenTo_injective
  exact distinguishes_path areRoles _ _ found another ((among?_chosenTo isAddressed).trans isAt)
    ((among?_chosenTo isAddressedToo).trans isAtOther) same

end Element

namespace Snapshot

variable {root : Element}

theorem nodup_entries_generatePaths
    (areRoles : ∀ element ∈ root.preorder, Segment.IsRole element.role) :
    (((Element.preorderAll root.generatePaths.topLevel).map fun element =>
      (element.path, element)).map Prod.fst).Nodup := by
  rw [List.map_map]
  exact Element.nodup_map_preorderAll (Element.distinguishes_path areRoles)

/-- The entries are the addressed elements by the paths they carry. -/
theorem getElem?_ofTree_eq_some_iff
    (areRoles : ∀ element ∈ root.preorder, Segment.IsRole element.role) {path : String}
    {element : Element} :
    (ofTree root.generatePaths)[path]? = some element ↔
      ∃ position : Element.Position, ¬(root.isSystemWide = true ∧ position = []) ∧
        root.generatePaths.at? position = some element ∧ element.path = path := by
  rw [ofTree, getElem?_ofEntries_eq_some_iff (nodup_entries_generatePaths areRoles), List.mem_map]
  constructor
  · rintro ⟨found, inside, same⟩
    cases same
    rcases Element.mem_preorderAll_topLevel_iff.mp inside with ⟨position, isAddressed, isAt⟩
    rw [Element.isSystemWide_generatePaths] at isAddressed
    exact ⟨position, isAddressed, isAt, rfl⟩
  · rintro ⟨position, isAddressed, isAt, rfl⟩
    rw [← Element.isSystemWide_generatePaths] at isAddressed
    exact ⟨element, Element.mem_preorderAll_topLevel_iff.mpr ⟨position, isAddressed, isAt⟩, rfl⟩

theorem size_ofTree (areRoles : ∀ element ∈ root.preorder, Segment.IsRole element.role) :
    (ofTree root.generatePaths).size =
      (Element.preorderAll root.generatePaths.topLevel).length := by
  rw [ofTree, size_ofEntries (nodup_entries_generatePaths areRoles), List.length_map]

/-- A tree with its paths has as many entries in its snapshot as there are elements that paths lead
to.  Each of them is found by its path, which no other carries, and each but those at the top level
records the path by which its parent is found. -/
theorem ofTree_generatePaths
    (areRoles : ∀ element ∈ root.preorder, Segment.IsRole element.role) :
    let tree := root.generatePaths
    let snapshot := ofTree tree
    (∀ (one other : Element.Position) (first second : Element),
      ¬(root.isSystemWide = true ∧ one = []) → ¬(root.isSystemWide = true ∧ other = []) →
        tree.at? one = some first → tree.at? other = some second → first.path = second.path →
          one = other) ∧
      snapshot.size = (Element.preorderAll tree.topLevel).length ∧
      (∀ (path : String) (element : Element), snapshot[path]? = some element ↔
        ∃ position : Element.Position, ¬(root.isSystemWide = true ∧ position = []) ∧
          tree.at? position = some element ∧ element.path = path) ∧
      (∀ top ∈ tree.topLevel, top.parentPath = none) ∧
      ∀ (position : Element.Position) (number : Nat) (parent child : Element),
        ¬(root.isSystemWide = true ∧ position = []) → tree.at? position = some parent →
          tree.at? (position ++ [number]) = some child →
            ∃ path, child.parentPath = some path ∧ snapshot[path]? = some parent := by
  intro tree snapshot
  refine ⟨?_, size_ofTree areRoles, ?_, ?_, ?_⟩
  · intro one other first second isAddressed isAddressedToo
    exact Element.position_eq_of_path_eq areRoles isAddressed isAddressedToo
  · intro path element
    exact getElem?_ofTree_eq_some_iff areRoles
  · intro top isTop
    exact Element.parentPath_of_mem_topLevel isTop
  · intro position number parent child isAddressed isAt isBelow
    have isChild := Element.mem_children_of_at?_append isAt isBelow
    refine ⟨parent.path, Element.parentPath_of_at?_generatePaths isAt isAddressed isChild, ?_⟩
    exact (getElem?_ofTree_eq_some_iff areRoles).mpr ⟨position, isAddressed, isAt, rfl⟩

theorem ofTree_generatePaths_equal_children :
    let root : Element :=
      { properties := { role := "AXSystemWide" }
        children := [.ofRole "AXSystemWide", .ofRole "", .ofRole "AXSystemWide"] }
    (∀ element ∈ root.preorder, Segment.IsRole element.role) ∧
      (ofTree root.generatePaths).size = 3 := by
  intro root
  have areRoles : ∀ element ∈ root.preorder, Segment.IsRole element.role := by decide
  rcases ofTree_generatePaths areRoles with ⟨_, size, _⟩
  exact ⟨areRoles, size⟩

end Snapshot

end Accessibility
