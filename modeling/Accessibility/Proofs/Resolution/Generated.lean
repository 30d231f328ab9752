import Accessibility.Proofs.Path.Generation
import Accessibility.Proofs.Path.RoundTrip
import Accessibility.Proofs.Resolution.Trace

/-!
# Resolving generated paths

The path that an element of a tree carries is read as the path on the way down to the element, and
within the limits its resolution ends at this element.  There is nothing that limits it but the
number of its segments and the size of the tree.
-/

namespace Accessibility

namespace Resolver

/-- A path on the way from the top level down to an element resolves to the element. -/
theorem resolve_of_leads {resolver : Resolver} {root found : Element} {chosen : List Nat}
    {path : Path} (leads : Leads root.topLevel chosen path found)
    (noTimeLimit : resolver.budget.timeLimit = none)
    (short : path.length ≤ resolver.budget.maxDepth)
    (small : root.size ≤ resolver.budget.maxVisited) (stopwatch : Stopwatch) :
    ∃ warnings,
      resolver.resolve path root stopwatch = .ok ⟨found, positionIn root chosen, warnings⟩ ∧
      ∀ warning ∈ warnings, warning.IsPotentialAmbiguity := by
  have within : 0 + Element.sizeAll root.topLevel ≤ resolver.budget.maxVisited := by
    rw [Nat.zero_add]
    exact Nat.le_trans root.sizeAll_topLevel_le small
  obtain ⟨warnings, arrives, remarks⟩ := walk_of_leads leads noTimeLimit within stopwatch 0
  exact ⟨warnings, resolve_of_walk short arrives, remarks⟩

/-- The path that an element carries is read as the path on the way down to it. -/
theorem parse_path_generatePaths {root element : Element} {position : Element.Position}
    (areRoles : ∀ element ∈ root.preorder, Segment.IsRole element.role)
    (countable : root.size < UInt64.size)
    (isAt : root.generatePaths.at? position = some element)
    (isAddressed : ¬(root.isSystemWide = true ∧ position = [])) :
    ∃ (path : Path) (chosen : List Nat),
      Path.parse element.path = .ok path ∧
      Leads root.generatePaths.topLevel chosen path element ∧
      positionIn root.generatePaths chosen = position ∧
      path.length = root.segmentsTo position := by
  obtain ⟨path, chosen, leads, carries, atPosition, length⟩ :=
    Element.leads_generatePaths isAt isAddressed
  have wellFormed : ∀ segment ∈ path.segments, segment.IsWellFormed := by
    apply leads.isWellFormed (Element.isRole_topLevel_generatePaths areRoles)
    · have few := root.generatePaths.sizeAll_topLevel_le
      rw [Element.size_generatePaths] at few
      exact Nat.lt_of_le_of_lt few countable
  refine ⟨path, chosen, ?_, leads, atPosition, length⟩
  rw [carries]
  exact Path.parse_render_eq_ok_iff.mpr wellFormed

/-- The path that an element carries in a tree of no more elements than a machine word counts
resolves to this very element, without a remark on its index or on what it does not ask for. -/
theorem resolveText_generatePaths {resolver : Resolver} {root element : Element}
    {position : Element.Position}
    (areRoles : ∀ element ∈ root.preorder, Segment.IsRole element.role)
    (countable : root.size < UInt64.size)
    (isAt : root.generatePaths.at? position = some element)
    (isAddressed : ¬(root.isSystemWide = true ∧ position = []))
    (noTimeLimit : resolver.budget.timeLimit = none)
    (short : ∀ path, Path.parse element.path = .ok path → path.length ≤ resolver.budget.maxDepth)
    (small : root.size ≤ resolver.budget.maxVisited) (stopwatch : Stopwatch) :
    ∃ resolution,
      resolver.resolveText element.path root.generatePaths stopwatch = .ok resolution ∧
      resolution.element = element ∧ resolution.position = position ∧
      ∀ warning ∈ resolution.warnings,
        (∀ segment place, warning ≠ .unnecessaryIndex segment place) ∧
        ∀ segment place identifying, warning ≠ .missingAttribute segment place identifying := by
  obtain ⟨path, chosen, read, leads, atPosition, _⟩ :=
    parse_path_generatePaths areRoles countable isAt isAddressed
  have smallToo : root.generatePaths.size ≤ resolver.budget.maxVisited := by
    rwa [Element.size_generatePaths]
  obtain ⟨warnings, resolves, remarks⟩ :=
    resolve_of_leads leads noTimeLimit (short path read) smallToo stopwatch
  refine ⟨⟨element, positionIn root.generatePaths chosen, warnings⟩, ?_, rfl, atPosition, ?_⟩
  · rw [resolveText, read]
    exact resolves
  · intro warning member
    obtain ⟨_, _, _, rfl⟩ := remarks warning member
    constructor
    · intro segment place same
      contradiction
    · intro segment place identifying same
      contradiction

theorem resolveText_generatePaths_wildcard :
    let root : Element :=
      { properties := { role := "AXWindow", title := some "a/b\"]" }
        children := [.ofRole "", .ofRole "AXRow", .ofRole ""] }
    ∃ element resolution,
      root.generatePaths.at? [2] = some element ∧
      element.path = "macos://ui/AXWindow[@AXTitle=\"a/b\\\"]\"]/*#2" ∧
      ({} : Resolver).resolveText element.path root.generatePaths = .ok resolution ∧
      resolution.element = element ∧ resolution.position = [2] := by
  intro root
  have areRoles : ∀ element ∈ root.preorder, Segment.IsRole element.role := by decide
  have countable : root.size < UInt64.size := by decide
  have small : root.size ≤ 100000 := by decide
  have isAddressed : ¬(root.isSystemWide = true ∧ ([2] : Element.Position) = []) := by decide
  have carries : (root.generatePaths.at? [2]).map Element.path =
      some "macos://ui/AXWindow[@AXTitle=\"a/b\\\"]\"]/*#2" := by decide
  obtain ⟨element, isAt, carries⟩ := Option.map_eq_some_iff.mp carries
  have short : ∀ path, Path.parse element.path = .ok path → path.length ≤ 64 := by
    intro path read
    obtain ⟨_, _, readToo, _, _, length⟩ :=
      parse_path_generatePaths areRoles countable isAt isAddressed
    rw [Except.ok.inj (read.symm.trans readToo), length]
    decide
  obtain ⟨resolution, resolves, same, place, _⟩ :=
    @resolveText_generatePaths {} root element [2] areRoles countable isAt isAddressed rfl short
      small Stopwatch.instant
  exact ⟨element, resolution, isAt, carries, resolves, same, place⟩

end Resolver

end Accessibility
