import Accessibility.Proofs.Element.Scope
import Accessibility.Proofs.Resolution.Generated
import Accessibility.Service

/-!
# Resolving in snapshots

One limit bounds both the levels of a snapshot below its root and the segments of a path.  Below the
screen the two agree, and a service resolves every path in its snapshot.  Any other root has a segment
of its own, so that the elements on the last level have paths that are too long by one.
-/

namespace Accessibility

namespace Service

/-- A snapshot of a tree is a part of it, cut off below the depth and with its paths. -/
theorem exists_of_capture {settings : Settings} {tree snapshot : Element} {scope : Scope}
    (captured : (ofSettings settings).capture tree.capture scope = .ok snapshot) :
    ∃ found, tree.select? scope = some found ∧
      snapshot = (found.truncate settings.budget.maxDepth).generatePaths := by
  unfold capture Element.capture at captured
  cases isFound : tree.select? scope with
  | none =>
      rw [isFound] at captured
      contradiction
  | some found =>
      rw [isFound] at captured
      exact ⟨found, rfl, (Except.ok.inj captured).symm⟩

/-- The roles in a part of a tree are roles in the tree. -/
theorem isRole_truncate_of_select? {tree found : Element} {scope : Scope}
    (areRoles : ∀ element ∈ tree.preorder, Segment.IsRole element.role)
    (isFound : tree.select? scope = some found) (depth : Nat) :
    ∀ element ∈ (found.truncate depth).preorder, Segment.IsRole element.role := by
  intro element member
  obtain ⟨original, below, same⟩ := Element.properties_of_mem_preorder_truncate member
  have isRole := areRoles original
    (Element.mem_preorder_trans (Element.mem_preorder_of_select? isFound) below)
  rwa [Element.role, same] at isRole

theorem length_le_of_at?_truncate {root element : Element} {depth : Nat}
    {position : Element.Position}
    (isAt : (root.truncate depth).generatePaths.at? position = some element) :
    position.length ≤ depth := by
  obtain ⟨original, isAt⟩ := Element.exists_at?_of_at?_generatePaths isAt
  rw [Element.at?_truncate] at isAt
  by_contra long
  rw [if_neg long] at isAt
  contradiction

/-- A path that is read and is not too long resolves to the element it leads to. -/
theorem resolve_of_leads {service : Service} {root element : Element} {path : Path}
    {chosen : List Nat} (read : Path.parse element.path = .ok path)
    (leads : Leads root.topLevel chosen path element)
    (noTimeLimit : service.resolver.budget.timeLimit = none)
    (small : root.size ≤ service.resolver.budget.maxVisited)
    (short : path.length ≤ service.resolver.budget.maxDepth) :
    ∃ resolution, service.resolve element.path root = .resolved resolution ∧
      resolution.element = element ∧
      resolution.position = Resolver.positionIn root chosen := by
  obtain ⟨warnings, resolves, _⟩ :=
    Resolver.resolve_of_leads leads noTimeLimit short small Stopwatch.instant
  refine ⟨⟨element, Resolver.positionIn root chosen, warnings⟩, ?_, rfl, rfl⟩
  have resolvesText : service.resolver.resolveText element.path root =
      .ok ⟨element, Resolver.positionIn root chosen, warnings⟩ := by
    rw [Resolver.resolveText_of_parse read]
    exact resolves
  rw [resolve, resolvesText, Outcome.ofResult]

theorem resolve_of_too_long {service : Service} {text : String} {path : Path}
    (read : Path.parse text = .ok path)
    (long : service.resolver.budget.maxDepth < path.length) (root : Element) :
    service.resolve text root =
      .failed (.abandoned (.depth path.length service.resolver.budget.maxDepth)) := by
  have givenUp : service.resolver.resolveText text root =
      .error (.abandoned (.depth path.length service.resolver.budget.maxDepth)) := by
    rw [Resolver.resolveText_of_parse read]
    exact Resolver.resolve_of_too_long long root Stopwatch.instant
  rw [resolve, givenUp, Outcome.ofResult]
  all_goals
    intros
    contradiction

/-- A service resolves the path of an element of its snapshot to this very element exactly if the
root stands for the screen or the element is above the last level; it gives up the paths of all
others as too long. -/
theorem resolve_snapshot_iff {settings : Settings} {tree snapshot element : Element}
    {scope : Scope} {position : Element.Position}
    (noTimeLimit : settings.budget.timeLimit = none)
    (areRoles : ∀ element ∈ tree.preorder, Segment.IsRole element.role)
    (captured : (ofSettings settings).capture tree.capture scope = .ok snapshot)
    (countable : snapshot.size < UInt64.size)
    (small : snapshot.size ≤ settings.budget.maxVisited)
    (isAt : snapshot.at? position = some element)
    (isAddressed : ¬(snapshot.isSystemWide = true ∧ position = [])) :
    ((∃ resolution, (ofSettings settings).resolve element.path snapshot = .resolved resolution ∧
        resolution.element = element ∧ resolution.position = position) ↔
      snapshot.isSystemWide = true ∨ position.length < settings.budget.maxDepth) ∧
    (¬(snapshot.isSystemWide = true ∨ position.length < settings.budget.maxDepth) →
      (ofSettings settings).resolve element.path snapshot =
        .failed (.abandoned
          (.depth (settings.budget.maxDepth + 1) settings.budget.maxDepth))) := by
  obtain ⟨found, isFound, rfl⟩ := exists_of_capture captured
  have shallow := length_le_of_at?_truncate isAt
  rw [Element.isSystemWide_generatePaths] at isAddressed ⊢
  rw [Element.size_generatePaths] at countable
  obtain ⟨path, chosen, read, leads, atPosition, length⟩ :=
    Resolver.parse_path_generatePaths (isRole_truncate_of_select? areRoles isFound _) countable
      isAt isAddressed
  rw [← Element.segmentsTo_le_iff shallow, ← length]
  have givesUp (long : settings.budget.maxDepth < path.length) :
      (ofSettings settings).resolve element.path
          (found.truncate settings.budget.maxDepth).generatePaths =
        .failed (.abandoned
          (.depth (settings.budget.maxDepth + 1) settings.budget.maxDepth)) := by
    have exceeds := long
    rw [length] at exceeds
    rw [← Element.segmentsTo_eq_of_exceeds shallow exceeds, ← length]
    exact resolve_of_too_long read long _
  constructor
  · constructor
    · rintro ⟨resolution, resolves, _, _⟩
      by_contra notShort
      rw [givesUp (Nat.lt_of_not_le notShort)] at resolves
      contradiction
    · intro short
      obtain ⟨resolution, resolves, same, place⟩ :=
        @resolve_of_leads (ofSettings settings) _ _ _ _ read leads noTimeLimit small short
      exact ⟨resolution, resolves, same, place.trans atPosition⟩
  · intro notShort
    exact givesUp (Nat.lt_of_not_le notShort)

theorem resolve_snapshot_iff_of_application :
    let settings : Settings := { budget := { maxDepth := 1 } }
    let tree : Element :=
      { properties := { role := "AXApplication" }, children := [.ofRole "AXWindow"] }
    ∃ snapshot application window,
      (ofSettings settings).capture tree.capture .systemWide = .ok snapshot ∧
      snapshot.at? [] = some application ∧ snapshot.at? [0] = some window ∧
      (∃ resolution,
        (ofSettings settings).resolve application.path snapshot = .resolved resolution ∧
        resolution.element = application ∧ resolution.position = []) ∧
      (ofSettings settings).resolve window.path snapshot =
        .failed (.abandoned (.depth 2 1)) := by
  intro settings tree
  have areRoles : ∀ element ∈ tree.preorder, Segment.IsRole element.role := by decide
  have captured : (ofSettings settings).capture tree.capture .systemWide =
      .ok (tree.truncate 1).generatePaths := rfl
  have countable : (tree.truncate 1).generatePaths.size < UInt64.size := by decide
  have small : (tree.truncate 1).generatePaths.size ≤ settings.budget.maxVisited := by decide
  have isNoScreen : (tree.truncate 1).generatePaths.isSystemWide = false := by decide
  have hasWindow : ((tree.truncate 1).generatePaths.at? [0]).isSome = true := by decide
  obtain ⟨window, isWindow⟩ := Option.isSome_iff_exists.mp hasWindow
  have isApplication : (tree.truncate 1).generatePaths.at? [] =
      some (tree.truncate 1).generatePaths := rfl
  have application := resolve_snapshot_iff rfl areRoles captured countable small isApplication
    (by simp [isNoScreen])
  have onLastLevel := resolve_snapshot_iff rfl areRoles captured countable small isWindow
    (by simp)
  exact ⟨_, _, window, captured, rfl, isWindow, application.1.mpr (by decide),
    onLastLevel.2 (by decide)⟩

/-- A service does not resolve every path in its snapshots. -/
theorem not_forall_resolve_snapshot :
    ¬∀ (settings : Settings) (tree snapshot element : Element) (scope : Scope)
        (position : Element.Position),
      settings.isValid = true → settings.budget.timeLimit = none →
      (∀ element ∈ tree.preorder, Segment.IsRole element.role) →
      (ofSettings settings).capture tree.capture scope = .ok snapshot →
      snapshot.size ≤ settings.budget.maxVisited →
      snapshot.at? position = some element →
      ¬(snapshot.isSystemWide = true ∧ position = []) →
      ∃ resolution, (ofSettings settings).resolve element.path snapshot = .resolved resolution ∧
        resolution.element = element := by
  intro always
  let settings : Settings := { budget := { maxDepth := 1 } }
  let tree : Element :=
    { properties := { role := "AXApplication" }, children := [.ofRole "AXWindow"] }
  have carries : ((tree.truncate 1).generatePaths.at? [0]).map Element.path =
      some "macos://ui/AXApplication/AXWindow" := by decide
  obtain ⟨window, isWindow, carries⟩ := Option.map_eq_some_iff.mp carries
  obtain ⟨resolution, resolves, _⟩ := always settings tree (tree.truncate 1).generatePaths window
    .systemWide [0] (by decide) rfl (by decide) rfl (by decide) isWindow (by simp)
  have read : Path.parse window.path =
      .ok { first := { role := "AXApplication" }, rest := [{ role := "AXWindow" }] } := by
    rw [carries]
    decide
  rw [resolve_of_too_long read (by decide)] at resolves
  contradiction

end Service

end Accessibility
