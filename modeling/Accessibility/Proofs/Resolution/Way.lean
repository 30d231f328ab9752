import Accessibility.Proofs.Path.Generation
import Accessibility.Proofs.Resolution.Trace

/-!
# The way of a walk

A walk that arrives has chosen an element at every level.  These elements stand one below the other
in the tree, on the way to the position of the last one.
-/

namespace Accessibility

namespace Element

/-- The elements on the way from siblings down to a position: a sibling, one of its children, and so
on. -/
def way : List Element → Position → List Element
  | _, [] => []
  | siblings, number :: rest =>
      match siblings[number]? with
      | some sibling => sibling :: way sibling.children rest
      | none => []

/-- The elements on the way from the top level of a tree down to a position. -/
def wayTo (root : Element) (position : Position) : List Element :=
  way root.topLevel (root.chosenTo position)

theorem way_cons {siblings : List Element} {sibling : Element} {number : Nat}
    (isSibling : siblings[number]? = some sibling) (rest : Position) :
    way siblings (number :: rest) = sibling :: way sibling.children rest := by
  rw [way, isSibling]

end Element

namespace Resolver

variable {resolver : Resolver} {stopwatch : Stopwatch} {depth visited : Nat}
  {candidates : List Element} {path : Path} {trace : Trace} {root : Element}
  {resolution : Resolution}

namespace Walks

/-- A walk arrives at the element that stands at its position. -/
theorem among?_of_ok (walks : resolver.Walks stopwatch depth visited candidates path trace)
    (arrived : trace.result = .ok resolution) :
    Element.among? candidates resolution.position = some resolution.element := by
  induction walks generalizing resolution with
  | exceed => contradiction
  | refuse => contradiction
  | arrive _ chose =>
      cases arrived
      have isCandidate := Level.getElem?_of_choose chose
      exact Element.among?_eq_some_iff.mpr ⟨_, _, [], rfl, isCandidate, rfl⟩
  | descend _ chose _ ih =>
      rcases Trace.result_after_eq_ok_iff.mp arrived with ⟨below, arrivedBelow, rfl⟩
      exact Element.among?_cons_of_among?_children (Level.getElem?_of_choose chose)
        (ih arrivedBelow)

/-- A walk that arrives has passed a level for every segment. -/
theorem map_segment_levels (walks : resolver.Walks stopwatch depth visited candidates path trace)
    (arrived : trace.result = .ok resolution) :
    trace.levels.map Level.segment = path.segments := by
  induction walks generalizing resolution with
  | exceed => contradiction
  | refuse => contradiction
  | arrive => rfl
  | descend _ _ _ ih =>
      rcases Trace.result_after_eq_ok_iff.mp arrived with ⟨below, arrivedBelow, _⟩
      exact congrArg (List.cons _) (ih arrivedBelow)

/-- The elements on the way of a walk are those that its levels have chosen. -/
theorem chooses_way (walks : resolver.Walks stopwatch depth visited candidates path trace)
    (arrived : trace.result = .ok resolution) :
    List.Forall₂ (fun level chosen => ∃ number,
      level.choose resolver.maxSuggestions = .ok (number, chosen))
      trace.levels (Element.way candidates resolution.position) := by
  induction walks generalizing resolution with
  | exceed => contradiction
  | refuse => contradiction
  | @arrive _ _ _ _ chosen _ chose =>
      cases arrived
      rw [Element.way_cons (Level.getElem?_of_choose chose)]
      exact .cons ⟨chosen.1, chose⟩ .nil
  | @descend _ _ _ _ chosen _ _ _ chose _ ih =>
      rcases Trace.result_after_eq_ok_iff.mp arrived with ⟨below, arrivedBelow, rfl⟩
      rw [Element.way_cons (Level.getElem?_of_choose chose)]
      exact .cons ⟨chosen.1, chose⟩ (ih arrivedBelow)

end Walks

/-- A path that resolves is not too long, and the walk along it arrives at the element with the
numbers that lead to the element's position in the tree. -/
theorem exists_walk_of_resolve
    (resolved : resolver.resolve path root stopwatch = .ok resolution) :
    path.length ≤ resolver.budget.maxDepth ∧
      (resolver.walk stopwatch 0 0 root.topLevel path.first path.rest).result =
        .ok ⟨resolution.element, root.chosenTo resolution.position, resolution.warnings⟩ ∧
      root.at? resolution.position = some resolution.element := by
  have short : path.length ≤ resolver.budget.maxDepth := by
    by_contra long
    rw [resolve_of_too_long (Nat.lt_of_not_le long)] at resolved
    contradiction
  rw [resolve_of_short short] at resolved
  have walks := resolver.walks_walk stopwatch 0 0 root.topLevel path
  cases arrived : (resolver.walk stopwatch 0 0 root.topLevel path.first path.rest).result with
  | error error =>
      rw [arrived] at resolved
      contradiction
  | ok found =>
      rw [arrived] at resolved
      rcases found with ⟨element, numbers, warnings⟩
      rcases Element.exists_chosenTo_of_among? (walks.among?_of_ok arrived) with
        ⟨position, rfl, _, isAt⟩
      have same : Resolution.mk element (positionIn root (root.chosenTo position)) warnings =
          resolution := Except.ok.inj resolved
      rw [Element.positionIn_chosenTo] at same
      rw [← same]
      exact ⟨short, rfl, isAt⟩

end Resolver

end Accessibility
