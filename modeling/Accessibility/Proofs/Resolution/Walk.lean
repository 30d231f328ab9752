import Accessibility.Proofs.Element.Tree
import Accessibility.Proofs.Resolution.Siblings
import Accessibility.Resolution.Resolver

/-!
# Walks along the segments of siblings

The way from a level of siblings down to an element has a segment for every element on it.  A walk
along these segments meets at every level the siblings they were made from, chooses right, and
arrives at the element at the end of the way, unless it exceeds a limit.
-/

namespace Accessibility

/-- The way from siblings down to an element: the numbers chosen on it, and the path of the segments
that choose them. -/
inductive Leads : List Element → Element.Position → Path → Element → Prop where
  | arrive {siblings : List Element} {number : Nat} {element : Element}
      (isSibling : siblings[number]? = some element) :
      Leads siblings [number] { first := Segment.amongSiblings siblings element number } element
  | descend {siblings : List Element} {number : Nat} {element found : Element}
      {position : Element.Position} {path : Path}
      (isSibling : siblings[number]? = some element)
      (leads : Leads element.children position path found) :
      Leads siblings (number :: position)
        ⟨Segment.amongSiblings siblings element number, path.segments⟩ found

namespace Leads

variable {siblings : List Element} {position : Element.Position} {path : Path} {found : Element}

theorem length_path (leads : Leads siblings position path found) :
    path.length = position.length := by
  induction leads with
  | arrive => rfl
  | descend _ _ ih => rw [Path.length, Path.length_segments, ih, List.length_cons]

/-- The segments on a way are those of siblings in the tree. -/
theorem exists_of_mem_segments (leads : Leads siblings position path found) {segment : Segment}
    (onWay : segment ∈ path.segments) :
    ∃ (level : List Element) (element : Element) (number : Nat),
      segment = Segment.amongSiblings level element number ∧
        (∃ sibling ∈ siblings, element ∈ sibling.preorder) ∧
        level.length ≤ Element.sizeAll siblings := by
  induction leads with
  | @arrive siblings number element isSibling =>
      have member := List.mem_of_getElem? isSibling
      rw [Path.segments, List.mem_singleton] at onWay
      exact ⟨siblings, element, number, onWay, ⟨element, member, element.mem_preorder_self⟩,
        Element.length_le_sizeAll siblings⟩
  | @descend siblings number element _ _ path isSibling _ ih =>
      have member := List.mem_of_getElem? isSibling
      have count := Element.length_add_sizeAll_children_le member
      rcases List.mem_cons.mp onWay with here | below
      · exact ⟨siblings, element, number, here, ⟨element, member, element.mem_preorder_self⟩,
          Element.length_le_sizeAll siblings⟩
      · obtain ⟨level, other, place, same, ⟨child, isChild, inside⟩, few⟩ := ih below
        refine ⟨level, other, place, same, ⟨element, member, ?_⟩, by omega⟩
        exact Element.mem_preorder_of_mem_children isChild inside

/-- The segments on a way are well-formed if the roles can be written and the siblings at a level
can be counted. -/
theorem isWellFormed (leads : Leads siblings position path found)
    (areRoles : ∀ sibling ∈ siblings, ∀ element ∈ sibling.preorder, Segment.IsRole element.role)
    (few : Element.sizeAll siblings < UInt64.size) :
    ∀ segment ∈ path.segments, segment.IsWellFormed := by
  intro segment onWay
  obtain ⟨level, element, number, rfl, ⟨sibling, isSibling, inside⟩, atMost⟩ :=
    leads.exists_of_mem_segments onWay
  exact Segment.isWellFormed_amongSiblings (areRoles sibling isSibling element inside)
    (Nat.lt_of_le_of_lt atMost few) number

end Leads

namespace Resolver

variable {resolver : Resolver} {siblings : List Element} {number : Nat} {element : Element}
  {visited : Nat}

/-- A level within the limits is passed with the sibling whose segment stands there. -/
theorem pass_ofSibling (isSibling : siblings[number]? = some element)
    (noTimeLimit : resolver.budget.timeLimit = none)
    (within : visited ≤ resolver.budget.maxVisited) (elapsed depth : Nat) :
    resolver.pass visited elapsed (Level.ofSibling depth siblings element number) =
      ([Level.ofSibling depth siblings element number], .ok (number, element)) := by
  have checked : resolver.check visited elapsed = .ok () := by
    rw [check, if_neg (Nat.not_lt.mpr within), noTimeLimit]
  rw [pass, checked, Level.choose_ofSibling isSibling]

theorem walk_arrive (isSibling : siblings[number]? = some element)
    (noTimeLimit : resolver.budget.timeLimit = none)
    (within : visited + siblings.length ≤ resolver.budget.maxVisited)
    (stopwatch : Stopwatch) (depth : Nat) :
    (resolver.walk stopwatch depth visited siblings
        (Segment.amongSiblings siblings element number) []).result =
      .ok ⟨element, [number], (Level.ofSibling depth siblings element number).warnings element⟩ := by
  have passed := pass_ofSibling isSibling noTimeLimit within (stopwatch depth) depth
  rw [Level.ofSibling] at passed
  simp only [walk, passed]
  rfl

theorem walk_descend (isSibling : siblings[number]? = some element)
    (noTimeLimit : resolver.budget.timeLimit = none)
    (within : visited + siblings.length ≤ resolver.budget.maxVisited)
    (stopwatch : Stopwatch) (depth : Nat) (next : Segment) (others : List Segment) :
    resolver.walk stopwatch depth visited siblings
        (Segment.amongSiblings siblings element number) (next :: others) =
      (resolver.walk stopwatch (depth + 1) (visited + siblings.length) element.children next
        others).after (Level.ofSibling depth siblings element number) number
          ((Level.ofSibling depth siblings element number).warnings element) := by
  have passed := pass_ofSibling isSibling noTimeLimit within (stopwatch depth) depth
  rw [Level.ofSibling] at passed
  simp only [walk, passed]
  rfl

/-- A walk within its limits along the segments of a way arrives where the way ends, by the numbers
on it, and remarks on nothing but the roles of siblings. -/
theorem walk_of_leads {position : Element.Position} {path : Path} {found : Element}
    (leads : Leads siblings position path found)
    (noTimeLimit : resolver.budget.timeLimit = none)
    (within : visited + Element.sizeAll siblings ≤ resolver.budget.maxVisited)
    (stopwatch : Stopwatch) (depth : Nat) :
    ∃ warnings,
      (resolver.walk stopwatch depth visited siblings path.first path.rest).result =
        .ok ⟨found, position, warnings⟩ ∧
      ∀ warning ∈ warnings, warning.IsPotentialAmbiguity := by
  -- What has been visited and what is still below are within the limit together: passing a level
  -- moves its siblings from one to the other.
  induction leads generalizing visited depth with
  | @arrive siblings number element isSibling =>
      have count := Element.length_le_sizeAll siblings
      have allowed : visited + siblings.length ≤ resolver.budget.maxVisited := by omega
      have arrives := walk_arrive isSibling noTimeLimit allowed stopwatch depth
      exact ⟨_, arrives, fun _ => Level.isPotentialAmbiguity_of_mem_warnings⟩
  | @descend siblings number element _ _ path isSibling _ ih =>
      have count :=
        Element.length_add_sizeAll_children_le (List.mem_of_getElem? isSibling)
      have allowed : visited + siblings.length ≤ resolver.budget.maxVisited := by omega
      have step := walk_descend isSibling noTimeLimit allowed stopwatch depth path.first path.rest
      have allowedBelow : visited + siblings.length + Element.sizeAll element.children ≤
          resolver.budget.maxVisited := by omega
      obtain ⟨warnings, arrives, remarks⟩ := ih allowedBelow (depth + 1)
      rw [Path.segments, step, Trace.after, arrives]
      refine ⟨_, rfl, ?_⟩
      intro warning member
      rcases List.mem_append.mp member with here | later
      · exact Level.isPotentialAmbiguity_of_mem_warnings here
      · exact remarks warning later

end Resolver

end Accessibility
