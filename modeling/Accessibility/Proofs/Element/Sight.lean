import Accessibility.Path.Segment
import Accessibility.Proofs.Element.Tree

/-!
# What is seen of elements

A segment sees of an element no more than its role and the texts under the names it asks for.  Of
that, the role and the identifying texts are what generated segments are made from.  Trees of which
the same is seen at every position look the same child by child and in preorder.
-/

namespace Accessibility

namespace Element

variable {α : Type} {see : Element → α} {one other : Element}

/-! ## Segments -/

theorem fits_eq_of_text?_eq {segment : Segment} (sameRole : one.role = other.role)
    (sameTexts : ∀ predicate ∈ segment.predicates.entries,
      one.text? predicate.1 = other.text? predicate.1) :
    segment.fits one = segment.fits other := by
  unfold Segment.fits
  rw [sameRole]
  congr 1
  rw [Bool.eq_iff_iff, List.all_eq_true, List.all_eq_true]
  apply forall₂_congr
  intro predicate isPredicate
  rw [sameTexts predicate isPredicate]

/-- What tells an element apart in generated paths: the role and the identifying texts. -/
def identity (element : Element) : String × List (Option String) :=
  (element.role, Attribute.identifying.map fun identifying => element.text? identifying.name)

theorem identity_congr (same : one.properties = other.properties) :
    one.identity = other.identity := by
  cases one
  cases other
  cases same
  rfl

theorem role_eq_of_identity_eq (same : one.identity = other.identity) : one.role = other.role :=
  congrArg Prod.fst same

theorem text?_eq_of_identity_eq (same : one.identity = other.identity) {asked : Attribute}
    (isIdentifying : asked ∈ Attribute.identifying) :
    one.text? asked.name = other.text? asked.name := by
  have sameTexts : (Attribute.identifying.map fun identifying => one.text? identifying.name) =
      Attribute.identifying.map fun identifying => other.text? identifying.name :=
    congrArg Prod.snd same
  exact List.map_inj_left.mp sameTexts asked isIdentifying

/-! ## Trees -/

theorem at?_singleton (element : Element) (number : Nat) :
    element.at? [number] = element.children[number]? := by
  rw [at?]
  exact Option.bind_fun_some _

theorem map_children_eq_of_at?
    (same : ∀ position : Position, (one.at? position).map see = (other.at? position).map see) :
    one.children.map see = other.children.map see := by
  apply List.ext_getElem?
  intro number
  rw [List.getElem?_map, List.getElem?_map, ← at?_singleton, ← at?_singleton]
  exact same [number]

/-- Trees of which the same is seen at every position have their children at the same places, and
the same is seen at every position below these. -/
theorem getElem?_children_cases
    (same : ∀ position : Position, (one.at? position).map see = (other.at? position).map see)
    (number : Nat) :
    one.children[number]? = none ∧ other.children[number]? = none ∨
      ∃ child otherChild, one.children[number]? = some child ∧
        other.children[number]? = some otherChild ∧
        ∀ position : Position, (child.at? position).map see = (otherChild.at? position).map see := by
  have sameHere := same [number]
  rw [at?_singleton, at?_singleton] at sameHere
  cases isChild : one.children[number]? with
  | none =>
      rw [isChild] at sameHere
      exact Or.inl ⟨rfl, Option.map_eq_none_iff.mp sameHere.symm⟩
  | some child =>
      rw [isChild] at sameHere
      rcases Option.map_eq_some_iff.mp sameHere.symm with ⟨otherChild, isOther, _⟩
      refine Or.inr ⟨child, otherChild, rfl, isOther, ?_⟩
      intro position
      have below := same (number :: position)
      rwa [at?, at?, isChild, isOther] at below

/-- Trees of which the same is seen at every position are seen alike in preorder. -/
theorem map_preorder_eq_of_at?
    (same : ∀ position : Position, (one.at? position).map see = (other.at? position).map see) :
    one.preorder.map see = other.preorder.map see := by
  induction one using induction generalizing other with
  | step one ih =>
      have below : one.children.map (fun child => child.preorder.map see) =
          other.children.map fun child => child.preorder.map see := by
        apply List.ext_getElem?
        intro number
        rw [List.getElem?_map, List.getElem?_map]
        rcases getElem?_children_cases same number with
          ⟨isNone, otherIsNone⟩ | ⟨child, otherChild, isChild, isOther, sameBelow⟩
        · rw [isNone, otherIsNone]
        · rw [isChild, isOther, Option.map_some, Option.map_some,
            ih child (List.mem_of_getElem? isChild) sameBelow]
      have sameRoot : see one = see other := Option.some.inj (same [])
      rw [preorder_eq_cons, preorder_eq_cons, List.map_cons, List.map_cons, sameRoot,
        List.map_flatMap, List.map_flatMap, List.flatMap_def, List.flatMap_def, below]

/-- Trees of which the same is seen at every position are seen alike below the top level. -/
theorem map_preorderAll_topLevel_eq_of_at?
    (same : ∀ position : Position, (one.at? position).map see = (other.at? position).map see)
    (sameKind : one.isSystemWide = other.isSystemWide) :
    (preorderAll one.topLevel).map see = (preorderAll other.topLevel).map see := by
  have whole := map_preorder_eq_of_at? same
  rw [topLevel, topLevel, sameKind]
  split
  · rw [preorder_eq_cons, preorder_eq_cons] at whole
    rw [preorderAll_eq_flatMap, preorderAll_eq_flatMap]
    exact (List.cons.inj whole).2
  · rw [preorderAll_eq_flatMap, preorderAll_eq_flatMap, List.flatMap_singleton,
      List.flatMap_singleton]
    exact whole

end Element

end Accessibility
