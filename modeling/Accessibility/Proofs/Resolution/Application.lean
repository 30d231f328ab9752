import Accessibility.Proofs.Path.Generation
import Accessibility.Proofs.Resolution.Limits
import Accessibility.Scope

/-!
# Applications and the screen

The tree of an application is a child of the root in the tree of the screen.  In its own tree it
stands alone at the top level; on the screen it stands there with others.  If its segment fits none
of these, it has the same paths in both trees, and a path whose first segment fits none of them
leads to the same place below the application.
-/

namespace Accessibility

namespace Element

variable {root application : Element} {name : String} {number : Nat}

theorem not_isSystemWide_of_isApplication
    (isApplication : application.isApplication name = true) :
    ¬application.isSystemWide = true := by
  rw [Element.isApplication, Bool.and_eq_true] at isApplication
  have role : application.role = applicationRole := of_decide_eq_true isApplication.1
  rw [isSystemWide, role]
  decide

/-- What the screen is narrowed down to by the name of an application is one of its children. -/
theorem exists_child_of_select?_application (isScreen : root.isSystemWide = true)
    (isFound : root.select? (.application name) = some application) :
    ∃ number : Nat,
      root.children[number]? = some application ∧ ¬application.isSystemWide = true := by
  have isNoApplication : ¬root.isApplication name = true :=
    fun isApplication => not_isSystemWide_of_isApplication isApplication isScreen
  rw [select?, application?, if_neg isNoApplication, if_pos isScreen] at isFound
  have isMember := List.mem_of_find?_eq_some isFound
  rcases List.getElem?_of_mem isMember with ⟨number, isChild⟩
  exact ⟨number, isChild, not_isSystemWide_of_isApplication (List.find?_some isFound)⟩

/-- A child of the screen whose segment fits no other child has the paths that it has on its own. -/
theorem getElem?_children_generatePaths (isScreen : root.isSystemWide = true)
    (isChild : root.children[number]? = some application)
    (isNoScreen : ¬application.isSystemWide = true)
    (isOnly : root.children.countP (Segment.identifying application).fits = 1) :
    root.generatePaths.children[number]? = some application.generatePaths := by
  have notShared : ¬Segment.IsShared root.children application :=
    Nat.not_lt.mpr isOnly.le
  rw [children_generatePaths_of_isSystemWide isScreen, List.getElem?_mapIdx, isChild,
    Option.map_some, Segment.amongSiblings_of_not_isShared notShared,
    generatePaths_of_not_isSystemWide isNoScreen]

end Element

namespace Level

variable {siblings : List Element} {element : Element} {number : Nat}

/-- What is chosen among several siblings is the only one that fits. -/
theorem eq_of_choose_only {segment : Segment} {chosen : Nat × Element} {position limit : Nat}
    (isSibling : siblings[number]? = some element) (fits : segment.fits element = true)
    (isOnly : siblings.countP segment.fits = 1)
    (chose : (Level.mk position segment siblings).choose limit = .ok chosen) :
    chosen = (number, element) := by
  have single : (Level.mk position segment siblings).fitting = [(number, element)] :=
    fitting_eq_singleton isSibling fits isOnly.le
  have isFitting := mem_fitting_of_choose chose
  rwa [single, List.mem_singleton] at isFitting

/-- The only sibling that fits is chosen when it stands alone if it is chosen among the others.
What is refused, because of an index, is refused for the same reason. -/
theorem choose_alone {segment : Segment} (isSibling : siblings[number]? = some element)
    (fits : segment.fits element = true) (isOnly : siblings.countP segment.fits = 1)
    (position limit : Nat) :
    (Level.mk position segment [element]).choose limit =
      ((Level.mk position segment siblings).choose limit).map fun _ => (0, element) := by
  have single : (Level.mk position segment siblings).fitting = [(number, element)] :=
    fitting_eq_singleton isSibling fits isOnly.le
  have isAlone : [element].countP segment.fits = 1 := by
    rw [List.countP_singleton, if_pos fits]
  have alone : (Level.mk position segment [element]).fitting = [(0, element)] :=
    fitting_eq_singleton rfl fits isAlone.le
  unfold choose
  rw [single, alone]
  rcases segment.index with _ | _ | requested <;> rfl

end Level

/-- The result of a walk that first passes a level. -/
theorem Trace.map_result_after {α : Type} (see : Resolution → α) (trace : Trace) (level : Level)
    (number : Nat) (warnings : List Warning) :
    (trace.after level number warnings).result.map see =
      trace.result.map fun below =>
        see ⟨below.element, number :: below.position, warnings ++ below.warnings⟩ := by
  rcases trace with ⟨_, _ | below⟩ <;> rfl

namespace Resolver

variable {resolver : Resolver} {stopwatch : Stopwatch} {depth visited number : Nat}
  {siblings : List Element} {element : Element} {path : Path} {trace : Trace}

/-- A level that is within the limits with some candidates is so with fewer. -/
theorem check_of_fewer {fewer : Nat} (within : resolver.check visited (stopwatch depth) = .ok ())
    (isFewer : fewer ≤ visited) : resolver.check fewer (stopwatch depth) = .ok () := by
  rw [check_eq_ok_iff] at within ⊢
  exact ⟨Nat.le_trans isFewer within.1, within.2⟩

/-- A walk whose first segment fits one of several siblings goes on below this one as if it stood
alone. -/
theorem Walks.exists_alone
    (walks : resolver.Walks stopwatch depth visited siblings path trace)
    (notAbandoned : ¬trace.IsAbandoned) (isSibling : siblings[number]? = some element)
    (fits : path.first.fits element = true)
    (isOnly : siblings.countP path.first.fits = 1) :
    ∃ alone, resolver.Walks stopwatch depth visited [element] path alone ∧
      (trace.result.map fun found => (found.element, found.position)) =
        alone.result.map fun found => (found.element, number :: found.position.tail) := by
  have nonempty : 1 ≤ siblings.length := by
    rw [← isOnly]
    exact List.countP_le_length
  have fewer : visited + [element].length ≤ visited + siblings.length :=
    Nat.add_le_add_left nonempty visited
  have choice := Level.choose_alone isSibling fits isOnly depth resolver.maxSuggestions
  cases walks with
  | exceed => exact absurd ⟨_, rfl⟩ notAbandoned
  | refuse within refused =>
      rw [refused] at choice
      exact ⟨_, .refuse (check_of_fewer within fewer) choice, rfl⟩
  | arrive within chose =>
      rcases Level.eq_of_choose_only isSibling fits isOnly chose with rfl
      rw [chose] at choice
      exact ⟨_, .arrive (check_of_fewer within fewer) choice, rfl⟩
  | descend within chose below =>
      rcases Level.eq_of_choose_only isSibling fits isOnly chose with rfl
      rw [chose] at choice
      rw [Trace.isAbandoned_after_iff] at notAbandoned
      have affords := below.affords notAbandoned
      have affordsAlone : resolver.Affords stopwatch (visited + [element].length) _ :=
        ⟨Nat.le_trans (Nat.add_le_add_right fewer _) affords.visits, affords.time⟩
      have belowAlone := below.of_affords resolver rfl notAbandoned affordsAlone
      refine ⟨_, .descend (check_of_fewer within fewer) choice belowAlone, ?_⟩
      rw [Trace.map_result_after, Trace.map_result_after]
      rfl

variable {root application : Element}

theorem map_resolve_of_short (short : path.length ≤ resolver.budget.maxDepth) {α : Type}
    (see : Element → Element.Position → α) :
    ((resolver.resolve path root stopwatch).map fun found => see found.element found.position) =
      (resolver.walk stopwatch 0 0 root.topLevel path.first path.rest).result.map fun found =>
        see found.element (positionIn root found.position) := by
  rw [resolve_of_short short]
  rcases resolver.walk stopwatch 0 0 root.topLevel path.first path.rest with ⟨_, _ | found⟩ <;> rfl

/-- A path whose first segment fits one child of the screen only leads in the tree of this child to
the same place below it, or fails for the same reason. -/
theorem resolve_child (isScreen : root.isSystemWide = true)
    (isChild : root.children[number]? = some application)
    (isNoScreen : ¬application.isSystemWide = true) (fits : path.first.fits application = true)
    (isOnly : root.children.countP path.first.fits = 1)
    (within : resolver.StaysWithin path root stopwatch) :
    resolver.StaysWithin path application stopwatch ∧
      ((resolver.resolve path root stopwatch).map fun found => (found.element, found.position)) =
        (resolver.resolve path application stopwatch).map fun found =>
          (found.element, number :: found.position) := by
  have walks := resolver.walks_walk stopwatch 0 0 root.topLevel path
  have notAbandoned := within.not_isAbandoned
  have atTop : root.topLevel = root.children := if_pos isScreen
  have isAlone : application.topLevel = [application] := if_neg isNoScreen
  rw [atTop] at walks notAbandoned
  rcases walks.exists_alone notAbandoned isChild fits isOnly with ⟨alone, walksAlone, sameEnd⟩
  have sameTarget :
      ((resolver.resolve path root stopwatch).map fun found => (found.element, found.position)) =
        (resolver.resolve path application stopwatch).map fun found =>
          (found.element, number :: found.position) := by
    rw [map_resolve_of_short within.length fun found position => (found, position),
      map_resolve_of_short within.length fun found position => (found, number :: position),
      atTop, isAlone, ← walksAlone.eq_walk]
    simp only [positionIn, if_pos isScreen, if_neg isNoScreen]
    exact sameEnd
  refine ⟨?_, sameTarget⟩
  apply not_abandoned_iff_staysWithin.mp
  intro excess abandoned
  apply not_abandoned_iff_staysWithin.mpr within excess
  exact map_eq_error_iff.mp (sameTarget.trans (map_eq_error_iff.mpr abandoned))

/-- An application that is found by its name on the screen, and whose segment fits nothing else
there, has the same paths in its own tree and in that of the whole screen.  A path whose first
segment fits the application only leads in both trees to the same place, or fails for the same
reason, within limits that suffice for the whole screen and therefore for the application. -/
theorem resolve_application {name : String} (isScreen : root.isSystemWide = true)
    (isFound : root.select? (.application name) = some application)
    (isOnly : root.children.countP (Segment.identifying application).fits = 1) :
    ∃ number : Nat,
      root.children[number]? = some application ∧
      root.generatePaths.children[number]? = some application.generatePaths ∧
      ∀ (resolver : Resolver) (path : Path) (stopwatch : Stopwatch),
        path.first.fits application = true → root.children.countP path.first.fits = 1 →
        resolver.StaysWithin path root stopwatch →
          resolver.StaysWithin path application stopwatch ∧
          ∀ later, resolver.StaysWithin path application later →
            ((resolver.resolve path root stopwatch).map fun found =>
                (found.element, found.position)) =
              (resolver.resolve path application later).map fun found =>
                (found.element, number :: found.position) := by
  rcases Element.exists_child_of_select?_application isScreen isFound with
    ⟨number, isChild, isNoScreen⟩
  refine ⟨number, isChild,
    Element.getElem?_children_generatePaths isScreen isChild isNoScreen isOnly, ?_⟩
  intro resolver path stopwatch fits onlyFits within
  rcases resolve_child isScreen isChild isNoScreen fits onlyFits within with
    ⟨withinAlone, sameTarget⟩
  refine ⟨withinAlone, ?_⟩
  intro later withinLater
  rw [sameTarget, withinAlone.resolve_eq withinLater]

/-- The second application on the screen, with a window that is asked for by its role. -/
theorem resolve_application_second :
    let titled (role title : String) (children : List Element) : Element :=
      { properties := { role, title := some title }, children }
    let application := titled "AXApplication" "Finder" [titled "AXWindow" "Downloads" []]
    let other := titled "AXApplication" "Notes" [titled "AXWindow" "Downloads" []]
    let root : Element :=
      { properties := { role := "AXSystemWide" }, children := [other, application] }
    let path : Path := ⟨Segment.identifying application, [{ role := "AXWindow" }]⟩
    let resolver : Resolver := {}
    root.isSystemWide = true ∧
      root.select? (.application "Finder") = some application ∧
      root.children.countP (Segment.identifying application).fits = 1 ∧
      resolver.StaysWithin path root Stopwatch.instant ∧
      ∃ number : Nat,
        root.generatePaths.children[number]? = some application.generatePaths ∧
        ((resolver.resolve path root).map fun found => (found.element, found.position)) =
          .ok (titled "AXWindow" "Downloads" [], [number, 0]) := by
  intro titled application other root path resolver
  have isScreen : root.isSystemWide = true := by decide
  have isFound : root.select? (.application "Finder") = some application := by rfl
  have isOnly : root.children.countP (Segment.identifying application).fits = 1 := by decide
  have fits : path.first.fits application = true := by decide
  have within : resolver.StaysWithin path root Stopwatch.instant := by
    apply not_abandoned_iff_staysWithin.mp
    nofun
  rcases resolve_application isScreen isFound isOnly with ⟨number, _, samePaths, leadsAlike⟩
  rcases leadsAlike resolver path Stopwatch.instant fits isOnly within with
    ⟨withinAlone, sameTarget⟩
  refine ⟨isScreen, isFound, isOnly, within, number, samePaths, ?_⟩
  exact sameTarget Stopwatch.instant withinAlone

end Resolver

end Accessibility
