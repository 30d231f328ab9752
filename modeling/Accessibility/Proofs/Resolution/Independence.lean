import Accessibility.Proofs.Resolution.Ambiguity
import Accessibility.Proofs.Resolution.Way
import Mathlib.Data.Set.Image

/-!
# What a resolution depends on

At every level a walk sees of the candidates what segments may ask for, and it goes on among the
children of the chosen one.  What is below the candidates that it passes over, and what no segment
asks for, may be anything: in another tree that differs in nothing else the walk ends in the same
way.
-/

namespace Accessibility

namespace Element

/-! ## Bare elements -/

/-- The element without anything that no segment asks for: its paths, its frame, its actions, and
what is below it. -/
def bare (element : Element) : Element :=
  { properties := { element.properties with frame := {}, actions := ∅ } }

@[simp]
theorem role_bare (element : Element) : element.bare.role = element.role :=
  rfl

@[simp]
theorem text?_bare (element : Element) (name : String) :
    element.bare.text? name = element.text? name :=
  rfl

theorem isSystemWide_eq_of_bare_eq {one other : Element} (same : one.bare = other.bare) :
    one.isSystemWide = other.isSystemWide := by
  rw [isSystemWide, isSystemWide, ← role_bare, same, role_bare]

/-! ## Trees that are alike -/

/-- Whether two trees or lists of siblings, given by the elements at their positions, have the same
bare elements at all positions but those below some. -/
def AlikeOutside (passed : Set Position) (oneAt? otherAt? : Position → Option Element) : Prop :=
  ∀ position, (∀ above ∈ passed, above <+: position → above = position) →
    (oneAt? position).map bare = (otherAt? position).map bare

namespace AlikeOutside

variable {passed : Set Position} {one other : Element} {siblings others : List Element}

/-- A position below a sibling is outside if it is outside of what there is of the sibling. -/
theorem outside_cons {number : Nat} {rest : Position} (notAll : [] ∉ passed)
    (outside : ∀ above, number :: above ∈ passed → above <+: rest → above = rest) :
    ∀ above ∈ passed, above <+: number :: rest → above = number :: rest := by
  intro above isPassed isAbove
  rcases List.prefix_cons_iff.mp isAbove with rfl | ⟨start, rfl, isStart⟩
  · contradiction
  · rw [outside start isPassed isStart]

/-- The siblings themselves are alike. -/
theorem map_bare_eq (alike : AlikeOutside passed (among? siblings) (among? others))
    (notAll : [] ∉ passed) : siblings.map bare = others.map bare := by
  apply List.ext_getElem?
  intro number
  have sameHere := alike [number] (outside_cons notAll fun _ _ => List.prefix_nil.mp)
  rw [List.getElem?_map, List.getElem?_map]
  simpa only [among?, at?_nil, Option.bind_fun_some] using sameHere

theorem length_eq (alike : AlikeOutside passed (among? siblings) (among? others))
    (notAll : [] ∉ passed) : siblings.length = others.length := by
  rw [← siblings.length_map bare, alike.map_bare_eq notAll, List.length_map]

/-- The children of siblings with the same number are alike. -/
theorem below (alike : AlikeOutside passed (among? siblings) (among? others))
    (notAll : [] ∉ passed) {number : Nat} (isSibling : siblings[number]? = some one)
    (isOther : others[number]? = some other) :
    AlikeOutside {rest | number :: rest ∈ passed} (among? one.children)
      (among? other.children) := by
  intro position outside
  cases position with
  | nil => rfl
  | cons child rest =>
      have sameBelow := alike (number :: child :: rest) (outside_cons notAll outside)
      rw [among?, among?, isSibling, isOther] at sameBelow
      exact sameBelow

/-- The roots of trees that are alike are alike. -/
theorem isSystemWide_eq (alike : AlikeOutside passed one.at? other.at?) :
    one.isSystemWide = other.isSystemWide := by
  have sameRoot := alike [] fun _ _ isAbove => List.prefix_nil.mp isAbove
  exact isSystemWide_eq_of_bare_eq (Option.some.inj sameRoot)

/-- The top levels of trees that are alike are alike. -/
theorem topLevel (alike : AlikeOutside passed one.at? other.at?) :
    AlikeOutside (one.chosenTo '' passed) (among? one.topLevel) (among? other.topLevel) := by
  intro numbers outside
  rw [Element.topLevel, Element.topLevel, ← alike.isSystemWide_eq]
  have isPassed {above : Position} (member : above ∈ passed) :=
    outside (one.chosenTo above) (Set.mem_image_of_mem one.chosenTo member)
  by_cases isScreen : one.isSystemWide = true
  · rw [if_pos isScreen, if_pos isScreen]
    simp only [chosenTo, if_pos isScreen] at isPassed
    cases numbers with
    | nil => rfl
    | cons number rest => exact alike (number :: rest) fun _ => isPassed
  · rw [if_neg isScreen, if_neg isScreen]
    simp only [chosenTo, if_neg isScreen] at isPassed
    rcases numbers with _ | ⟨_ | number, rest⟩
    · rfl
    · apply alike rest
      intro above member isAbove
      exact (List.cons.inj (isPassed member (List.cons_prefix_cons.mpr ⟨rfl, isAbove⟩))).2
    · rfl

end AlikeOutside

end Element

/-! ## Levels of bare candidates -/

namespace Level

variable {level one other : Level} {limit : Nat}

/-- The level with bare candidates. -/
def bare (level : Level) : Level :=
  { level with candidates := level.candidates.map Element.bare }

/-- A candidate made bare, with its number. -/
def bareCandidate (candidate : Nat × Element) : Nat × Element :=
  (candidate.1, candidate.2.bare)

theorem countP_bare (level : Level) (segment : Segment) :
    level.bare.candidates.countP segment.fits = level.candidates.countP segment.fits := by
  rw [bare, List.countP_map]
  rfl

theorem fitting_bare (level : Level) : level.bare.fitting = level.fitting.map bareCandidate := by
  have numbered : level.bare.numbered = level.numbered.map bareCandidate := by
    simp only [Level.numbered, bare, List.zipIdx_map, List.map_map]
    rfl
  rw [fitting_eq_filter_numbered, fitting_eq_filter_numbered, numbered, List.filter_map]
  rfl

theorem refinement?_bare (level : Level) (element : Element) :
    level.bare.refinement? element.bare = level.refinement? element := by
  simp only [refinement?, countP_bare, Element.text?_bare]
  rfl

theorem repairs_bare (level : Level) : level.bare.repairs = level.repairs := by
  rw [repairs, fitting_bare, List.zipIdx_map, List.map_map]
  apply List.map_congr_left
  rintro ⟨candidate, number⟩ _
  change level.bare.repair number candidate.2.bare = level.repair number candidate.2
  rw [repair, refinement?_bare]
  rfl

theorem alternatives_bare (level : Level) (limit : Nat) :
    level.bare.alternatives limit = level.alternatives limit := by
  rw [alternatives_eq, alternatives_eq, repairs_bare]

/-- Among bare candidates the same one is chosen, or the choice is refused for the same reason. -/
theorem choose_bare (level : Level) (limit : Nat) :
    level.bare.choose limit = (level.choose limit).map bareCandidate := by
  unfold choose
  rw [fitting_bare, alternatives_bare]
  rcases level.fitting with _ | ⟨first, others⟩
  · rfl
  · have found (requested : Nat) : (bareCandidate first :: others.map bareCandidate)[requested]? =
        (first :: others)[requested]?.map bareCandidate := by
      rw [← List.map_cons, List.getElem?_map]
    have index : level.bare.segment.index = level.segment.index := rfl
    rw [List.map_cons, index]
    cases level.segment.index with
    | none => cases others <;> simp [Except.map, bare]
    | some requested =>
        simp only [found]
        cases (first :: others)[requested]? <;> simp [Except.map, bare]

theorem warnings_bare (level : Level) (element : Element) :
    level.bare.warnings element.bare = level.warnings element := by
  have similar : level.bare.similar element.bare = level.similar element := by
    rw [Level.similar, Level.similar, bare, List.countP_map]
    rfl
  have advice : level.bare.advice element.bare = level.advice element := by
    simp only [Level.advice, similar, Element.text?_bare]
    rfl
  unfold warnings
  rw [advice, fitting_bare, List.length_map]
  rfl

/-! ## Levels that are alike -/

theorem bare_congr {candidates others : List Element}
    (same : candidates.map Element.bare = others.map Element.bare) (position : Nat)
    (segment : Segment) :
    (Level.mk position segment candidates).bare = (Level.mk position segment others).bare :=
  congrArg (Level.mk position segment) same

/-- Levels with the same bare candidates refuse the choice for the same reason. -/
theorem choose_eq_error_of_bare_eq (same : one.bare = other.bare) {error : PathError}
    (refused : one.choose limit = .error error) : other.choose limit = .error error := by
  have refusedBare := one.choose_bare limit
  rw [refused, same, choose_bare] at refusedBare
  exact map_eq_error_iff.mp refusedBare

/-- Levels with the same bare candidates choose candidates that have the same number and are alike,
and give the same advice. -/
theorem exists_choose_of_bare_eq (same : one.bare = other.bare) {chosen : Nat × Element}
    (chose : one.choose limit = .ok chosen) :
    ∃ element, other.choose limit = .ok (chosen.1, element) ∧ element.bare = chosen.2.bare ∧
      other.warnings element = one.warnings chosen.2 := by
  have choseAlike := one.choose_bare limit
  rw [chose, same, choose_bare] at choseAlike
  cases choice : other.choose limit with
  | error error =>
      rw [choice] at choseAlike
      cases choseAlike
  | ok found =>
      rw [choice] at choseAlike
      have alike : bareCandidate found = bareCandidate chosen := Except.ok.inj choseAlike
      rcases Prod.mk.inj alike with ⟨sameNumber, sameElement⟩
      refine ⟨found.2, ?_, sameElement, ?_⟩
      · rw [← sameNumber]
      · rw [← one.warnings_bare, ← other.warnings_bare, same, sameElement]

end Level

/-! ## Walks among alike candidates -/

/-- Whether a candidate is passed over at a level that a path leads to: the level does not choose
it.  The numbers are those of the candidates chosen at the levels above and, at the end, its own. -/
inductive PassesOver (limit : Nat) : Nat → List Element → Path → List Nat → Prop where
  | here {depth : Nat} {candidates : List Element} {path : Path} {number : Nat}
      {candidate : Element}
      (isCandidate : candidates[number]? = some candidate)
      (notChosen : ∀ chosen, (Level.mk depth path.first candidates).choose limit = .ok chosen →
        chosen.1 ≠ number) :
      PassesOver limit depth candidates path [number]
  | further {depth : Nat} {candidates : List Element} {segment : Segment} {chosen : Nat × Element}
      {path : Path} {numbers : List Nat}
      (chose : (Level.mk depth segment candidates).choose limit = .ok chosen)
      (below : PassesOver limit (depth + 1) chosen.2.children path numbers) :
      PassesOver limit depth candidates ⟨segment, path.segments⟩ (chosen.1 :: numbers)

namespace PassesOver

variable {limit depth : Nat} {candidates : List Element} {path : Path} {numbers : List Nat}

theorem not_mem_nil {passed : Set (List Nat)}
    (passes : ∀ numbers ∈ passed, PassesOver limit depth candidates path numbers) :
    [] ∉ passed := by
  intro isPassed
  cases passes [] isPassed

/-- What is passed over behind the number of a chosen candidate is passed over below it. -/
theorem of_chosen {segment : Segment} {chosen : Nat × Element}
    (passes : PassesOver limit depth candidates ⟨segment, path.segments⟩ (chosen.1 :: numbers))
    (chose : (Level.mk depth segment candidates).choose limit = .ok chosen) :
    PassesOver limit (depth + 1) chosen.2.children path numbers := by
  rcases path with ⟨next, others⟩
  generalize isNumber : chosen.1 = number at passes
  cases passes with
  | here _ notChosen => exact absurd isNumber (notChosen chosen chose)
  | further choseThere below =>
      cases choseThere.symm.trans chose
      exact below

end PassesOver

/-- How a walk ends: with an error, or at a position with some warnings. -/
def Trace.outcome (trace : Trace) : Except PathError (Element.Position × List Warning) :=
  trace.result.map fun resolution => (resolution.position, resolution.warnings)

theorem Trace.outcome_after (trace : Trace) (level : Level) (number : Nat)
    (warnings : List Warning) :
    (trace.after level number warnings).outcome =
      trace.outcome.map fun (position, others) => (number :: position, warnings ++ others) := by
  rcases trace with ⟨_, _ | resolution⟩ <;> rfl

namespace Resolver

variable {resolver : Resolver} {stopwatch : Stopwatch} {depth visited : Nat}
  {candidates others : List Element} {path : Path} {trace : Trace} {passed : Set Element.Position}

/-- Among candidates that are alike but below those that are passed over, walks end in the same
way. -/
theorem Walks.exists_alike
    (walks : resolver.Walks stopwatch depth visited candidates path trace)
    (alike : Element.AlikeOutside passed (Element.among? candidates) (Element.among? others))
    (passes : ∀ numbers ∈ passed,
      PassesOver resolver.maxSuggestions depth candidates path numbers) :
    ∃ again, resolver.Walks stopwatch depth visited others path again ∧
      trace.outcome = again.outcome := by
  -- The candidates of a walk below the first level are the children of the chosen candidate.  What is
  -- passed over among them is what was passed over behind its number.
  induction walks generalizing others passed with
  | exceed exceeded =>
      rw [alike.length_eq (PassesOver.not_mem_nil passes)] at exceeded
      exact ⟨_, .exceed exceeded, rfl⟩
  | @refuse depth _ _ path _ within refused =>
      have notAll := PassesOver.not_mem_nil passes
      have sameLevel := Level.bare_congr (alike.map_bare_eq notAll) depth path.first
      rw [alike.length_eq notAll] at within
      exact ⟨_, .refuse within (Level.choose_eq_error_of_bare_eq sameLevel refused), rfl⟩
  | @arrive depth _ _ segment _ within chose =>
      have notAll := PassesOver.not_mem_nil passes
      have sameLevel := Level.bare_congr (alike.map_bare_eq notAll) depth segment
      rcases Level.exists_choose_of_bare_eq sameLevel chose with ⟨element, choseToo, _, advised⟩
      rw [alike.length_eq notAll] at within
      refine ⟨_, .arrive within choseToo, ?_⟩
      rw [advised]
      rfl
  | @descend depth _ _ segment chosen path _ within chose _ ih =>
      have notAll := PassesOver.not_mem_nil passes
      have sameLevel := Level.bare_congr (alike.map_bare_eq notAll) depth segment
      rcases Level.exists_choose_of_bare_eq sameLevel chose with ⟨element, choseToo, _, advised⟩
      have alikeBelow := alike.below notAll (Level.getElem?_of_choose chose)
        (Level.getElem?_of_choose choseToo)
      have passesBelow : ∀ numbers ∈ {rest | chosen.1 :: rest ∈ passed},
          PassesOver resolver.maxSuggestions (depth + 1) chosen.2.children path numbers :=
        fun numbers isPassed => (passes _ isPassed).of_chosen chose
      rcases ih alikeBelow passesBelow with ⟨again, below, sameOutcome⟩
      rw [alike.length_eq notAll] at within below
      refine ⟨_, .descend within choseToo below, ?_⟩
      rw [Trace.outcome_after, Trace.outcome_after, sameOutcome, advised]

theorem outcome_trace (short : path.length ≤ resolver.budget.maxDepth) (root : Element)
    (stopwatch : Stopwatch) :
    (resolver.trace path root stopwatch).outcome =
      (resolver.walk stopwatch 0 0 root.topLevel path.first path.rest).outcome.map
        fun (numbers, warnings) => (positionIn root numbers, warnings) := by
  rw [trace_of_short short]
  rcases resolver.walk stopwatch 0 0 root.topLevel path.first path.rest with ⟨_, _ | _⟩ <;> rfl

variable {root other : Element}

theorem outcome_trace_of_alikeOutside (noTimeLimit : resolver.budget.timeLimit = none)
    (passes : ∀ position ∈ passed,
      PassesOver resolver.maxSuggestions 0 root.topLevel path (root.chosenTo position))
    (alike : Element.AlikeOutside passed root.at? other.at?) (stopwatch later : Stopwatch) :
    (resolver.trace path root stopwatch).outcome = (resolver.trace path other later).outcome := by
  by_cases short : path.length ≤ resolver.budget.maxDepth
  · have walks := resolver.walks_walk stopwatch 0 0 root.topLevel path
    rcases walks.exists_alike alike.topLevel (Set.forall_mem_image.mpr passes) with
      ⟨again, walksAgain, sameOutcome⟩
    rcases (walksAgain.at_any_time noTimeLimit later).eq_walk with rfl
    have samePosition : positionIn root = positionIn other := by
      funext numbers
      rw [positionIn, positionIn, alike.isSystemWide_eq]
    rw [outcome_trace short, outcome_trace short, sameOutcome, samePosition]
  · rw [trace, trace, if_pos (Nat.lt_of_not_le short), if_pos (Nat.lt_of_not_le short)]

/-- Without a time limit, a resolution depends on nothing but what the walk goes past.  In another
tree, in which there may be anything below candidates that are passed over, and in which the paths,
frames and actions may be any, it fails with the same error, or leads to the same position with the
same warnings. -/
theorem resolve_of_alikeOutside (noTimeLimit : resolver.budget.timeLimit = none)
    (passes : ∀ position ∈ passed,
      PassesOver resolver.maxSuggestions 0 root.topLevel path (root.chosenTo position))
    (alike : Element.AlikeOutside passed root.at? other.at?) (stopwatch later : Stopwatch) :
    (∃ error, resolver.resolve path root stopwatch = .error error ∧
        resolver.resolve path other later = .error error) ∨
      ∃ found again, resolver.resolve path root stopwatch = .ok found ∧
        resolver.resolve path other later = .ok again ∧
        again.position = found.position ∧ again.warnings = found.warnings ∧
        root.at? found.position = some found.element ∧
        other.at? again.position = some again.element := by
  have sameOutcome := outcome_trace_of_alikeOutside noTimeLimit passes alike stopwatch later
  rw [Trace.outcome, Trace.outcome, ← resolve, ← resolve] at sameOutcome
  cases resolved : resolver.resolve path root stopwatch with
  | error error =>
      rw [resolved] at sameOutcome
      exact Or.inl ⟨error, rfl, map_eq_error_iff.mp sameOutcome.symm⟩
  | ok found =>
      cases resolvedToo : resolver.resolve path other later with
      | error error =>
          rw [resolved, resolvedToo] at sameOutcome
          contradiction
      | ok again =>
          rw [resolved, resolvedToo] at sameOutcome
          rcases Prod.mk.inj (Except.ok.inj sameOutcome) with ⟨samePosition, sameWarnings⟩
          have isAt := (exists_walk_of_resolve resolved).2.2
          have isAtToo := (exists_walk_of_resolve resolvedToo).2.2
          exact Or.inr ⟨found, again, rfl, rfl, samePosition.symm, sameWarnings.symm, isAt, isAtToo⟩

theorem resolve_of_alikeOutside_other_group :
    let table : Element := { properties := { role := "AXTable", title := some "Files" } }
    let group (children : List Element) : Element :=
      { properties := { role := "AXGroup" }, children }
    let root : Element :=
      { properties := { role := "AXWindow" }, children := [group [table], table] }
    let other : Element :=
      { path := "elsewhere"
        properties := { role := "AXWindow", actions := NameSet.ofNames ["AXRaise"] }
        children := [group [], { table with parentPath := some "elsewhere" }] }
    let path : Path := ⟨{ role := "AXWindow" }, [{ role := "AXTable" }]⟩
    let resolver : Resolver := {}
    resolver.budget.timeLimit = none ∧
      PassesOver resolver.maxSuggestions 0 root.topLevel path (root.chosenTo [0]) ∧
      Element.AlikeOutside {[0]} root.at? other.at? ∧
      ∃ again, resolver.resolve path other = .ok again ∧ again.position = [1] ∧
        again.warnings = [.missingAttribute { role := "AXTable" } 1 .title] := by
  intro table group root other path resolver
  have passesGroup :
      PassesOver resolver.maxSuggestions 0 root.topLevel path (root.chosenTo [0]) := by
    have choseWindow : (Level.mk 0 path.first root.topLevel).choose resolver.maxSuggestions =
        .ok (0, root) := rfl
    have choseTable :
        (Level.mk 1 { role := "AXTable" } root.children).choose resolver.maxSuggestions =
          .ok (1, table) := rfl
    have passesBelow : PassesOver resolver.maxSuggestions 1 root.children
        { first := { role := "AXTable" } } [0] := by
      apply PassesOver.here rfl
      intro chosen chose
      cases choseTable.symm.trans chose
      decide
    exact PassesOver.further choseWindow passesBelow
  have alike : Element.AlikeOutside {[0]} root.at? other.at? := by
    rintro (_ | ⟨_ | _ | number, _ | ⟨child, rest⟩⟩) outside
    · rfl
    · rfl
    · cases outside [0] rfl ⟨child :: rest, rfl⟩
    all_goals rfl
  have passes : ∀ position ∈ ({[0]} : Set Element.Position),
      PassesOver resolver.maxSuggestions 0 root.topLevel path (root.chosenTo position) := by
    rintro _ rfl
    exact passesGroup
  refine ⟨rfl, passesGroup, alike, ?_⟩
  rcases resolve_of_alikeOutside rfl passes alike Stopwatch.instant Stopwatch.instant with
    ⟨_, failed, _⟩ | ⟨found, again, resolved, resolvedToo, samePosition, sameWarnings, _⟩
  · cases failed
  · cases resolved
    exact ⟨again, resolvedToo, samePosition, sameWarnings⟩

end Resolver

end Accessibility
