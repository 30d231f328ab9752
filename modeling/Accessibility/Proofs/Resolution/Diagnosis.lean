import Accessibility.Proofs.Resolution.Ambiguity
import Accessibility.Proofs.Resolution.NearMisses
import Accessibility.Resolution.Report
import Mathlib.Data.List.Chain

/-!
# What a diagnosis tells

A diagnosis reports on the levels of the walk that a resolution makes, in their order.  All steps
but the last one tell of a choice, and the last one tells why there was none, unless the path leads
to an element or a limit is exceeded before a level is reached.
-/

namespace Accessibility

/-! ## Steps and errors -/

/-- Whether a step tells of a choice: its segment fits one candidate only, or has an index below the
number of candidates that it fits. -/
def Step.IsPassed (step : Step) : Prop :=
  (step.segment.index = none ∧ step.fitting = 1) ∨
    ∃ index, step.segment.index = some index ∧ index < step.fitting

/-- Whether a step tells why an error has ended a resolution: its segment fits nothing, fits several
candidates without an index to pick one, or has an index beyond those that it fits. -/
inductive Step.Explains (step : Step) : PathError → Prop where
  | noMatch (nothing : step.fitting = 0) :
      Step.Explains step (.noMatch step.segment step.position)
  | ambiguous (noIndex : step.segment.index = none) (several : 2 ≤ step.fitting)
      (alternatives : List Segment) :
      Step.Explains step (.ambiguous step.segment step.position step.fitting alternatives)
  | indexOutOfRange {requested : Nat} (hasIndex : step.segment.index = some requested)
      (some : 0 < step.fitting) (few : step.fitting ≤ requested) :
      Step.Explains step (.indexOutOfRange step.segment step.position requested step.fitting)

/-- Whether steps lead up to the error of a resolution, or to its success, on a path with `length`
segments. -/
inductive LeadsUpTo (length : Nat) : List Step → Option PathError → Prop where
  | success {steps : List Step} (passed : ∀ step ∈ steps, step.IsPassed)
      (complete : steps.length = length) : LeadsUpTo length steps none
  | refused {before : List Step} {last : Step} {error : PathError}
      (passed : ∀ step ∈ before, step.IsPassed) (within : before.length < length)
      (explains : last.Explains error) : LeadsUpTo length (before ++ [last]) (some error)
  | abandoned {steps : List Step} {excess : Excess} (passed : ∀ step ∈ steps, step.IsPassed)
      (incomplete : steps.length < length) : LeadsUpTo length steps (some (.abandoned excess))

/-- A passed step comes before steps that lead up to the error. -/
theorem LeadsUpTo.cons {length : Nat} {step : Step} {steps : List Step} {error : Option PathError}
    (passed : step.IsPassed) (below : LeadsUpTo length steps error) :
    LeadsUpTo (length + 1) (step :: steps) error := by
  cases below with
  | success others complete =>
      exact .success (List.forall_mem_cons.mpr ⟨passed, others⟩) (congrArg Nat.succ complete)
  | @refused before last _ others within explains =>
      exact @LeadsUpTo.refused _ (step :: before) last _
        (List.forall_mem_cons.mpr ⟨passed, others⟩) (Nat.succ_lt_succ within) explains
  | abandoned others incomplete =>
      exact .abandoned (List.forall_mem_cons.mpr ⟨passed, others⟩) (Nat.succ_lt_succ incomplete)

theorem Step.Explains.position?_eq {step : Step} {error : PathError}
    (explains : step.Explains error) : error.position? = some step.position := by
  cases explains <;> rfl

/-- Steps that are numbered in order end at the position of the error. -/
theorem LeadsUpTo.length_eq {length : Nat} {steps : List Step} {error : PathError}
    (leadsUp : LeadsUpTo length steps (some error))
    (numbered : steps.map Step.position = List.range steps.length) {place : Nat}
    (isAt : error.position? = some place) : steps.length = place + 1 := by
  cases leadsUp with
  | abandoned => contradiction
  | @refused before last _ _ _ explains =>
      rw [explains.position?_eq, Option.some.injEq] at isAt
      rw [List.map_append, List.map_singleton, List.length_append, List.length_singleton,
        List.range_succ] at numbered
      have lasts := List.append_inj_right' numbered rfl
      rw [List.singleton_inj, isAt] at lasts
      rw [List.length_append, List.length_singleton, lasts]

namespace Level

variable {level : Level} {limit : Nat}

/-- The step at a level where a choice is made is passed. -/
theorem isPassed_of_choose {chosen : Nat × Element} (chose : level.choose limit = .ok chosen)
    (many : Nat) : (level.step many).IsPassed := by
  cases index : level.segment.index with
  | none => exact Or.inl ⟨index, congrArg List.length (fitting_of_choose index chose)⟩
  | some requested =>
      have found := getElem?_fitting_of_choose chose
      rw [index] at found
      exact Or.inr ⟨requested, index, (List.getElem?_eq_some_iff.mp found).1⟩

/-- The step at a level where none is made explains the error. -/
theorem explains_of_choose {error : PathError} (refused : level.choose limit = .error error)
    (many : Nat) : (level.step many).Explains error := by
  cases index : level.segment.index with
  | none =>
      rcases choose_cases_of_no_index index limit with
        ⟨nothing, choice⟩ | ⟨_, _, choice⟩ | ⟨several, choice⟩
      · cases choice.symm.trans refused
        exact .noMatch (congrArg List.length nothing)
      · cases choice.symm.trans refused
      · cases choice.symm.trans refused
        exact .ambiguous index several _
  | some requested =>
      rcases choose_cases_of_index index limit with
        ⟨nothing, choice⟩ | ⟨_, _, choice⟩ | ⟨some, few, choice⟩
      · cases choice.symm.trans refused
        exact .noMatch (congrArg List.length nothing)
      · cases choice.symm.trans refused
      · cases choice.symm.trans refused
        exact .indexOutOfRange index some few

end Level

/-! ## Levels and reports -/

/-- Whether a level comes after another: its candidates are the children of the element that the
other one chooses. -/
def Level.LeadsTo (level next : Level) : Prop :=
  ∃ chosen, level.fitting[level.segment.index.getD 0]? = some chosen ∧
    next.candidates = chosen.2.children

/-- Whether a step reports on a level, with at most `limit` near misses. -/
structure Step.ReportsOn (limit : Nat) (step : Step) (level : Level) : Prop where
  position : step.position = level.position
  segment : step.segment = level.segment
  candidates : step.candidates = level.candidates.length
  fitting : step.fitting = level.candidates.countP level.segment.fits
  nearMisses : ∃ ranking, IsRanking level.missRank level.close ranking ∧
    step.nearMisses = (ranking.take limit).map fun candidate => candidate.2.properties.summary
  few : step.nearMisses.length ≤ min limit (step.candidates - step.fitting)

theorem Level.reportsOn_step (level : Level) (limit : Nat) :
    (level.step limit).ReportsOn limit level where
  position := rfl
  segment := rfl
  candidates := rfl
  fitting := level.length_fitting
  nearMisses := by
    rcases level.exists_isRanking_nearMisses with ⟨ranking, isRanking, nearMisses⟩
    exact ⟨ranking, isRanking, nearMisses limit⟩
  few := level.length_nearMisses_le limit

/-- Whether a path leads through levels in a tree, one after the other down from the top. -/
structure Path.LeadsThrough (path : Path) (root : Element) (levels : List Level) : Prop where
  top : ∀ level ∈ levels.head?, level.candidates = root.topLevel
  down : levels.IsChain Level.LeadsTo
  numbered : levels.map Level.position = List.range levels.length
  segments : levels.map Level.segment <+: path.segments

/-- Whether a diagnosis reports on levels that a path leads through in a tree, and tells why it
leads no further. -/
structure Diagnosis.ReportsOn (limit : Nat) (path : Path) (root : Element) (diagnosis : Diagnosis)
    (levels : List Level) : Prop where
  through : path.LeadsThrough root levels
  steps : List.Forall₂ (Step.ReportsOn limit) diagnosis.steps levels
  numbered : diagnosis.steps.map Step.position = List.range diagnosis.steps.length
  leadsUp : LeadsUpTo path.length diagnosis.steps diagnosis.error
  stops : ∀ error ∈ diagnosis.error, ∀ place ∈ error.position?,
    diagnosis.steps.length = place + 1

/-- The error that a walk ends with, if it does. -/
def Trace.error? (trace : Trace) : Option PathError :=
  match trace.result with
  | .ok _ => none
  | .error error => some error

theorem Trace.error?_after (level : Level) (number : Nat) (warnings : List Warning)
    (trace : Trace) : (trace.after level number warnings).error? = trace.error? := by
  unfold error? after
  cases trace.result <;> rfl

namespace Resolver

variable {resolver : Resolver} {stopwatch : Stopwatch} {depth visited : Nat}
  {candidates : List Element} {path : Path} {trace : Trace} {root : Element}

namespace Walks

/-- The steps on the levels of a walk lead up to how it ends. -/
theorem leadsUpTo (walks : resolver.Walks stopwatch depth visited candidates path trace)
    (limit : Nat) :
    LeadsUpTo path.length (trace.levels.map (Level.step · limit)) trace.error? := by
  induction walks with
  | exceed => exact .abandoned (List.forall_mem_nil _) (Nat.succ_pos _)
  | refuse _ refused =>
      exact @LeadsUpTo.refused _ [] _ _ (List.forall_mem_nil _) (Nat.succ_pos _)
        (Level.explains_of_choose refused limit)
  | arrive _ chose =>
      refine .success ?_ rfl
      intro step isStep
      rw [List.mem_singleton.mp isStep]
      exact Level.isPassed_of_choose chose limit
  | descend _ chose _ ih =>
      rw [Trace.error?_after]
      exact ih.cons (Level.isPassed_of_choose chose limit)

/-- The candidates of every level are the children of the element that the level above chooses. -/
theorem isChain (walks : resolver.Walks stopwatch depth visited candidates path trace) :
    trace.levels.IsChain Level.LeadsTo := by
  induction walks with
  | exceed => exact .nil
  | refuse | arrive => exact .singleton _
  | descend _ chose below ih =>
      refine List.isChain_cons.mpr ⟨?_, ih⟩
      intro next isNext
      rw [List.head?_eq_getElem?] at isNext
      rw [(below.of_first isNext).2]
      exact ⟨_, Level.getElem?_fitting_of_choose chose, rfl⟩

/-- The levels of a walk stand at consecutive positions, with the segments of the path. -/
theorem map_position_levels (walks : resolver.Walks stopwatch depth visited candidates path trace) :
    trace.levels.map Level.position = List.range' depth trace.levels.length := by
  apply List.ext_getElem
  · rw [List.length_map, List.length_range']
  · intro number inside _
    rw [List.length_map] at inside
    rw [List.getElem_map, List.getElem_range', Nat.one_mul]
    exact (walks.of_level (List.getElem?_eq_getElem inside)).1

theorem map_segment_levels_prefix
    (walks : resolver.Walks stopwatch depth visited candidates path trace) :
    trace.levels.map Level.segment <+: path.segments := by
  rw [List.prefix_iff_getElem?]
  intro number inside
  rw [List.length_map] at inside
  rw [List.getElem_map]
  exact (walks.of_level (List.getElem?_eq_getElem inside)).2.1

end Walks

/-! ## Diagnoses -/

/-- A diagnosis ends with the error that the resolution ends with. -/
theorem error_diagnose_eq_some_iff {error : PathError} :
    (resolver.diagnose path root stopwatch).error = some error ↔
      resolver.resolve path root stopwatch = .error error := by
  rw [diagnose, resolve]
  cases (resolver.trace path root stopwatch).result <;> simp

theorem isSuccess_diagnose_iff :
    (resolver.diagnose path root stopwatch).isSuccess = true ↔
      ∃ resolution, resolver.resolve path root stopwatch = .ok resolution := by
  rw [Diagnosis.isSuccess, diagnose, resolve]
  cases (resolver.trace path root stopwatch).result <;> simp

/-- Without a time limit a resolution leaves the same trace however long it takes. -/
theorem trace_at_any_time (noTimeLimit : resolver.budget.timeLimit = none) (path : Path)
    (root : Element) (stopwatch later : Stopwatch) :
    resolver.trace path root later = resolver.trace path root stopwatch := by
  by_cases short : path.length ≤ resolver.budget.maxDepth
  · have walks := resolver.walks_walk stopwatch 0 0 root.topLevel path
    rw [trace_of_short short, trace_of_short short, (walks.at_any_time noTimeLimit later).eq_walk]
  · have long := Nat.lt_of_not_le short
    rw [trace, trace, if_pos long, if_pos long]

theorem steps_diagnose (resolver : Resolver) (path : Path) (root : Element)
    (stopwatch : Stopwatch) :
    (resolver.diagnose path root stopwatch).steps =
      (resolver.trace path root stopwatch).levels.map (Level.step · resolver.maxSuggestions) :=
  rfl

theorem leadsUpTo_diagnose (resolver : Resolver) (path : Path) (root : Element)
    (stopwatch : Stopwatch) :
    LeadsUpTo path.length (resolver.diagnose path root stopwatch).steps
      (resolver.diagnose path root stopwatch).error := by
  by_cases short : path.length ≤ resolver.budget.maxDepth
  · have leadsUp := (resolver.walks_walk stopwatch 0 0 root.topLevel path).leadsUpTo
      resolver.maxSuggestions
    rw [diagnose, trace_of_short short]
    unfold Trace.error? at leadsUp
    cases result : (resolver.walk stopwatch 0 0 root.topLevel path.first path.rest).result with
    | ok resolution =>
        rw [result] at leadsUp
        exact leadsUp
    | error error =>
        rw [result] at leadsUp
        exact leadsUp
  · rw [diagnose, trace, if_pos (Nat.lt_of_not_le short)]
    exact .abandoned (List.forall_mem_nil _) (Nat.succ_pos _)

/-- The levels that a resolution reaches are those that the path leads through. -/
theorem leadsThrough_levels (resolver : Resolver) (path : Path) (root : Element)
    (stopwatch : Stopwatch) :
    path.LeadsThrough root (resolver.trace path root stopwatch).levels := by
  by_cases short : path.length ≤ resolver.budget.maxDepth
  · have walks := resolver.walks_walk stopwatch 0 0 root.topLevel path
    rw [trace_of_short short]
    refine ⟨?_, walks.isChain, ?_, walks.map_segment_levels_prefix⟩
    · intro level isFirst
      rw [List.head?_eq_getElem?] at isFirst
      rw [(walks.of_first isFirst).2]
    · rw [List.range_eq_range']
      exact walks.map_position_levels
  · rw [trace, if_pos (Nat.lt_of_not_le short)]
    exact ⟨by simp, .nil, rfl, List.nil_prefix⟩

/-- A diagnosis reports on all levels that the resolution reaches. -/
theorem diagnose_reportsOn (resolver : Resolver) (path : Path) (root : Element)
    (stopwatch : Stopwatch) :
    (resolver.diagnose path root stopwatch).ReportsOn resolver.maxSuggestions path root
      (resolver.trace path root stopwatch).levels := by
  have through := resolver.leadsThrough_levels path root stopwatch
  have leadsUp := resolver.leadsUpTo_diagnose path root stopwatch
  have numbered : (resolver.diagnose path root stopwatch).steps.map Step.position =
      List.range (resolver.diagnose path root stopwatch).steps.length := by
    rw [steps_diagnose, List.map_map, List.length_map]
    exact through.numbered
  refine { through, numbered, leadsUp, steps := ?_, stops := ?_ }
  · rw [steps_diagnose, List.forall₂_map_left_iff, List.forall₂_same]
    exact fun level _ => level.reportsOn_step _
  · intro error failed place isAt
    rw [Option.mem_def.mp failed] at leadsUp
    exact leadsUp.length_eq numbered isAt

/-- Without a time limit, a diagnosis is a faithful trace of the resolution.  It reports success
exactly if the path resolves, and otherwise the error of the resolution.  Its steps report on the
levels that the path leads through, with the candidates, those that fit, and the near misses among
the others; all but the last one tell of a choice, and the last one tells why there was none. -/
theorem diagnose_faithful (noTimeLimit : resolver.budget.timeLimit = none) (path : Path)
    (root : Element) (stopwatch later : Stopwatch) :
    ((resolver.diagnose path root later).isSuccess = true ↔
        ∃ resolution, resolver.resolve path root stopwatch = .ok resolution) ∧
      (∀ error, (resolver.diagnose path root later).error = some error ↔
        resolver.resolve path root stopwatch = .error error) ∧
      ∃ levels, (resolver.diagnose path root later).ReportsOn resolver.maxSuggestions path root
        levels := by
  refine ⟨?_, fun error => ?_, _, resolver.diagnose_reportsOn path root later⟩
  · rw [isSuccess_diagnose_iff, resolve, trace_at_any_time noTimeLimit path root stopwatch later]
    rfl
  · rw [error_diagnose_eq_some_iff, resolve,
      trace_at_any_time noTimeLimit path root stopwatch later]
    rfl

/-- A button with another title is not found. -/
theorem diagnose_faithful_to_a_miss :
    let root : Element :=
      { properties := { role := "AXWindow" }
        children := [{ properties := { role := "AXButton", title := some "Save" } }] }
    let asked := ({ role := "AXButton" } : Segment).withPredicate Attribute.title.name "Open"
    let path : Path := ⟨{ role := "AXWindow" }, [asked]⟩
    let resolver : Resolver := {}
    resolver.budget.timeLimit = none ∧
      (resolver.diagnose path root).error = some (.noMatch asked 1) ∧
      ∃ levels, (resolver.diagnose path root).ReportsOn 5 path root levels := by
  intro root asked path resolver
  have faithful := @diagnose_faithful resolver rfl path root Stopwatch.instant Stopwatch.instant
  have missed : resolver.resolve path root = .error (.noMatch asked 1) := by
    rfl
  exact ⟨rfl, (faithful.2.1 _).mpr missed, faithful.2.2⟩

end Resolver

end Accessibility
