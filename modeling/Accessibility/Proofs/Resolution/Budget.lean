import Accessibility.Proofs.Resolution.Limits
import Accessibility.Resolution.Report
import Mathlib.Algebra.GroupWithZero.Nat

/-!
# Budgets

The choices along a path determine the levels that it leads to.  A budget does nothing but cut the
walk off before the level at which the candidates of all levels up to there exceed it.  What is
found within a budget is therefore found within every larger one.
-/

namespace Accessibility

namespace Level

/-- The number of candidates of some levels. -/
def visits (levels : List Level) : Nat :=
  (levels.map fun level => level.candidates.length).sum

@[simp]
theorem visits_nil : visits [] = 0 :=
  rfl

@[simp]
theorem visits_cons (level : Level) (levels : List Level) :
    visits (level :: levels) = level.candidates.length + visits levels := by
  rw [visits, List.map_cons, List.sum_cons, visits]

/-- The candidates of all levels exceed a limit as soon as those of the first ones do. -/
theorem lt_visits_iff {levels : List Level} {limit : Nat} :
    limit < visits levels ↔ ∃ number, limit < visits (levels.take number) := by
  constructor
  · intro exceeded
    exact ⟨levels.length, by rwa [List.take_length]⟩
  · rintro ⟨number, exceeded⟩
    have parts := congrArg visits (List.take_append_drop number levels)
    rw [visits, List.map_append, List.sum_append, ← visits, ← visits] at parts
    omega

/-- The levels that segments lead to, whatever the limits are: first the candidates at a depth, and
wherever a level chooses an element, the level of its children. -/
def reached (suggestions depth : Nat) (candidates : List Element) (segment : Segment) :
    List Segment → List Level
  | [] => [⟨depth, segment, candidates⟩]
  | next :: others =>
      ⟨depth, segment, candidates⟩ ::
        match (Level.mk depth segment candidates).choose suggestions with
        | .ok chosen => reached suggestions (depth + 1) chosen.2.children next others
        | .error _ => []

variable {suggestions depth : Nat} {candidates : List Element} {segment : Segment}

theorem reached_of_error {error : PathError}
    (refused : (Level.mk depth segment candidates).choose suggestions = .error error)
    (rest : List Segment) :
    reached suggestions depth candidates segment rest = [⟨depth, segment, candidates⟩] := by
  cases rest with
  | nil => rfl
  | cons next others => rw [reached, refused]

theorem reached_of_ok {chosen : Nat × Element}
    (chose : (Level.mk depth segment candidates).choose suggestions = .ok chosen) (next : Segment)
    (others : List Segment) :
    reached suggestions depth candidates segment (next :: others) =
      ⟨depth, segment, candidates⟩ ::
        reached suggestions (depth + 1) chosen.2.children next others := by
  rw [reached, chose]

theorem length_le_visits_reached (suggestions depth : Nat) (candidates : List Element)
    (segment : Segment) (rest : List Segment) :
    candidates.length ≤ visits (reached suggestions depth candidates segment rest) := by
  cases rest with
  | nil => simp [reached]
  | cons next others => simp [reached]

end Level

/-- The levels that a path leads to in a tree, whatever the limits are. -/
def Path.levelsReached (path : Path) (root : Element) (suggestions : Nat) : List Level :=
  Level.reached suggestions 0 root.topLevel path.first path.rest

theorem Trace.visits_eq (trace : Trace) : trace.visits = Level.visits trace.levels := by
  rw [Trace.visits]
  induction trace.levels with
  | nil => rfl
  | cons level levels ih => rw [List.foldr_cons, ih, Level.visits_cons]

namespace Resolver

variable {resolver : Resolver} {stopwatch : Stopwatch} {depth visited : Nat}
  {candidates : List Element} {path : Path} {trace : Trace} {root : Element}

/-- Without a time limit only too many candidates are reported. -/
theorem check_eq_ok_iff_of_no_limit (noTimeLimit : resolver.budget.timeLimit = none)
    {elapsed : Nat} :
    resolver.check visited elapsed = .ok () ↔ visited ≤ resolver.budget.maxVisited := by
  rw [check_eq_ok_iff, noTimeLimit]
  exact and_iff_left nofun

namespace Walks

/-- Without a time limit a walk is given up exactly if the levels that the path leads to have too
many candidates. -/
theorem isAbandoned_iff (walks : resolver.Walks stopwatch depth visited candidates path trace)
    (noTimeLimit : resolver.budget.timeLimit = none) :
    trace.IsAbandoned ↔ resolver.budget.maxVisited < visited +
      Level.visits (Level.reached resolver.maxSuggestions depth candidates path.first
        path.rest) := by
  induction walks with
  | @exceed depth visited candidates path excess exceeded =>
      have first := Level.length_le_visits_reached resolver.maxSuggestions depth candidates
        path.first path.rest
      have many : ¬visited + candidates.length ≤ resolver.budget.maxVisited := by
        rw [← check_eq_ok_iff_of_no_limit noTimeLimit, exceeded]
        nofun
      exact iff_of_true ⟨excess, rfl⟩ (by omega)
  | @refuse _ _ _ path _ within refused =>
      have few := (check_eq_ok_iff_of_no_limit noTimeLimit).mp within
      rw [Level.reached_of_error refused, Level.visits_cons, Level.visits_nil]
      apply iff_of_false
      · rintro ⟨excess, abandoned⟩
        cases abandoned
        cases Level.position?_of_choose_eq_error refused
      · exact Nat.not_lt.mpr few
  | arrive within =>
      have few := (check_eq_ok_iff_of_no_limit noTimeLimit).mp within
      rw [Level.reached, Level.visits_cons, Level.visits_nil]
      exact iff_of_false nofun (Nat.not_lt.mpr few)
  | descend _ chose _ ih =>
      rw [Trace.isAbandoned_after_iff, ih, Path.segments, Level.reached_of_ok chose,
        Level.visits_cons, Nat.add_assoc]

/-- A walk never reaches more candidates than allowed. -/
theorem visits_le (walks : resolver.Walks stopwatch depth visited candidates path trace)
    (few : visited ≤ resolver.budget.maxVisited) :
    visited + trace.visits ≤ resolver.budget.maxVisited := by
  induction walks with
  | exceed => exact few
  | refuse within | arrive within => exact (check_eq_ok_iff.mp within).1
  | descend within _ _ ih =>
      rw [Trace.visits_after, ← Nat.add_assoc]
      exact ih (check_eq_ok_iff.mp within).1

end Walks

/-- What is found within a budget is found within every larger one. -/
theorem resolve_of_larger_budget {larger : Budget} (noTimeLimit : larger.timeLimit = none)
    (deeper : resolver.budget.maxDepth ≤ larger.maxDepth)
    (more : resolver.budget.maxVisited ≤ larger.maxVisited)
    (notAbandoned : ∀ excess, resolver.resolve path root stopwatch ≠ .error (.abandoned excess))
    (later : Stopwatch) :
    ({ resolver with budget := larger } : Resolver).resolve path root later =
      resolver.resolve path root stopwatch := by
  have walks := resolver.walks_walk stopwatch 0 0 root.topLevel path
  rcases not_abandoned_iff.mp notAbandoned with ⟨short, walkNotAbandoned⟩
  have affords : ({ resolver with budget := larger } : Resolver).Affords later 0
      (resolver.walk stopwatch 0 0 root.topLevel path.first path.rest) := by
    constructor
    · exact Nat.le_trans (walks.affords walkNotAbandoned).visits more
    · intro limit limited
      cases noTimeLimit.symm.trans limited
  have same := (walks.of_affords { resolver with budget := larger } rfl walkNotAbandoned
    affords).eq_walk
  rw [resolve_of_short short, same]
  exact resolve_of_short (Nat.le_trans short deeper) root later

/-- The candidates in a diagnosis are no more than allowed. -/
theorem sum_candidates_diagnose_le (resolver : Resolver) (path : Path) (root : Element)
    (stopwatch : Stopwatch) :
    ((resolver.diagnose path root stopwatch).steps.map Step.candidates).sum ≤
      resolver.budget.maxVisited := by
  have counts : ((resolver.diagnose path root stopwatch).steps.map Step.candidates).sum =
      Level.visits (resolver.trace path root stopwatch).levels := by
    rw [diagnose, List.map_map]
    rfl
  rw [counts]
  by_cases short : path.length ≤ resolver.budget.maxDepth
  · have walks := resolver.walks_walk stopwatch 0 0 root.topLevel path
    have few := walks.visits_le (Nat.zero_le _)
    rw [Nat.zero_add, Trace.visits_eq] at few
    rw [trace_of_short short]
    exact few
  · rw [trace, if_pos (Nat.lt_of_not_le short)]
    exact Nat.zero_le _

/-- Without a time limit, a resolution is given up exactly if the path has too many segments, or the
levels that it leads to have too many candidates, counted up to one of them.  Otherwise it has the
same result under every larger budget.  In any case no more candidates are looked at than allowed. -/
theorem resolve_cut_off_iff (noTimeLimit : resolver.budget.timeLimit = none) (path : Path)
    (root : Element) (stopwatch : Stopwatch) :
    ((∃ excess, resolver.resolve path root stopwatch = .error (.abandoned excess)) ↔
        resolver.budget.maxDepth < path.length ∨
          ∃ number, resolver.budget.maxVisited <
            Level.visits ((path.levelsReached root resolver.maxSuggestions).take number)) ∧
      ((∀ excess, resolver.resolve path root stopwatch ≠ .error (.abandoned excess)) →
        ∀ (larger : Budget) (later : Stopwatch), larger.timeLimit = none →
          resolver.budget.maxDepth ≤ larger.maxDepth →
          resolver.budget.maxVisited ≤ larger.maxVisited →
            ({ resolver with budget := larger } : Resolver).resolve path root later =
              resolver.resolve path root stopwatch) ∧
      ((resolver.diagnose path root stopwatch).steps.map Step.candidates).sum ≤
        resolver.budget.maxVisited := by
  have walks := resolver.walks_walk stopwatch 0 0 root.topLevel path
  refine ⟨?_, ?_, resolver.sum_candidates_diagnose_le path root stopwatch⟩
  · rw [abandoned_iff, walks.isAbandoned_iff noTimeLimit, Nat.zero_add, ← Level.lt_visits_iff]
    rfl
  · intro notAbandoned larger later unlimited deeper more
    exact resolve_of_larger_budget unlimited deeper more notAbandoned later

/-- The candidates of both levels are just allowed, and one too many if one fewer is allowed. -/
theorem resolve_cut_off_iff_at_the_limit :
    let allowing (maxVisited : Nat) : Resolver := { budget := { maxVisited } }
    let root : Element :=
      { properties := { role := "AXWindow" }
        children := [.ofRole "AXRow", .ofRole "AXButton", .ofRole "AXRow"] }
    let path : Path := ⟨{ role := "AXWindow" }, [{ role := "AXButton" }]⟩
    (allowing 3).budget.timeLimit = none ∧ (allowing 4).budget.timeLimit = none ∧
      (∃ excess, (allowing 3).resolve path root = .error (.abandoned excess)) ∧
      (allowing 100000).resolve path root = (allowing 4).resolve path root := by
  intro allowing root path
  have exceeded : (allowing 3).budget.maxVisited < Level.visits
      ((path.levelsReached root (allowing 3).maxSuggestions).take 2) := by
    decide
  have noLimit (maxVisited : Nat) : (allowing maxVisited).budget.timeLimit = none := rfl
  have cutOff := (resolve_cut_off_iff (noLimit 3) path root Stopwatch.instant).1
  have enough := (resolve_cut_off_iff (noLimit 4) path root Stopwatch.instant).2.1
  have notAbandoned (excess : Excess) :
      (allowing 4).resolve path root ≠ .error (.abandoned excess) := by
    nofun
  have larger : (allowing 4).budget.maxVisited ≤ (allowing 100000).budget.maxVisited := by
    decide
  refine ⟨noLimit 3, noLimit 4, cutOff.mpr (Or.inr ⟨2, exceeded⟩), ?_⟩
  exact enough notAbandoned (allowing 100000).budget Stopwatch.instant rfl (Nat.le_refl _) larger

end Resolver

end Accessibility
