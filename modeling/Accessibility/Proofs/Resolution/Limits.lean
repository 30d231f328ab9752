import Accessibility.Proofs.Resolution.Trace

/-!
# Limits of a resolution

The limits of a resolver do not lead a walk elsewhere: all they do is end it.  A resolution is not
given up exactly if the path is short enough, and the levels that the walk passes without any limit
have few enough candidates and are reached in time.
-/

namespace Accessibility

namespace Trace

/-- The number of candidates of all levels that a walk has reached. -/
def visits (trace : Trace) : Nat :=
  trace.levels.foldr (fun level visits => level.candidates.length + visits) 0

@[simp]
theorem visits_after (level : Level) (number : Nat) (warnings : List Warning) (trace : Trace) :
    (trace.after level number warnings).visits = level.candidates.length + trace.visits :=
  rfl

/-- Whether a walk was given up because of a limit. -/
def IsAbandoned (trace : Trace) : Prop :=
  ∃ excess, trace.result = .error (.abandoned excess)

@[simp]
theorem isAbandoned_after_iff {level : Level} {number : Nat} {warnings : List Warning}
    {trace : Trace} : (trace.after level number warnings).IsAbandoned ↔ trace.IsAbandoned :=
  exists_congr fun _ => result_after_eq_error_iff

end Trace

namespace Resolver

/-- Whether a resolver has the means for all levels of a trace, after a number of visits. -/
structure Affords (resolver : Resolver) (stopwatch : Stopwatch) (visited : Nat)
    (trace : Trace) : Prop where
  visits : visited + trace.visits ≤ resolver.budget.maxVisited
  time : ∀ limit, resolver.budget.timeLimit = some limit → ∀ level ∈ trace.levels,
    stopwatch level.position < limit * 1000000

/-- The resolver without any limit for a path in a tree. -/
def unlimited (resolver : Resolver) (path : Path) (root : Element) : Resolver :=
  { resolver with budget := { maxDepth := path.length, maxVisited := root.size } }

/-- Whether a resolution stays within the limits: the path is not too long, and the resolver has the
means for all levels that it would reach without a limit. -/
structure StaysWithin (resolver : Resolver) (path : Path) (root : Element)
    (stopwatch : Stopwatch) : Prop where
  length : path.length ≤ resolver.budget.maxDepth
  affords : resolver.Affords stopwatch 0 ((resolver.unlimited path root).trace path root)

variable {resolver : Resolver} {stopwatch : Stopwatch} {depth visited : Nat}
  {candidates : List Element} {path : Path} {trace : Trace}

theorem check_eq_ok_iff {elapsed : Nat} :
    resolver.check visited elapsed = .ok () ↔
      visited ≤ resolver.budget.maxVisited ∧
        ∀ limit, resolver.budget.timeLimit = some limit → elapsed < limit * 1000000 := by
  unfold check
  split
  · rename_i many
    simp [Nat.not_le.mpr many]
  · rename_i few
    cases resolver.budget.timeLimit with
    | none => simpa using few
    | some limit => simp [Nat.not_lt.mp few]

namespace Affords

variable {level : Level}

theorem check (affords : resolver.Affords stopwatch visited trace) (reached : level ∈ trace.levels)
    {visits : Nat} (fewer : visits ≤ visited + trace.visits) :
    resolver.check visits (stopwatch level.position) = .ok () := by
  rw [check_eq_ok_iff]
  constructor
  · exact Nat.le_trans fewer affords.visits
  · intro limit limited
    exact affords.time limit limited level reached

theorem below {number : Nat} {warnings : List Warning}
    (affords : resolver.Affords stopwatch visited (trace.after level number warnings)) :
    resolver.Affords stopwatch (visited + level.candidates.length) trace where
  visits := by
    rw [Nat.add_assoc, ← Trace.visits_after]
    exact affords.visits
  time limit limited other reached :=
    affords.time limit limited other (List.mem_cons_of_mem level reached)

end Affords

namespace Walks

/-- A walk that is not given up is the walk of every resolver with the means for it. -/
theorem of_affords (other : Resolver) {visitedThere : Nat}
    (walks : resolver.Walks stopwatch depth visited candidates path trace)
    (suggestions : other.maxSuggestions = resolver.maxSuggestions)
    (notAbandoned : ¬trace.IsAbandoned) {later : Stopwatch}
    (affords : other.Affords later visitedThere trace) :
    other.Walks later depth visitedThere candidates path trace := by
  induction walks generalizing visitedThere with
  | exceed => exact absurd ⟨_, rfl⟩ notAbandoned
  | refuse _ refused =>
      rw [← suggestions] at refused
      refine .refuse ?_ refused
      exact affords.check (List.mem_singleton_self _) (Nat.le_refl _)
  | arrive _ chose =>
      rw [← suggestions] at chose
      refine .arrive ?_ chose
      exact affords.check (List.mem_singleton_self _) (Nat.le_refl _)
  | descend _ chose _ ih =>
      rw [← suggestions] at chose
      rw [Trace.isAbandoned_after_iff] at notAbandoned
      refine .descend ?_ chose (ih notAbandoned affords.below)
      apply affords.check List.mem_cons_self
      rw [Trace.visits_after, ← Nat.add_assoc]
      exact Nat.le_add_right _ _

/-- A walk that is not given up has the means for its levels. -/
theorem affords (walks : resolver.Walks stopwatch depth visited candidates path trace)
    (notAbandoned : ¬trace.IsAbandoned) : resolver.Affords stopwatch visited trace := by
  induction walks with
  | exceed => exact absurd ⟨_, rfl⟩ notAbandoned
  | refuse within | arrive within =>
      rcases check_eq_ok_iff.mp within with ⟨few, early⟩
      constructor
      · exact few
      · intro limit limited level reached
        rw [List.mem_singleton.mp reached]
        exact early limit limited
  | descend within _ _ ih =>
      rcases check_eq_ok_iff.mp within with ⟨_, early⟩
      rw [Trace.isAbandoned_after_iff] at notAbandoned
      have below := ih notAbandoned
      constructor
      · rw [Trace.visits_after, ← Nat.add_assoc]
        exact below.visits
      · intro limit limited level reached
        rcases List.mem_cons.mp reached with rfl | further
        · exact early limit limited
        · exact below.time limit limited level further

/-- Without a time limit a walk is not given up if there are few enough elements. -/
theorem not_isAbandoned (walks : resolver.Walks stopwatch depth visited candidates path trace)
    (noTimeLimit : resolver.budget.timeLimit = none)
    (few : visited + Element.sizeAll candidates ≤ resolver.budget.maxVisited) :
    ¬trace.IsAbandoned := by
  induction walks with
  | @exceed _ _ candidates _ _ exceeded =>
      have visits := Element.length_le_sizeAll candidates
      rw [check_eq_ok_iff.mpr ⟨by omega, by simp [noTimeLimit]⟩] at exceeded
      contradiction
  | refuse _ refused =>
      rintro ⟨excess, abandoned⟩
      cases abandoned
      cases Level.position?_of_choose_eq_error refused
  | arrive => nofun
  | descend _ chose _ ih =>
      have count :=
        Element.length_add_sizeAll_children_le (Level.mem_candidates_of_choose chose)
      rw [Trace.isAbandoned_after_iff]
      apply ih
      simp only at count
      omega

/-- A walk visits no more candidates than there are elements. -/
theorem visits_le_sizeAll
    (walks : resolver.Walks stopwatch depth visited candidates path trace) :
    trace.visits ≤ Element.sizeAll candidates := by
  induction walks with
  | exceed => exact Nat.zero_le _
  | @refuse _ _ candidates | @arrive _ _ candidates => exact Element.length_le_sizeAll candidates
  | descend _ chose _ ih =>
      have count :=
        Element.length_add_sizeAll_children_le (Level.mem_candidates_of_choose chose)
      rw [Trace.visits_after]
      simp only at count ⊢
      omega

end Walks

/-! ## Limits in a tree -/

variable {root : Element}

/-- The means for a trace in a tree are the means for the walk. -/
theorem affords_trace_iff {other : Resolver} (short : path.length ≤ other.budget.maxDepth) :
    resolver.Affords stopwatch visited (other.trace path root) ↔
      resolver.Affords stopwatch visited
        (other.walk Stopwatch.instant 0 0 root.topLevel path.first path.rest) := by
  rw [trace_of_short short]
  exact ⟨fun ⟨visits, time⟩ => ⟨visits, time⟩, fun ⟨visits, time⟩ => ⟨visits, time⟩⟩

/-- A resolution is given up if the path is too long or else if the walk is. -/
theorem abandoned_iff :
    (∃ excess, resolver.resolve path root stopwatch = .error (.abandoned excess)) ↔
      resolver.budget.maxDepth < path.length ∨
        (resolver.walk stopwatch 0 0 root.topLevel path.first path.rest).IsAbandoned := by
  by_cases long : resolver.budget.maxDepth < path.length
  · rw [resolve_of_too_long long]
    exact iff_of_true ⟨_, rfl⟩ (Or.inl long)
  · simp only [resolve_of_short (Nat.le_of_not_lt long), map_eq_error_iff, or_iff_right long]
    rfl

theorem not_abandoned_iff :
    (∀ excess, resolver.resolve path root stopwatch ≠ .error (.abandoned excess)) ↔
      path.length ≤ resolver.budget.maxDepth ∧
        ¬(resolver.walk stopwatch 0 0 root.topLevel path.first path.rest).IsAbandoned := by
  rw [← not_exists, abandoned_iff, not_or, Nat.not_lt]

theorem not_isAbandoned_unlimited (resolver : Resolver) (path : Path) (root : Element) :
    ¬((resolver.unlimited path root).walk Stopwatch.instant 0 0 root.topLevel path.first
      path.rest).IsAbandoned := by
  have free := (resolver.unlimited path root).walks_walk Stopwatch.instant 0 0 root.topLevel path
  apply free.not_isAbandoned rfl
  rw [Nat.zero_add]
  exact root.sizeAll_topLevel_le

/-- Within the limits the walk is that without any limit. -/
theorem StaysWithin.walk_eq (within : resolver.StaysWithin path root stopwatch) :
    resolver.walk stopwatch 0 0 root.topLevel path.first path.rest =
      (resolver.unlimited path root).walk Stopwatch.instant 0 0 root.topLevel path.first
        path.rest := by
  have free := (resolver.unlimited path root).walks_walk Stopwatch.instant 0 0 root.topLevel path
  have affords := (affords_trace_iff (Nat.le_refl _)).mp within.affords
  exact (free.of_affords resolver rfl (resolver.not_isAbandoned_unlimited path root)
    affords).eq_walk.symm

/-- Within the limits the walk is not given up. -/
theorem StaysWithin.not_isAbandoned (within : resolver.StaysWithin path root stopwatch) :
    ¬(resolver.walk stopwatch 0 0 root.topLevel path.first path.rest).IsAbandoned := by
  rw [within.walk_eq]
  exact resolver.not_isAbandoned_unlimited path root

/-- Within the limits a resolution does not depend on the time it takes. -/
theorem StaysWithin.resolve_eq {later : Stopwatch}
    (within : resolver.StaysWithin path root stopwatch)
    (withinLater : resolver.StaysWithin path root later) :
    resolver.resolve path root stopwatch = resolver.resolve path root later := by
  rw [resolve_of_short within.length, resolve_of_short within.length, within.walk_eq,
    withinLater.walk_eq]

/-- A resolution is not given up exactly if it stays within the limits. -/
theorem not_abandoned_iff_staysWithin :
    (∀ excess, resolver.resolve path root stopwatch ≠ .error (.abandoned excess)) ↔
      resolver.StaysWithin path root stopwatch := by
  rw [not_abandoned_iff]
  constructor
  · rintro ⟨short, notAbandoned⟩
    have walks := resolver.walks_walk stopwatch 0 0 root.topLevel path
    have freeAffords : (resolver.unlimited path root).Affords Stopwatch.instant 0
        (resolver.walk stopwatch 0 0 root.topLevel path.first path.rest) := by
      constructor
      · rw [Nat.zero_add]
        exact Nat.le_trans walks.visits_le_sizeAll root.sizeAll_topLevel_le
      · nofun
    have same := (walks.of_affords (resolver.unlimited path root) rfl notAbandoned
      freeAffords).eq_walk
    refine ⟨short, (affords_trace_iff (Nat.le_refl _)).mpr ?_⟩
    rw [← same]
    exact walks.affords notAbandoned
  · intro within
    exact ⟨within.length, within.not_isAbandoned⟩

end Resolver

end Accessibility
