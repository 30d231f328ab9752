import Accessibility.Proofs.Element.Tree
import Accessibility.Proofs.Resolution.Repairs
import Accessibility.Resolution.Resolver

/-!
# Traces of walks

A walk passes one level after the other until a limit is exceeded, a level refuses the choice, or
the last segment has chosen.  Its levels stand at consecutive positions of the path, and unless a
limit is exceeded it fails at a level that it has reached.
-/

namespace Accessibility

/-- The position of the segment at which a resolution has failed. -/
def PathError.position? : PathError → Option Nat
  | .noMatch _ position => some position
  | .ambiguous _ position _ _ => some position
  | .indexOutOfRange _ position _ _ => some position
  | _ => none

theorem Level.position?_of_choose_eq_error {level : Level} {limit : Nat} {error : PathError}
    (refused : level.choose limit = .error error) : error.position? = some level.position := by
  rcases choose_eq_error_cases refused with rfl | rfl | ⟨_, rfl⟩ <;> rfl

theorem map_eq_error_iff {ε α β : Type} {change : α → β} {outcome : Except ε α} {error : ε} :
    outcome.map change = .error error ↔ outcome = .error error := by
  cases outcome <;> simp [Except.map]

namespace Trace

@[simp]
theorem result_after_eq_error_iff {level : Level} {number : Nat} {warnings : List Warning}
    {trace : Trace} {error : PathError} :
    (trace.after level number warnings).result = .error error ↔ trace.result = .error error :=
  map_eq_error_iff

theorem result_after_eq_ok_iff {level : Level} {number : Nat} {warnings : List Warning}
    {trace : Trace} {resolution : Resolution} :
    (trace.after level number warnings).result = .ok resolution ↔
      ∃ below, trace.result = .ok below ∧
        resolution = ⟨below.element, number :: below.position, warnings ++ below.warnings⟩ := by
  cases result : trace.result with
  | error error => simp [after, result, Except.map]
  | ok below => simp [after, result, Except.map, eq_comm]

end Trace

namespace Resolver

/-- Whether a walk along a path leaves a trace.  It starts from the candidates at a depth, and
`visited` counts the candidates above. -/
inductive Walks (resolver : Resolver) (stopwatch : Stopwatch) :
    Nat → Nat → List Element → Path → Trace → Prop where
  | exceed {depth visited : Nat} {candidates : List Element} {path : Path} {excess : Excess}
      (exceeded : resolver.check (visited + candidates.length) (stopwatch depth) =
        .error (.abandoned excess)) :
      Walks resolver stopwatch depth visited candidates path ⟨[], .error (.abandoned excess)⟩
  | refuse {depth visited : Nat} {candidates : List Element} {path : Path} {error : PathError}
      (within : resolver.check (visited + candidates.length) (stopwatch depth) = .ok ())
      (refused : (Level.mk depth path.first candidates).choose resolver.maxSuggestions =
        .error error) :
      Walks resolver stopwatch depth visited candidates path
        ⟨[⟨depth, path.first, candidates⟩], .error error⟩
  | arrive {depth visited : Nat} {candidates : List Element} {segment : Segment}
      {chosen : Nat × Element}
      (within : resolver.check (visited + candidates.length) (stopwatch depth) = .ok ())
      (chose : (Level.mk depth segment candidates).choose resolver.maxSuggestions = .ok chosen) :
      Walks resolver stopwatch depth visited candidates { first := segment }
        ⟨[⟨depth, segment, candidates⟩],
          .ok ⟨chosen.2, [chosen.1], (Level.mk depth segment candidates).warnings chosen.2⟩⟩
  | descend {depth visited : Nat} {candidates : List Element} {segment : Segment}
      {chosen : Nat × Element} {path : Path} {trace : Trace}
      (within : resolver.check (visited + candidates.length) (stopwatch depth) = .ok ())
      (chose : (Level.mk depth segment candidates).choose resolver.maxSuggestions = .ok chosen)
      (below : Walks resolver stopwatch (depth + 1) (visited + candidates.length)
        chosen.2.children path trace) :
      Walks resolver stopwatch depth visited candidates ⟨segment, path.segments⟩
        (trace.after ⟨depth, segment, candidates⟩ chosen.1
          ((Level.mk depth segment candidates).warnings chosen.2))

variable {resolver : Resolver} {stopwatch : Stopwatch} {depth visited : Nat}
  {candidates : List Element} {path : Path} {trace : Trace}

/-- A limit is the only thing that a check reports. -/
theorem exists_excess_of_check {elapsed : Nat} {error : PathError}
    (exceeded : resolver.check visited elapsed = .error error) :
    ∃ excess, error = .abandoned excess := by
  unfold check at exceeded
  split at exceeded
  · cases exceeded
    exact ⟨_, rfl⟩
  · split at exceeded
    · split at exceeded
      · cases exceeded
        exact ⟨_, rfl⟩
      · cases exceeded
    · cases exceeded

/-- A walk always leaves a trace. -/
theorem exists_walks (resolver : Resolver) (stopwatch : Stopwatch) (depth visited : Nat)
    (candidates : List Element) (segment : Segment) (rest : List Segment) :
    ∃ trace, resolver.Walks stopwatch depth visited candidates ⟨segment, rest⟩ trace := by
  cases checked : resolver.check (visited + candidates.length) (stopwatch depth) with
  | error error =>
      rcases exists_excess_of_check checked with ⟨excess, rfl⟩
      exact ⟨_, .exceed checked⟩
  | ok =>
      cases choice : (Level.mk depth segment candidates).choose resolver.maxSuggestions with
      | error error => exact ⟨_, .refuse checked choice⟩
      | ok chosen =>
          cases rest with
          | nil => exact ⟨_, .arrive checked choice⟩
          | cons next others =>
              rcases resolver.exists_walks stopwatch (depth + 1) (visited + candidates.length)
                chosen.2.children next others with ⟨trace, below⟩
              exact ⟨_, .descend checked choice below⟩

namespace Walks

/-- A walk leaves no other trace. -/
theorem eq_walk (walks : resolver.Walks stopwatch depth visited candidates path trace) :
    trace = resolver.walk stopwatch depth visited candidates path.first path.rest := by
  induction walks with
  | @exceed _ _ _ path _ exceeded =>
      rcases path with ⟨segment, _ | ⟨next, others⟩⟩ <;> simp only [walk, pass, exceeded]
  | @refuse _ _ _ path _ within refused =>
      rcases path with ⟨segment, _ | ⟨next, others⟩⟩ <;> simp only [walk, pass, within, refused]
  | arrive within chose => simp only [walk, pass, within, chose]
  | descend within chose _ ih => simp only [walk, pass, within, chose, Path.segments, ih]

end Walks

/-- The walk that is carried out leaves its own trace. -/
theorem walks_walk (resolver : Resolver) (stopwatch : Stopwatch) (depth visited : Nat)
    (candidates : List Element) (path : Path) :
    resolver.Walks stopwatch depth visited candidates path
      (resolver.walk stopwatch depth visited candidates path.first path.rest) := by
  rcases resolver.exists_walks stopwatch depth visited candidates path.first path.rest with
    ⟨trace, walks⟩
  rw [← walks.eq_walk]
  exact walks

namespace Walks

/-- A level stands at its position in the path, and its candidates are siblings below those of the
first level or these themselves. -/
theorem of_level (walks : resolver.Walks stopwatch depth visited candidates path trace)
    {number : Nat} {level : Level} (reached : trace.levels[number]? = some level) :
    level.position = depth + number ∧ path.segments[number]? = some level.segment ∧
      level.candidates.length ≤ Element.sizeAll candidates := by
  induction walks generalizing number with
  | exceed => contradiction
  | @refuse _ _ candidates | @arrive _ _ candidates =>
      rcases List.mem_singleton.mp (List.mem_of_getElem? reached) with rfl
      cases number with
      | zero => exact ⟨rfl, rfl, Element.length_le_sizeAll candidates⟩
      | succ number => contradiction
  | @descend depth _ candidates segment chosen _ _ _ chose _ ih =>
      cases number with
      | zero =>
          cases reached
          exact ⟨rfl, rfl, Element.length_le_sizeAll candidates⟩
      | succ number =>
          rcases ih reached with ⟨position, stands, few⟩
          have isCandidate := Level.mem_candidates_of_choose chose
          have count := Element.length_add_sizeAll_children_le isCandidate
          exact ⟨by omega, stands, by simp only at count; omega⟩

/-- A walk that fails has exceeded a limit, or fails at a level that it has reached. -/
theorem of_error (walks : resolver.Walks stopwatch depth visited candidates path trace)
    {error : PathError} (failed : trace.result = .error error) :
    (∃ excess, error = .abandoned excess) ∨
      ∃ (number : Nat) (level : Level), trace.levels[number]? = some level ∧
        level.choose resolver.maxSuggestions = .error error := by
  induction walks with
  | exceed =>
      cases failed
      exact Or.inl ⟨_, rfl⟩
  | refuse _ refused =>
      cases failed
      exact Or.inr ⟨0, _, rfl, refused⟩
  | arrive => contradiction
  | descend _ _ _ ih =>
      rw [Trace.result_after_eq_error_iff] at failed
      rcases ih failed with exceeded | ⟨number, level, reached, refused⟩
      · exact Or.inl exceeded
      · exact Or.inr ⟨number + 1, level, reached, refused⟩

/-- A walk does not fail above the depth it starts from. -/
theorem depth_le_of_error (walks : resolver.Walks stopwatch depth visited candidates path trace)
    {error : PathError} (failed : trace.result = .error error) {place : Nat}
    (isAt : error.position? = some place) : depth ≤ place := by
  rcases walks.of_error failed with ⟨excess, rfl⟩ | ⟨number, level, reached, refused⟩
  · contradiction
  · rcases walks.of_level reached with ⟨position, _⟩
    rw [Level.position?_of_choose_eq_error refused, Option.some.injEq] at isAt
    omega

end Walks

/-! ## Walks in a tree -/

theorem resolve_of_too_long
    (long : resolver.budget.maxDepth < path.length) (root : Element) (stopwatch : Stopwatch) :
    resolver.resolve path root stopwatch =
      .error (.abandoned (.depth path.length resolver.budget.maxDepth)) := by
  rw [resolve, trace, if_pos long]

/-- A path that is not too long is resolved by a walk from the top level. -/
theorem trace_of_short (short : path.length ≤ resolver.budget.maxDepth) (root : Element)
    (stopwatch : Stopwatch) :
    resolver.trace path root stopwatch =
      { levels := (resolver.walk stopwatch 0 0 root.topLevel path.first path.rest).levels
        result := (resolver.walk stopwatch 0 0 root.topLevel path.first path.rest).result.map
          fun resolution =>
            { resolution with position := positionIn root resolution.position } } := by
  rw [trace, if_neg (Nat.not_lt.mpr short)]

theorem resolve_of_short (short : path.length ≤ resolver.budget.maxDepth) (root : Element)
    (stopwatch : Stopwatch) :
    resolver.resolve path root stopwatch =
      (resolver.walk stopwatch 0 0 root.topLevel path.first path.rest).result.map fun resolution =>
        { resolution with position := positionIn root resolution.position } := by
  rw [resolve, trace_of_short short]

theorem resolveText_of_parse {text : String} (read : Path.parse text = .ok path) (root : Element)
    (stopwatch : Stopwatch) :
    resolver.resolveText text root stopwatch = resolver.resolve path root stopwatch := by
  rw [resolveText, read]
  rfl

/-- What a text resolves to is what the path that is read from it resolves to. -/
theorem resolveText_eq_ok_iff {text : String} {root : Element} {resolution : Resolution} :
    resolver.resolveText text root stopwatch = .ok resolution ↔
      ∃ path, Path.parse text = .ok path ∧
        resolver.resolve path root stopwatch = .ok resolution := by
  cases read : Path.parse text with
  | error error =>
      rw [resolveText, read]
      exact iff_of_false nofun (by simp)
  | ok path => simp [resolveText_of_parse read]

/-- The place of an element at the end of a walk is its place in the tree. -/
theorem resolve_of_walk (short : path.length ≤ resolver.budget.maxDepth) {root found : Element}
    {numbers : List Nat} {warnings : List Warning}
    (arrived : (resolver.walk stopwatch 0 0 root.topLevel path.first path.rest).result =
      .ok ⟨found, numbers, warnings⟩) :
    resolver.resolve path root stopwatch = .ok ⟨found, positionIn root numbers, warnings⟩ := by
  rw [resolve_of_short short, arrived]
  rfl

end Resolver

end Accessibility
