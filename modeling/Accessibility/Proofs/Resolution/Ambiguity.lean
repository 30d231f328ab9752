import Accessibility.Proofs.Resolution.Generated
import Accessibility.Proofs.Resolution.Trace

/-!
# Ambiguous paths and their repairs

When the walk along a path fails because several candidates fit a segment, the segments that are
offered instead are written and read like any other.  The path with one of them in place of the
segment leads down to the same candidates, chooses one of those that did fit, and goes on below it.
-/

namespace Accessibility

/-! ## Paths with another segment -/

namespace Path

/-- The path with another segment at a position. -/
def withSegment (path : Path) : Nat → Segment → Path
  | 0, segment => { path with first := segment }
  | position + 1, segment => { path with rest := path.rest.set position segment }

@[simp]
theorem segments_withSegment (path : Path) (position : Nat) (segment : Segment) :
    (path.withSegment position segment).segments = path.segments.set position segment := by
  cases position <;> rfl

@[simp]
theorem length_withSegment (path : Path) (position : Nat) (segment : Segment) :
    (path.withSegment position segment).length = path.length := by
  rw [← length_segments, segments_withSegment, List.length_set, length_segments]

/-- The text in which the segments of a path are written as these pieces. -/
def written (pieces : List (List Char)) : String :=
  String.ofList (scheme.toList ++ Text.joinWith ['/'] pieces)

theorem parse_eq_ok_iff_written {text : String} {path : Path} :
    parse text = .ok path ↔
      ∃ pieces, text = written pieces ∧ List.Forall₂ Segment.Spells pieces path.segments := by
  rw [parse_eq_ok_iff]
  constructor
  · rintro ⟨pieces, written, spelled⟩
    exact ⟨pieces, String.toList_inj.mp (by simpa [Path.written] using written), spelled⟩
  · rintro ⟨pieces, rfl, spelled⟩
    exact ⟨pieces, by simp [written], spelled⟩

theorem forall₂_set {α β : Type} {related : α → β → Prop} {items : List α} {others : List β}
    (pairwise : List.Forall₂ related items others) {item : α} {other : β}
    (pair : related item other) (position : Nat) :
    List.Forall₂ related (items.set position item) (others.set position other) := by
  induction pairwise generalizing position with
  | nil => exact .nil
  | cons first rest ih =>
      cases position with
      | zero => exact .cons pair rest
      | succ position => exact .cons first (ih position)

/-- A path with the written form of a segment in place of one of its pieces is read as the path with
this segment. -/
theorem parse_written_set {pieces : List (List Char)} {path : Path}
    (spelled : List.Forall₂ Segment.Spells pieces path.segments) {segment : Segment}
    (wellFormed : segment.IsWellFormed) (position : Nat) :
    parse (written (pieces.set position segment.chars)) =
      .ok (path.withSegment position segment) := by
  rw [parse_eq_ok_iff_written]
  refine ⟨_, rfl, ?_⟩
  rw [segments_withSegment]
  exact forall₂_set spelled (Segment.spells_chars wellFormed) position

end Path

/-! ## Getting past a level -/

/-- Whether a walk gets past a level with a candidate: it reaches the level, the segment there
chooses the candidate, the walk goes on among the candidate's children, and whatever fails fails
further down. -/
structure Trace.GetsPast (trace : Trace) (limit number : Nat) (level : Level)
    (candidate : Nat × Element) : Prop where
  reached : trace.levels[number]? = some level
  chooses : level.choose limit = .ok candidate
  goesOn : ∀ below, trace.levels[number + 1]? = some below →
    below.candidates = candidate.2.children
  failsBelow : ∀ error place, trace.result = .error error → error.position? = some place →
    level.position < place

namespace Resolver

variable {resolver : Resolver} {stopwatch : Stopwatch} {depth visited : Nat}
  {candidates : List Element} {path : Path} {trace : Trace}

theorem check_eq_of_no_limit (noTimeLimit : resolver.budget.timeLimit = none)
    (visited one other : Nat) : resolver.check visited one = resolver.check visited other := by
  rw [check, check, noTimeLimit]

namespace Walks

/-- Without a time limit it does not matter how long a walk takes. -/
theorem at_any_time (noTimeLimit : resolver.budget.timeLimit = none)
    (walks : resolver.Walks stopwatch depth visited candidates path trace) (other : Stopwatch) :
    resolver.Walks other depth visited candidates path trace := by
  have check := check_eq_of_no_limit noTimeLimit
  induction walks with
  | exceed exceeded => exact .exceed (check _ _ _ ▸ exceeded)
  | refuse within refused => exact .refuse (check _ _ _ ▸ within) refused
  | arrive within chose => exact .arrive (check _ _ _ ▸ within) chose
  | descend within chose _ ih => exact .descend (check _ _ _ ▸ within) chose ih

/-- The first level of a walk is within the limits. -/
theorem of_first (walks : resolver.Walks stopwatch depth visited candidates path trace)
    {level : Level} (isFirst : trace.levels[0]? = some level) :
    resolver.check (visited + candidates.length) (stopwatch depth) = .ok () ∧
      level = ⟨depth, path.first, candidates⟩ := by
  cases walks with
  | exceed => contradiction
  | refuse within | arrive within | descend within =>
      cases isFirst
      exact ⟨within, rfl⟩

/-- A walk gets past its first level with the candidate that is chosen there, and ends with it if
there is no other segment. -/
theorem exists_of_choose {chosen : Nat × Element}
    (within : resolver.check (visited + candidates.length) (stopwatch depth) = .ok ())
    (chose : (Level.mk depth path.first candidates).choose resolver.maxSuggestions =
      .ok chosen) :
    ∃ trace, resolver.Walks stopwatch depth visited candidates path trace ∧
      trace.GetsPast resolver.maxSuggestions 0 ⟨depth, path.first, candidates⟩ chosen ∧
      (1 = path.length → ∃ warnings, trace.result = .ok ⟨chosen.2, [chosen.1], warnings⟩) := by
  rcases path with ⟨segment, _ | ⟨next, others⟩⟩
  · refine ⟨_, .arrive within chose, ⟨rfl, chose, ?_, ?_⟩, fun _ => ⟨_, rfl⟩⟩
    · intro below reached
      contradiction
    · intro error place failed
      contradiction
  · have below := resolver.walks_walk stopwatch (depth + 1) (visited + candidates.length)
      chosen.2.children ⟨next, others⟩
    refine ⟨_, .descend within chose below, ⟨rfl, chose, ?_, ?_⟩, ?_⟩
    · intro level reached
      rw [(below.of_first reached).2]
    · intro error place failed isAt
      rw [Trace.result_after_eq_error_iff] at failed
      exact below.depth_le_of_error failed isAt
    · intro single
      simp [Path.length] at single

/-- What a walk does up to a level does not depend on the segment there: with any segment that makes
a choice at the level it gets past it. -/
theorem exists_withSegment
    (walks : resolver.Walks stopwatch depth visited candidates path trace) {number : Nat}
    {level : Level} (reached : trace.levels[number]? = some level) :
    ∃ above : List Nat, ∀ segment chosen,
      (level.withSegment segment).choose resolver.maxSuggestions = .ok chosen →
      ∃ repaired,
        resolver.Walks stopwatch depth visited candidates (path.withSegment number segment)
          repaired ∧
        repaired.GetsPast resolver.maxSuggestions number (level.withSegment segment) chosen ∧
        (number + 1 = path.length →
          ∃ warnings, repaired.result = .ok ⟨chosen.2, above ++ [chosen.1], warnings⟩) := by
  -- The levels above the changed segment are passed as before, one on every step of the induction.
  induction number generalizing depth visited candidates path trace with
  | zero =>
      rcases walks.of_first reached with ⟨within, rfl⟩
      refine ⟨[], fun segment chosen chose => ?_⟩
      rw [← path.length_withSegment 0 segment]
      exact exists_of_choose within chose
  | succ number ih =>
      cases walks with
      | exceed => contradiction
      | refuse => contradiction
      | arrive => contradiction
      | @descend _ _ _ _ passed path _ within chose below =>
          rcases ih below reached with ⟨above, repairs⟩
          refine ⟨passed.1 :: above, fun segment chosen choseThere => ?_⟩
          rcases repairs segment chosen choseThere with ⟨repaired, below, past, ends⟩
          have whole := Walks.descend within chose below
          rw [Path.segments_withSegment] at whole
          refine ⟨_, whole, ⟨past.reached, past.chooses, past.goesOn, ?_⟩, ?_⟩
          · intro error place failed isAt
            rw [Trace.result_after_eq_error_iff] at failed
            exact past.failsBelow error place failed isAt
          · intro isLast
            rcases ends (Nat.succ.inj isLast) with ⟨warnings, result⟩
            rw [Trace.after, result]
            exact ⟨_, rfl⟩

end Walks

/-! ## Repairs of a path -/

/-- A walk within the depth limit gets past a level in the tree as it does by itself. -/
theorem getsPast_trace (short : path.length ≤ resolver.budget.maxDepth) {root : Element}
    {limit number : Nat} {level : Level} {chosen : Nat × Element}
    (past : (resolver.walk stopwatch 0 0 root.topLevel path.first path.rest).GetsPast limit number
      level chosen) :
    (resolver.trace path root stopwatch).GetsPast limit number level chosen := by
  rw [trace_of_short short]
  constructor
  · exact past.reached
  · exact past.chooses
  · exact past.goesOn
  · intro error place failed
    exact past.failsBelow error place (map_eq_error_iff.mp failed)

/-- What fails ambiguously is a path, and one that is not too long. -/
theorem exists_of_resolveText_eq_ambiguous {text : String} {root : Element} {segment : Segment}
    {position count : Nat} {alternatives : List Segment}
    (ambiguous : resolver.resolveText text root stopwatch =
      .error (.ambiguous segment position count alternatives)) :
    ∃ path, Path.parse text = .ok path ∧ path.length ≤ resolver.budget.maxDepth ∧
      (resolver.walk stopwatch 0 0 root.topLevel path.first path.rest).result =
        .error (.ambiguous segment position count alternatives) := by
  rw [resolveText] at ambiguous
  cases read : Path.parse text with
  | error error =>
      rw [read] at ambiguous
      cases ambiguous
      have kind := Path.kind_of_parse_eq_error read
      contradiction
  | ok path =>
      rw [read] at ambiguous
      by_cases short : path.length ≤ resolver.budget.maxDepth
      · refine ⟨path, rfl, short, ?_⟩
        have failed : (resolver.trace path root stopwatch).result =
          .error (.ambiguous segment position count alternatives) := ambiguous
        rw [trace_of_short short] at failed
        exact map_eq_error_iff.mp failed
      · have tooLong := resolve_of_too_long (Nat.lt_of_not_le short) root stopwatch
        have failed : resolver.resolve path root stopwatch =
          .error (.ambiguous segment position count alternatives) := ambiguous
        rw [tooLong] at failed
        cases failed

/-- If a path fails because several elements fit a segment, the alternatives are as many as these
elements or as allowed.  Each is written as one segment; the path with this written form in place of
the segment gets past it with one of the elements that fitted, whatever time it takes, and leads to
this element if the segment is the last one; and different alternatives choose different elements.
The elements at a level are counted by a machine word. -/
theorem resolveText_alternatives {text : String} {root : Element} {segment : Segment}
    {position count : Nat} {alternatives : List Segment}
    (noTimeLimit : resolver.budget.timeLimit = none) (countable : root.size < UInt64.size)
    (ambiguous : resolver.resolveText text root stopwatch =
      .error (.ambiguous segment position count alternatives)) :
    ∃ (pieces : List (List Char)) (path : Path) (level : Level) (above : List Nat)
        (selected : List (Nat × Element)),
      text = Path.written pieces ∧ Path.parse text = .ok path ∧
      List.Forall₂ Segment.Spells pieces path.segments ∧
      path.segments[position]? = some segment ∧
      (resolver.trace path root stopwatch).levels[position]? = some level ∧
      level.segment = segment ∧ level.fitting.length = count ∧
      alternatives.length = min count resolver.maxSuggestions ∧
      (∀ chosen ∈ selected, chosen ∈ level.fitting) ∧ (selected.map Prod.fst).Nodup ∧
      List.Forall₂ (fun alternative chosen =>
        Segment.parse alternative.render = .ok alternative ∧
        ∃ repaired,
          Path.parse (Path.written (pieces.set position alternative.render.toList)) =
            .ok repaired ∧
          repaired.segments = path.segments.set position alternative ∧
          ∀ later,
            (resolver.trace repaired root later).GetsPast resolver.maxSuggestions position
              (level.withSegment alternative) chosen ∧
            (position + 1 = path.length → ∃ warnings,
              resolver.resolve repaired root later =
                .ok ⟨chosen.2, positionIn root (above ++ [chosen.1]), warnings⟩))
        alternatives selected := by
  rcases exists_of_resolveText_eq_ambiguous ambiguous with ⟨path, read, short, failed⟩
  rcases Path.parse_eq_ok_iff_written.mp read with ⟨pieces, written, spelled⟩
  have walks := resolver.walks_walk stopwatch 0 0 root.topLevel path
  rcases walks.of_error failed with ⟨_, exceeded⟩ | ⟨number, level, reached, refused⟩
  · cases exceeded
  rcases Level.of_choose_eq_ambiguous refused with ⟨rfl, isAt, rfl, rfl⟩
  rcases walks.of_level reached with ⟨place, stands, few⟩
  obtain rfl : number = position := by omega
  rcases walks.exists_withSegment reached with ⟨above, repairs⟩
  rcases level.exists_chosen_alternatives resolver.maxSuggestions with
    ⟨selected, chooses, fitting, distinct⟩
  have wellFormed := Path.isWellFormed_of_parse read level.segment (List.mem_of_getElem? stands)
  have countableLevel : level.candidates.length < UInt64.size := by
    have small := root.sizeAll_topLevel_le
    omega
  refine ⟨pieces, path, level, above, selected, written, read, spelled, stands, ?_, rfl, rfl,
    level.length_alternatives _, fitting, distinct, ?_⟩
  · rw [trace_of_short short]
    exact reached
  · have offered : ∀ alternative ∈ level.alternatives resolver.maxSuggestions,
        alternative.IsWellFormed :=
      fun alternative => Level.isWellFormed_of_mem_alternatives wellFormed countableLevel
    apply ((List.forall₂_and_left _ _).mpr ⟨offered, chooses⟩).imp
    rintro alternative chosen ⟨wellFormed, chose⟩
    rcases repairs alternative chosen chose with ⟨repaired, walks, past, ends⟩
    have readRepaired := Path.parse_written_set spelled wellFormed number
    rw [← Segment.toList_render] at readRepaired
    refine ⟨Segment.parse_render wellFormed, _, readRepaired, path.segments_withSegment _ _, ?_⟩
    intro later
    have shortToo : (path.withSegment number alternative).length ≤ resolver.budget.maxDepth := by
      rwa [Path.length_withSegment]
    rcases (walks.at_any_time noTimeLimit later).eq_walk with rfl
    refine ⟨getsPast_trace shortToo past, fun isLast => ?_⟩
    rcases ends isLast with ⟨warnings, arrived⟩
    exact ⟨warnings, resolve_of_walk shortToo arrived⟩

theorem resolveText_alternatives_of_three_buttons :
    let resolver : Resolver := { maxSuggestions := 2 }
    let root : Element :=
      { properties := { role := "AXWindow" }
        children := [.ofRole "AXButton",
          { properties := { role := "AXButton", title := some "a/b\"" } }, .ofRole "AXButton"] }
    let text := "macos://ui/AXWindow/AXButton"
    let button : Segment := { role := "AXButton" }
    let alternatives := [button.withPredicate "title" "a/b\"", button.withIndex 0]
    resolver.budget.timeLimit = none ∧ root.size < UInt64.size ∧
      resolver.resolveText text root = .error (.ambiguous button 1 3 alternatives) ∧
      ∃ (pieces : List (List Char)) (selected : List (Nat × Element)),
        text = Path.written pieces ∧ (selected.map Prod.fst).Nodup ∧
        List.Forall₂ (fun alternative chosen => ∃ repaired resolution,
          Path.parse (Path.written (pieces.set 1 alternative.render.toList)) = .ok repaired ∧
          resolver.resolve repaired root = .ok resolution ∧ resolution.element = chosen.2)
          alternatives selected := by
  intro resolver root text button alternatives
  have countable : root.size < UInt64.size := by decide
  have segments : Path.parse text = .ok ⟨{ role := "AXWindow" }, [button]⟩ := by decide
  have sorted : Level.alternatives ⟨1, button, root.children⟩ 2 = alternatives := by
    have repairs : Level.repairs ⟨1, button, root.children⟩ =
        [(3, button.withIndex 0), (1, button.withPredicate "title" "a/b\""),
          (3, button.withIndex 2)] := by
      decide
    rw [Level.alternatives_eq, repairs]
    simp [List.mergeSort, List.MergeSort.Internal.splitInTwo, alternatives]
  have ambiguous : resolver.resolveText text root =
      .error (.ambiguous button 1 3 alternatives) := by
    rw [resolveText, segments, ← sorted]
    rfl
  rcases resolveText_alternatives rfl countable ambiguous with
    ⟨pieces, path, _, _, selected, written, read, _, _, _, _, _, _, _, distinct, repairs⟩
  have twoSegments : path.length = 2 := by
    cases read.symm.trans segments
    rfl
  refine ⟨rfl, countable, ambiguous, pieces, selected, written, distinct, repairs.imp ?_⟩
  rintro alternative chosen ⟨_, repaired, readRepaired, _, past⟩
  rcases (past Stopwatch.instant).2 twoSegments.symm with ⟨warnings, resolves⟩
  exact ⟨repaired, _, readRepaired, resolves, rfl⟩

end Resolver

end Accessibility
