import Accessibility.Proofs.Resolution.Ambiguity
import Accessibility.Proofs.Resolution.Exhaustive
import Accessibility.Proofs.Resolution.Way

/-!
# Heeding the advice

The warnings of a resolution advise to drop an index or to ask for a missing attribute.  A segment
that is changed as advised still chooses its element, so that the path changed at all its segments
leads the same way, and what has been advised is not advised again.
-/

namespace Accessibility

/-! ## What is advised -/

namespace Warning

/-- The position of the segment that a warning is about. -/
def position : Warning → Nat
  | .unnecessaryIndex _ position => position
  | .potentialAmbiguity _ position _ => position
  | .missingAttribute _ position _ => position

/-- Whether a warning advises to drop an index. -/
def IsUnnecessaryIndex (warning : Warning) : Prop :=
  ∃ segment position, warning = .unnecessaryIndex segment position

/-- Whether a warning advises to ask for a missing attribute. -/
def IsMissingAttribute (warning : Warning) : Prop :=
  ∃ segment position identifying, warning = .missingAttribute segment position identifying

/-- Whether among the later of two lists of warnings there is none about an index, and none about a
missing attribute of a segment to which an earlier one has been about a missing attribute. -/
structure Settled (earlier later : List Warning) : Prop where
  indices : ∀ warning ∈ later, ¬warning.IsUnnecessaryIndex
  attributes : ∀ flagged ∈ earlier, flagged.IsMissingAttribute →
    ∀ warning ∈ later, warning.IsMissingAttribute → warning.position ≠ flagged.position

/-- Warnings about segments down to a depth and warnings about deeper ones are settled apart. -/
theorem Settled.append {depth : Nat} {earlier later earlierBelow laterBelow : List Warning}
    (here : Settled earlier later) (below : Settled earlierBelow laterBelow)
    (earlierHere : ∀ warning ∈ earlier, warning.position = depth)
    (laterHere : ∀ warning ∈ later, warning.position = depth)
    (earlierDeeper : ∀ warning ∈ earlierBelow, depth < warning.position)
    (laterDeeper : ∀ warning ∈ laterBelow, depth < warning.position) :
    Settled (earlier ++ earlierBelow) (later ++ laterBelow) where
  indices := List.forall_mem_append.mpr ⟨here.indices, below.indices⟩
  attributes := by
    intro flagged wasFlagged isMissing warning isWarning isMissingAgain
    rcases List.mem_append.mp wasFlagged with flaggedHere | flaggedBelow
    · rcases List.mem_append.mp isWarning with isHere | isBelow
      · exact here.attributes flagged flaggedHere isMissing warning isHere isMissingAgain
      · have deeper := laterDeeper warning isBelow
        rw [earlierHere flagged flaggedHere]
        exact Nat.ne_of_gt deeper
    · rcases List.mem_append.mp isWarning with isHere | isBelow
      · have deeper := earlierDeeper flagged flaggedBelow
        rw [laterHere warning isHere]
        exact Nat.ne_of_lt deeper
      · exact below.attributes flagged flaggedBelow isMissing warning isBelow isMissingAgain

end Warning

/-! ## Changing segments -/

namespace Segment

/-- A segment that has led to an element, changed as a warning about it advises. -/
def heeding (chosen : Element) (segment : Segment) : Warning → Segment
  | .unnecessaryIndex .. => segment.withoutIndex
  | .missingAttribute _ _ identifying => askingFor chosen segment identifying
  | .potentialAmbiguity .. => segment

theorem isWellFormed_heeding {segment : Segment} (wellFormed : segment.IsWellFormed)
    (chosen : Element) (warning : Warning) : (segment.heeding chosen warning).IsWellFormed := by
  cases warning with
  | unnecessaryIndex => exact isWellFormed_withoutIndex wellFormed
  | potentialAmbiguity => exact wellFormed
  | missingAttribute _ _ identifying =>
      rw [heeding, askingFor]
      split
      · exact isWellFormed_withPredicate wellFormed identifying _
      · exact wellFormed

theorem isWellFormed_foldl_heeding {segment : Segment} (wellFormed : segment.IsWellFormed)
    (chosen : Element) (warnings : List Warning) :
    (warnings.foldl (heeding chosen) segment).IsWellFormed := by
  induction warnings generalizing segment with
  | nil => exact wellFormed
  | cons warning warnings ih => exact ih (isWellFormed_heeding wellFormed chosen warning)

end Segment

namespace Path

/-- The path with every segment changed, depending on its number. -/
def mapSegments (change : Nat → Segment → Segment) (path : Path) : Path :=
  ⟨change 0 path.first, path.rest.mapIdx fun number => change (number + 1)⟩

theorem segments_mapSegments (change : Nat → Segment → Segment) (path : Path) :
    (path.mapSegments change).segments = path.segments.mapIdx change := by
  rw [segments, segments, List.mapIdx_cons]
  rfl

/-- The path changed as warnings advise, when its segments have led to the elements on a way.  The
warnings number the segments from a depth on. -/
def heeding (path : Path) (warnings : List Warning) (way : List Element) (depth : Nat := 0) :
    Path :=
  path.mapSegments fun number segment =>
    match way[number]? with
    | some chosen =>
        (warnings.filter fun warning => warning.position = depth + number).foldl
          (Segment.heeding chosen) segment
    | none => segment

theorem length_heeding (path : Path) (warnings : List Warning) (way : List Element)
    (depth : Nat) : (path.heeding warnings way depth).length = path.length := by
  rw [← length_segments, heeding, segments_mapSegments, List.length_mapIdx, length_segments]

/-- A path that is changed as advised can be written if it could before. -/
theorem isWellFormed_heeding {path : Path}
    (wellFormed : ∀ segment ∈ path.segments, segment.IsWellFormed) (warnings : List Warning)
    (way : List Element) (depth : Nat) :
    ∀ segment ∈ (path.heeding warnings way depth).segments, segment.IsWellFormed := by
  intro changed member
  rw [heeding, segments_mapSegments, List.mem_mapIdx] at member
  rcases member with ⟨number, inside, rfl⟩
  have before := wellFormed _ (List.getElem_mem inside)
  split
  · exact Segment.isWellFormed_foldl_heeding before _ _
  · exact before

section Depths

variable {depth : Nat} {here below : List Warning}

/-- The first segment is changed by the warnings about it. -/
theorem filter_here (atDepth : ∀ warning ∈ here, warning.position = depth)
    (deeper : ∀ warning ∈ below, depth < warning.position) :
    (here ++ below).filter (fun warning => warning.position = depth + 0) = here := by
  rw [List.filter_append, List.filter_eq_self.mpr, List.filter_eq_nil_iff.mpr, List.append_nil]
  · intro warning member
    simpa using Nat.ne_of_gt (deeper warning member)
  · intro warning member
    simpa using atDepth warning member

/-- The other segments are changed by the other warnings. -/
theorem filter_below (atDepth : ∀ warning ∈ here, warning.position = depth) (number : Nat) :
    (here ++ below).filter (fun warning => warning.position = depth + (number + 1)) =
      below.filter fun warning => warning.position = depth + 1 + number := by
  rw [List.filter_append, List.filter_eq_nil_iff.mpr, List.nil_append, Nat.add_right_comm,
    Nat.add_assoc]
  intro warning member
  have isHere := atDepth warning member
  simp only [decide_eq_true_eq]
  omega

theorem heeding_single (atDepth : ∀ warning ∈ here, warning.position = depth)
    (segment : Segment) (chosen : Element) :
    ({ first := segment } : Path).heeding here [chosen] depth =
      { first := here.foldl (Segment.heeding chosen) segment } := by
  have nothingDeeper : ∀ warning ∈ ([] : List Warning), depth < warning.position := nofun
  have all := filter_here atDepth nothingDeeper
  rw [List.append_nil] at all
  simp only [heeding, mapSegments, List.getElem?_cons_zero, all, List.mapIdx_nil]

theorem heeding_cons (atDepth : ∀ warning ∈ here, warning.position = depth)
    (deeper : ∀ warning ∈ below, depth < warning.position) (segment : Segment) (path : Path)
    (chosen : Element) (way : List Element) :
    (Path.mk segment path.segments).heeding (here ++ below) (chosen :: way) depth =
      ⟨here.foldl (Segment.heeding chosen) segment,
        (path.heeding below way (depth + 1)).segments⟩ := by
  have others : (path.heeding below way (depth + 1)).segments = _ := segments_mapSegments _ path
  rw [others]
  simp only [heeding, mapSegments, List.getElem?_cons_zero, List.getElem?_cons_succ,
    filter_here atDepth deeper, filter_below atDepth]

end Depths

end Path

/-! ## Levels -/

namespace Level

variable {level : Level} {limit : Nat} {chosen : Nat × Element} {warning : Warning}

theorem position_of_mem_advice {element : Element} (member : warning ∈ level.advice element) :
    warning.position = level.position := by
  rcases mem_advice_cases member with ⟨_, _, rfl⟩ | rfl <;> rfl

theorem position_of_mem_warnings {element : Element} (member : warning ∈ level.warnings element) :
    warning.position = level.position := by
  unfold warnings at member
  split at member
  · exact position_of_mem_advice member
  · split at member
    · rw [List.mem_singleton.mp member]
      rfl
    · contradiction

theorem not_isUnnecessaryIndex_of_mem_advice {element : Element}
    (member : warning ∈ level.advice element) : ¬warning.IsUnnecessaryIndex := by
  rintro ⟨segment, position, rfl⟩
  rcases mem_advice_cases member with ⟨_, _, same⟩ | same <;> cases same

theorem missing?_of_mem_advice {element : Element} (member : warning ∈ level.advice element)
    (isMissing : warning.IsMissingAttribute) : (level.missing? element).isSome = true := by
  rcases isMissing with ⟨segment, position, identifying, rfl⟩
  rcases mem_advice_cases member with ⟨asked, missing, _⟩ | same
  · rw [missing]
    rfl
  · cases same

/-- Heeding what is advised is asking for the missing attribute. -/
theorem foldl_heeding_advice (level : Level) (element : Element) (segment : Segment) :
    (level.advice element).foldl (Segment.heeding element) segment =
      match level.missing? element with
      | some asked => Segment.askingFor element segment asked
      | none => segment := by
  have aboutSiblings (changed : Segment) :
      (if 0 < level.similar element && !level.segment.predicates.contains
          Attribute.identifier.name then
        [Warning.potentialAmbiguity level.segment level.position (level.similar element)]
      else []).foldl (Segment.heeding element) changed = changed := by
    split <;> rfl
  rw [advice, List.foldl_append, aboutSiblings]
  change ((level.missing? element).map _).toList.foldl _ _ = _
  cases level.missing? element <;> rfl

/-- A missing attribute is one that the element shows, and the segment asks for none. -/
theorem of_missing?_eq_some {element : Element} {asked : Attribute}
    (isMissing : level.missing? element = some asked) :
    level.segment.predicates.isEmpty = true ∧ ∃ text, element.text? asked.name = some text := by
  unfold missing? at isMissing
  split at isMissing
  · rename_i noPredicates
    have shown := List.find?_some isMissing
    exact ⟨noPredicates, Option.isSome_iff_exists.mp shown⟩
  · contradiction

theorem warnings_of_no_index (noIndex : level.segment.index = none) (element : Element) :
    level.warnings element = level.advice element := by
  rw [warnings, noIndex]

/-- Where no attribute is missing, what is advised without an index settles everything. -/
theorem settled_warnings {element : Element} (nothingMissing : level.missing? element = none)
    (noIndex : level.segment.index = none) (earlier : List Warning) :
    Warning.Settled earlier (level.warnings element) := by
  rw [warnings_of_no_index noIndex]
  constructor
  · exact fun _ => not_isUnnecessaryIndex_of_mem_advice
  · intro _ _ _ warning member isMissing
    have missing := missing?_of_mem_advice member isMissing
    rw [nothingMissing] at missing
    contradiction

/-- A segment without an index that fits the chosen candidate, but none that did not fit, chooses it
if it was the only one. -/
theorem choose_withSegment_of_narrower (chose : level.choose limit = .ok chosen)
    (single : level.fitting.length = 1) {segment : Segment} (noIndex : segment.index = none)
    (fits : segment.fits chosen.2 = true)
    (narrower : ∀ element, segment.fits element = true → level.segment.fits element = true) :
    (level.withSegment segment).choose limit = .ok chosen := by
  have atMost : level.candidates.countP segment.fits ≤ 1 := by
    rw [← single, length_fitting]
    exact List.countP_mono_left fun element _ => narrower element
  have atLeast : 0 < level.candidates.countP segment.fits :=
    List.countP_pos_iff.mpr ⟨chosen.2, mem_candidates_of_choose chose, fits⟩
  apply choose_of_countP_eq_one noIndex
  · have isCandidate := getElem?_of_choose chose
    exact mem_fitting_iff.mpr ⟨isCandidate, fits⟩
  · exact Nat.le_antisymm atMost atLeast

/-- The level with its segment changed as is advised there. -/
def heeded (level : Level) (element : Element) : Level :=
  level.withSegment ((level.warnings element).foldl (Segment.heeding element) level.segment)

theorem heeded_of_index (chose : level.choose limit = .ok chosen) {requested : Nat}
    (hasIndex : level.segment.index = some requested) :
    (level.heeded chosen.2).choose limit = .ok chosen ∧
      Warning.Settled (level.warnings chosen.2) ((level.heeded chosen.2).warnings chosen.2) := by
  have fits := (mem_fitting_iff.mp (mem_fitting_of_choose chose)).2
  by_cases single : level.fitting.length = 1
  · have flagged : level.warnings chosen.2 =
        [.unnecessaryIndex level.segment level.position] := by
      rw [warnings, hasIndex]
      exact if_pos single
    have heeds : level.heeded chosen.2 = level.withSegment level.segment.withoutIndex := by
      rw [heeded, flagged]
      rfl
    rw [heeds, flagged]
    refine ⟨choose_withSegment_of_narrower chose single rfl fits fun _ => id, ?_, ?_⟩
    · intro warning member
      rw [warnings_of_no_index rfl] at member
      exact not_isUnnecessaryIndex_of_mem_advice member
    · rintro flagged member ⟨_, _, _, rfl⟩
      cases List.mem_singleton.mp member
  · have nothing : level.warnings chosen.2 = [] := by
      rw [warnings, hasIndex]
      exact if_neg single
    have same : level.heeded chosen.2 = level := by
      rw [heeded, nothing]
      rfl
    rw [same, nothing]
    exact ⟨chose, nofun, nofun⟩

theorem heeded_of_no_index (chose : level.choose limit = .ok chosen)
    (noIndex : level.segment.index = none) :
    (level.heeded chosen.2).choose limit = .ok chosen ∧
      Warning.Settled (level.warnings chosen.2) ((level.heeded chosen.2).warnings chosen.2) := by
  have fits := (mem_fitting_iff.mp (mem_fitting_of_choose chose)).2
  have heeds := level.foldl_heeding_advice chosen.2 level.segment
  rw [heeded, warnings_of_no_index noIndex]
  cases isMissing : level.missing? chosen.2 with
  | none =>
      rw [isMissing] at heeds
      have same : level.withSegment level.segment = level := rfl
      rw [heeds, same]
      exact ⟨chose, settled_warnings isMissing noIndex _⟩
  | some asked =>
      rcases of_missing?_eq_some isMissing with ⟨noPredicates, text, shown⟩
      have notAsked : level.segment.predicates.contains asked.name = false :=
        Dictionary.contains_of_isEmpty noPredicates asked.name
      have asks : (level.advice chosen.2).foldl (Segment.heeding chosen.2) level.segment =
          level.segment.withPredicate asked.name text := by
        rw [heeds, isMissing]
        exact Segment.askingFor_of_text? shown level.segment
      have single : level.fitting.length = 1 := by
        rw [fitting_of_choose noIndex chose]
        rfl
      have noIndexAgain : (level.segment.withPredicate asked.name text).index = none := noIndex
      have nothingMissing :
          (level.withSegment (level.segment.withPredicate asked.name text)).missing? chosen.2 =
            none :=
        if_neg (Dictionary.not_isEmpty_insert _ text level.segment.predicates)
      rw [asks]
      refine ⟨?_, settled_warnings nothingMissing noIndexAgain _⟩
      apply choose_withSegment_of_narrower chose single noIndexAgain
      · rw [Segment.fits_withPredicate notAsked, fits, shown]
        exact decide_eq_true rfl
      · intro element
        rw [Segment.fits_withPredicate notAsked, Bool.and_eq_true]
        exact And.left

/-- A level with its segment changed as advised chooses the same candidate, and what was advised
there is settled. -/
theorem choose_heeded (chose : level.choose limit = .ok chosen) :
    (level.heeded chosen.2).choose limit = .ok chosen ∧
      Warning.Settled (level.warnings chosen.2) ((level.heeded chosen.2).warnings chosen.2) := by
  cases index : level.segment.index with
  | none => exact heeded_of_no_index chose index
  | some requested => exact heeded_of_index chose index

end Level

/-! ## Walks -/

namespace Resolver

variable {resolver : Resolver} {stopwatch : Stopwatch} {depth visited : Nat}
  {candidates : List Element} {path : Path} {trace : Trace} {resolution : Resolution}

namespace Walks

/-- A walk warns of nothing above the depth it starts from. -/
theorem le_position_of_mem_warnings
    (walks : resolver.Walks stopwatch depth visited candidates path trace)
    (arrived : trace.result = .ok resolution) {warning : Warning}
    (member : warning ∈ resolution.warnings) : depth ≤ warning.position := by
  induction walks generalizing resolution with
  | exceed => contradiction
  | refuse => contradiction
  | arrive =>
      cases arrived
      exact Nat.le_of_eq (Level.position_of_mem_warnings member).symm
  | descend _ _ _ ih =>
      rcases Trace.result_after_eq_ok_iff.mp arrived with ⟨below, arrivedBelow, rfl⟩
      rcases List.mem_append.mp member with isHere | isBelow
      · exact Nat.le_of_eq (Level.position_of_mem_warnings isHere).symm
      · exact Nat.le_of_succ_le (ih arrivedBelow isBelow)

/-- A walk along a path that is changed as advised arrives at the same element by the same numbers,
and what was advised is settled. -/
theorem exists_heeding (walks : resolver.Walks stopwatch depth visited candidates path trace)
    (arrived : trace.result = .ok resolution) :
    ∃ heeding warnings,
      resolver.Walks stopwatch depth visited candidates
        (path.heeding resolution.warnings (Element.way candidates resolution.position) depth)
        heeding ∧
      heeding.result = .ok ⟨resolution.element, resolution.position, warnings⟩ ∧
      Warning.Settled resolution.warnings warnings := by
  -- The warnings of a walk are those of its first level and then those of the walk below it, so
  -- that every segment heeds the warnings of its own level.
  induction walks generalizing resolution with
  | exceed => contradiction
  | refuse => contradiction
  | @arrive depth visited candidates segment chosen within chose =>
      cases arrived
      rcases Level.choose_heeded chose with ⟨choseAgain, settled⟩
      have atDepth : ∀ warning ∈ (Level.mk depth segment candidates).warnings chosen.2,
          warning.position = depth :=
        fun _ => Level.position_of_mem_warnings
      rw [Element.way_cons (Level.getElem?_of_choose chose), Element.way,
        Path.heeding_single atDepth]
      exact ⟨_, _, .arrive within choseAgain, rfl, settled⟩
  | @descend depth visited candidates segment chosen path trace within chose walksBelow ih =>
      rcases Trace.result_after_eq_ok_iff.mp arrived with ⟨below, arrivedBelow, rfl⟩
      rcases ih arrivedBelow with
        ⟨heedingBelow, warningsBelow, walksAgain, arrivedAgain, settledBelow⟩
      rcases Level.choose_heeded chose with ⟨choseAgain, settled⟩
      have atDepth : ∀ warning ∈ (Level.mk depth segment candidates).warnings chosen.2,
          warning.position = depth :=
        fun _ => Level.position_of_mem_warnings
      have deeper : ∀ warning ∈ below.warnings, depth < warning.position :=
        fun _ => walksBelow.le_position_of_mem_warnings arrivedBelow
      have atDepthAgain : ∀ warning ∈
          ((Level.mk depth segment candidates).heeded chosen.2).warnings chosen.2,
          warning.position = depth :=
        fun _ => Level.position_of_mem_warnings
      have deeperAgain : ∀ warning ∈ warningsBelow, depth < warning.position :=
        fun _ => walksAgain.le_position_of_mem_warnings arrivedAgain
      rw [Element.way_cons (Level.getElem?_of_choose chose), Path.heeding_cons atDepth deeper]
      exact ⟨_, _, .descend within choseAgain walksAgain,
        Trace.result_after_eq_ok_iff.mpr ⟨_, arrivedAgain, rfl⟩,
        settled.append settledBelow atDepth atDepthAgain deeper deeperAgain⟩

end Walks

/-- If a text resolves without a time limit, take its path and change all segments as the warnings
advise, each for the element that it chose.  The written form of the changed path is read as this
path and resolves to the same element at the same position, whatever time it takes.  Then no index
is unnecessary, and no attribute is missing where one was missing before. -/
theorem resolveText_heeding {text : String} {root : Element}
    (noTimeLimit : resolver.budget.timeLimit = none)
    (resolved : resolver.resolveText text root stopwatch = .ok resolution) :
    ∃ path, Path.parse text = .ok path ∧
      (resolver.trace path root stopwatch).levels.map Level.segment = path.segments ∧
      List.Forall₂ (fun level chosen => ∃ number,
          level.choose resolver.maxSuggestions = .ok (number, chosen))
        (resolver.trace path root stopwatch).levels (root.wayTo resolution.position) ∧
      root.at? resolution.position = some resolution.element ∧
      let heeding := path.heeding resolution.warnings (root.wayTo resolution.position)
      Path.parse heeding.render = .ok heeding ∧
        ∀ later, ∃ warnings,
          resolver.resolveText heeding.render root later =
            .ok ⟨resolution.element, resolution.position, warnings⟩ ∧
          Warning.Settled resolution.warnings warnings := by
  rcases resolveText_eq_ok_iff.mp resolved with ⟨path, read, resolves⟩
  rcases exists_walk_of_resolve resolves with ⟨short, arrived, isAt⟩
  have walks := resolver.walks_walk stopwatch 0 0 root.topLevel path
  have readAgain : Path.parse (path.heeding resolution.warnings
      (root.wayTo resolution.position)).render = .ok _ :=
    Path.parse_render_eq_ok_iff.mpr
      (Path.isWellFormed_heeding (Path.isWellFormed_of_parse read) _ _ 0)
  refine ⟨path, read, ?_, ?_, isAt, readAgain, ?_⟩
  · rw [trace_of_short short]
    exact walks.map_segment_levels arrived
  · rw [trace_of_short short]
    exact walks.chooses_way arrived
  · intro later
    rcases walks.exists_heeding arrived with ⟨heeding, warnings, walksAgain, arrivedAgain, settled⟩
    rcases (walksAgain.at_any_time noTimeLimit later).eq_walk with rfl
    have shortAgain : (path.heeding resolution.warnings
        (root.wayTo resolution.position)).length ≤ resolver.budget.maxDepth := by
      rwa [Path.length_heeding]
    have resolvesAgain := resolve_of_walk shortAgain arrivedAgain
    rw [Element.positionIn_chosenTo] at resolvesAgain
    exact ⟨warnings, resolveText_eq_ok_iff.mpr ⟨_, readAgain, resolvesAgain⟩, settled⟩

theorem resolveText_heeding_index_and_title :
    let window : Segment := { role := "AXWindow", index := some 0 }
    let button : Segment := { role := "AXButton" }
    let root : Element :=
      { properties := { role := "AXWindow" }
        children := [.ofRole "AXRow",
          { properties := { role := "AXButton", title := some "a/b\"" } }] }
    let flagged : List Warning :=
      [.unnecessaryIndex window 0, .missingAttribute button 1 .title]
    let text := "macos://ui/AXWindow#0/AXButton"
    let changed := "macos://ui/AXWindow/AXButton[@AXTitle=\"a/b\\\"\"]"
    ∃ resolution,
      ({} : Resolver).resolveText text root = .ok resolution ∧ resolution.warnings = flagged ∧
      ∃ warnings,
        ({} : Resolver).resolveText changed root =
          .ok ⟨resolution.element, resolution.position, warnings⟩ ∧
        Warning.Settled flagged warnings := by
  intro window button root flagged text changed
  have read : Path.parse text = .ok ⟨window, [button]⟩ := by decide
  have resolved : ({} : Resolver).resolveText text root =
      .ok ⟨root.children[1], [1], flagged⟩ := by
    rw [resolveText_of_parse read]
    rfl
  refine ⟨_, resolved, rfl, ?_⟩
  rcases resolveText_heeding rfl resolved with ⟨path, readToo, _, _, _, _, again⟩
  cases read.symm.trans readToo
  rcases again Stopwatch.instant with ⟨warnings, resolvesAgain, settled⟩
  have rendered : ((Path.mk window [button]).heeding flagged (root.wayTo [1])).render = changed := by
    decide
  rw [rendered] at resolvesAgain
  exact ⟨warnings, resolvesAgain, settled⟩

end Resolver

end Accessibility
