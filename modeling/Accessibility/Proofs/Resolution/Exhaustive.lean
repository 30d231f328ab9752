import Accessibility.Proofs.Path.Generation
import Accessibility.Proofs.Resolution.Limits
import Mathlib.Data.Set.Card

/-!
# Exhaustive matching

A path asks for chains of elements: a candidate of the first segment, a child of it for the second
one, and so on, each of which fits its segment.  A walk looks at one element of every level only.
Along a path without indices it nevertheless tells what all chains together tell: where they end if
there is one of them, and otherwise the first segment at which there is none or more than one.
-/

namespace Accessibility

/-- A chain of elements along segments.  The first is a candidate, every other one a child of the
one before, and each fits its segment; the numbers say which candidate or child it is. -/
inductive Chain : List Element → List Segment → List Nat → Element → Prop where
  | single {candidates : List Element} {segment : Segment} {number : Nat} {element : Element}
      (isCandidate : candidates[number]? = some element)
      (fits : segment.fits element = true) :
      Chain candidates [segment] [number] element
  | descend {candidates : List Element} {segment : Segment} {segments : List Segment}
      {number : Nat} {chosen : List Nat} {element last : Element}
      (isCandidate : candidates[number]? = some element)
      (fits : segment.fits element = true)
      (below : Chain element.children segments chosen last) :
      Chain candidates (segment :: segments) (number :: chosen) last

/-- Where the chains along segments end, by the numbers that lead there. -/
def chainEnds (candidates : List Element) (segments : List Segment) : Set (List Nat) :=
  {chosen | ∃ last, Chain candidates segments chosen last}

/-- The positions in a tree at which the chains from its top level along the segments of a path up
to the one with this number end. -/
def Path.endsAt (path : Path) (root : Element) (number : Nat) : Set Element.Position :=
  {position |
    root.chosenTo position ∈ chainEnds root.topLevel (path.segments.take (number + 1))}

/-! ## Chains and levels -/

theorem Chain.among? {candidates : List Element} {segments : List Segment} {chosen : List Nat}
    {last : Element} (chain : Chain candidates segments chosen last) :
    Element.among? candidates chosen = some last := by
  induction chain with
  | single isCandidate _ =>
      exact Element.among?_eq_some_iff.mpr ⟨_, _, [], rfl, isCandidate, rfl⟩
  | descend isCandidate _ _ ih => exact Element.among?_cons_of_among?_children isCandidate ih

namespace Level

variable {level : Level}

/-- The chains along the segment of a level end at the candidates that fit. -/
theorem chainEnds_eq_image (level : Level) :
    chainEnds level.candidates [level.segment] =
      (fun number => [number]) '' {number | number ∈ level.fitting.map Prod.fst} := by
  ext chosen
  constructor
  · rintro ⟨element, chain⟩
    cases chain with
    | single isCandidate fits =>
        refine ⟨_, ?_, rfl⟩
        exact List.mem_map_of_mem (f := Prod.fst) (mem_fitting_iff.mpr ⟨isCandidate, fits⟩)
    | descend _ _ below => cases below
  · rintro ⟨number, isFitting, rfl⟩
    obtain ⟨⟨_, element⟩, member, rfl⟩ := List.mem_map.mp isFitting
    obtain ⟨isCandidate, fits⟩ := mem_fitting_iff.mp member
    exact ⟨element, .single isCandidate fits⟩

/-- There are as many chains along the segment of a level as candidates that fit. -/
theorem encard_chainEnds (level : Level) :
    (chainEnds level.candidates [level.segment]).encard = level.fitting.length := by
  have single : Function.Injective fun number : Nat => [number] :=
    fun _ _ same => (List.cons.inj same).1
  calc
    (chainEnds level.candidates [level.segment]).encard =
        {number | number ∈ level.fitting.map Prod.fst}.encard := by
      rw [chainEnds_eq_image, single.encard_image]
    _ = (level.fitting.map Prod.fst).toFinset.card := by
      rw [← List.coe_toFinset, Set.encard_coe_eq_coe_finsetCard]
    _ = level.fitting.length := by
      rw [List.toFinset_card_of_nodup level.nodup_numbers_fitting, List.length_map]

/-- If a single candidate fits, all chains end at it. -/
theorem chainEnds_of_single {only : Nat × Element} (single : level.fitting = [only]) :
    chainEnds level.candidates [level.segment] = {[only.1]} := by
  rw [chainEnds_eq_image, single]
  simp

/-- If a single candidate fits, all longer chains go on below it. -/
theorem chainEnds_cons_of_single {only : Nat × Element} (single : level.fitting = [only])
    {segments : List Segment} (more : segments ≠ []) :
    chainEnds level.candidates (level.segment :: segments) =
      (only.1 :: ·) '' chainEnds only.2.children segments := by
  have isOnly {number : Nat} {element : Element} :
      (number, element) ∈ level.fitting ↔ (number, element) = only := by
    rw [single, List.mem_singleton]
  ext chosen
  constructor
  · rintro ⟨last, chain⟩
    cases chain with
    | single => contradiction
    | descend isCandidate fits below =>
        have same := isOnly.mp (mem_fitting_iff.mpr ⟨isCandidate, fits⟩)
        subst same
        exact ⟨_, ⟨last, below⟩, rfl⟩
  · rintro ⟨chosen, ⟨last, below⟩, rfl⟩
    obtain ⟨isCandidate, fits⟩ := mem_fitting_iff.mp (isOnly.mpr rfl)
    exact ⟨last, .descend isCandidate fits below⟩

end Level

/-! ## Chains and walks -/

/-- Whether the end of a walk tells what all chains along the segments tell: the only place where
they end, the first segment along which there is none, or the first one along which there are
several, and how many.  The segments are numbered from a depth on. -/
inductive TellsChainEnds (candidates : List Element) (segments : List Segment) (depth : Nat) :
    Except PathError Resolution → Prop where
  | single {resolution : Resolution}
      (chain : Chain candidates segments resolution.position resolution.element)
      (ends : chainEnds candidates segments = {resolution.position}) :
      TellsChainEnds candidates segments depth (.ok resolution)
  | nothing {number : Nat} {segment : Segment} (stands : segments[number]? = some segment)
      (ends : chainEnds candidates (segments.take (number + 1)) = ∅) :
      TellsChainEnds candidates segments depth (.error (.noMatch segment (depth + number)))
  | several {number count : Nat} {segment : Segment} {alternatives : List Segment}
      (stands : segments[number]? = some segment) (many : 2 ≤ count)
      (ends : (chainEnds candidates (segments.take (number + 1))).encard = count) :
      TellsChainEnds candidates segments depth
        (.error (.ambiguous segment (depth + number) count alternatives))

namespace TellsChainEnds

variable {level : Level}

/-- A level without an index that refuses the choice tells why. -/
theorem of_refused (noIndex : level.segment.index = none) {limit : Nat} {error : PathError}
    (refused : level.choose limit = .error error) (segments : List Segment) :
    TellsChainEnds level.candidates (level.segment :: segments) level.position
      (.error error) := by
  have counted := level.encard_chainEnds
  -- The segment that failed is the first one here.
  rcases Level.choose_cases_of_no_index noIndex limit with
    ⟨noneFits, choice⟩ | ⟨only, _, choice⟩ | ⟨many, choice⟩
  · cases choice.symm.trans refused
    rw [noneFits] at counted
    exact @nothing _ _ _ 0 _ rfl (Set.encard_eq_zero.mp counted)
  · cases choice.symm.trans refused
  · cases choice.symm.trans refused
    exact @several _ _ _ 0 _ _ _ rfl many counted

/-- If a single candidate fits, what is told below it is told of all chains. -/
theorem after {only : Nat × Element} (single : level.fitting = [only]) {segments : List Segment}
    (more : segments ≠ []) {trace : Trace} (warnings : List Warning)
    (below : TellsChainEnds only.2.children segments (level.position + 1) trace.result) :
    TellsChainEnds level.candidates (level.segment :: segments) level.position
      (trace.after level only.1 warnings).result := by
  -- Every chain goes through the only candidate that fits, so that its number comes before every
  -- end and the position of the level before every other.
  have through {others : List Segment} (isMore : others ≠ []) :
      chainEnds level.candidates (level.segment :: others) =
        (only.1 :: ·) '' chainEnds only.2.children others :=
    Level.chainEnds_cons_of_single single isMore
  have further (number : Nat) : level.position + 1 + number = level.position + (number + 1) := by
    omega
  have nonempty (number : Nat) : segments.take (number + 1) ≠ [] := by
    simp [more]
  rcases trace with ⟨levels, result⟩
  cases below with
  | @single resolution chain ends =>
      have isFitting : only ∈ level.fitting := by
        rw [single]
        exact List.mem_singleton_self only
      rcases Level.mem_fitting_iff.mp isFitting with ⟨isCandidate, fits⟩
      apply TellsChainEnds.single (.descend isCandidate fits chain)
      rw [through more, ends, Set.image_singleton]
  | @nothing number segment stands ends =>
      change TellsChainEnds _ _ _ (.error (.noMatch segment (level.position + 1 + number)))
      rw [further]
      have standsBelow : (level.segment :: segments)[number + 1]? = some segment := stands
      apply nothing standsBelow
      rw [List.take_succ_cons, through (nonempty number), ends, Set.image_empty]
  | @several number count segment alternatives stands many ends =>
      change TellsChainEnds _ _ _
        (.error (.ambiguous segment (level.position + 1 + number) count alternatives))
      rw [further]
      have standsBelow : (level.segment :: segments)[number + 1]? = some segment := stands
      apply several standsBelow many
      rw [List.take_succ_cons, through (nonempty number), List.cons_injective.encard_image, ends]

end TellsChainEnds

/-- A walk along a path without indices that is not given up arrives where all chains end, or fails
at the first segment along which no chain or several ones go. -/
theorem Resolver.Walks.tells_chainEnds {resolver : Resolver} {stopwatch : Stopwatch}
    {depth visited : Nat} {candidates : List Element} {path : Path} {trace : Trace}
    (walks : resolver.Walks stopwatch depth visited candidates path trace)
    (noIndex : ∀ segment ∈ path.segments, segment.index = none)
    (notAbandoned : ¬trace.IsAbandoned) :
    TellsChainEnds candidates path.segments depth trace.result := by
  -- A level that is passed has a single candidate that fits, so that no chain leads past the walk.
  induction walks with
  | exceed => exact absurd ⟨_, rfl⟩ notAbandoned
  | @refuse depth _ candidates path _ _ refused =>
      exact .of_refused (noIndex path.first List.mem_cons_self) refused path.rest
  | @arrive _ _ _ segment _ _ chose =>
      have single := Level.fitting_of_choose (noIndex segment List.mem_cons_self) chose
      rcases Level.mem_fitting_iff.mp (Level.mem_fitting_of_choose chose) with
        ⟨isCandidate, fits⟩
      exact .single (.single isCandidate fits) (Level.chainEnds_of_single single)
  | @descend _ _ _ segment _ path _ _ chose _ ih =>
      have single := Level.fitting_of_choose (noIndex segment List.mem_cons_self) chose
      rw [Trace.isAbandoned_after_iff] at notAbandoned
      have below := ih (fun other member => noIndex other (List.mem_cons_of_mem segment member))
        notAbandoned
      exact .after single (List.cons_ne_nil path.first path.rest) _ below

/-! ## Chains in a tree -/

namespace Path

variable {path : Path} {root : Element} {number : Nat}

/-- The chains to positions in a tree are all chains from its top level. -/
theorem image_endsAt (path : Path) (root : Element) (number : Nat) :
    root.chosenTo '' path.endsAt root number =
      chainEnds root.topLevel (path.segments.take (number + 1)) := by
  apply Set.image_preimage_eq_of_subset
  rintro chosen ⟨last, chain⟩
  rcases Element.exists_chosenTo_of_among? chain.among? with ⟨position, leads, _⟩
  exact ⟨position, leads⟩

theorem encard_endsAt (path : Path) (root : Element) (number : Nat) :
    (path.endsAt root number).encard =
      (chainEnds root.topLevel (path.segments.take (number + 1))).encard := by
  rw [← image_endsAt, root.chosenTo_injective.encard_image]

theorem endsAt_eq_empty_iff :
    path.endsAt root number = ∅ ↔
      chainEnds root.topLevel (path.segments.take (number + 1)) = ∅ := by
  rw [← image_endsAt, Set.image_eq_empty]

/-- If all chains end at the position of an element, this is the only position. -/
theorem endsAt_eq_singleton {position : Element.Position}
    (ends : chainEnds root.topLevel (path.segments.take (number + 1)) =
      {root.chosenTo position}) :
    path.endsAt root number = {position} := by
  rw [← image_endsAt, ← Set.image_singleton] at ends
  exact root.chosenTo_injective.image_injective ends

end Path

namespace Resolver

/-- Along a path without indices, a resolution that stays within the limits tells what all chains of
elements tell: the single position where they end, the first segment along which there is none, or
the first one along which there are several, and how many. -/
theorem resolve_tells_endsAt {resolver : Resolver} {path : Path} {root : Element}
    {stopwatch : Stopwatch} (noIndex : ∀ segment ∈ path.segments, segment.index = none)
    (within : resolver.StaysWithin path root stopwatch) :
    (∃ resolution, resolver.resolve path root stopwatch = .ok resolution ∧
        root.at? resolution.position = some resolution.element ∧
        path.endsAt root (path.length - 1) = {resolution.position}) ∨
      (∃ (number : Nat) (segment : Segment),
        resolver.resolve path root stopwatch = .error (.noMatch segment number) ∧
        path.segments[number]? = some segment ∧
        path.endsAt root number = ∅) ∨
      ∃ (number : Nat) (segment : Segment) (count : Nat) (alternatives : List Segment),
        resolver.resolve path root stopwatch =
          .error (.ambiguous segment number count alternatives) ∧
        path.segments[number]? = some segment ∧
        2 ≤ count ∧ (path.endsAt root number).encard = count := by
  have walks := resolver.walks_walk stopwatch 0 0 root.topLevel path
  have resolves := resolve_of_short within.length root stopwatch
  have tells := walks.tells_chainEnds noIndex within.not_isAbandoned
  generalize (resolver.walk stopwatch 0 0 root.topLevel path.first path.rest).result = result
    at resolves tells
  cases tells with
  | @single resolution chain ends =>
      rcases resolution with ⟨element, chosen, warnings⟩
      rcases Element.exists_chosenTo_of_among? chain.among? with ⟨position, rfl, _, isAt⟩
      have whole : path.segments.take (path.length - 1 + 1) = path.segments :=
        List.take_of_length_le (Nat.le_refl path.length)
      rw [← whole] at ends
      change resolver.resolve path root stopwatch =
        .ok ⟨element, positionIn root (root.chosenTo position), warnings⟩ at resolves
      rw [Element.positionIn_chosenTo] at resolves
      exact Or.inl ⟨_, resolves, isAt, Path.endsAt_eq_singleton ends⟩
  | nothing stands ends =>
      rw [Nat.zero_add] at resolves
      exact Or.inr (Or.inl ⟨_, _, resolves, stands, Path.endsAt_eq_empty_iff.mpr ends⟩)
  | @several number _ _ _ stands many ends =>
      have counted := (path.encard_endsAt root number).trans ends
      rw [Nat.zero_add] at resolves
      exact Or.inr (Or.inr ⟨_, _, _, _, resolves, stands, many, counted⟩)

theorem resolve_tells_endsAt_of_wildcard :
    let labelled (role : String) : Element :=
      { properties := { role, attributes := Dictionary.ofList [("AXHelp", .text "save")] } }
    let root : Element :=
      { properties := { role := "AXWindow" }
        children := [labelled "AXButton", .ofRole "AXButton", labelled "AXImage"] }
    let path : Path :=
      ⟨{ role := "AXWindow" }, [({} : Segment).withPredicate "AXHelp" "save"]⟩
    (∀ segment ∈ path.segments, segment.index = none) ∧
      ({} : Resolver).StaysWithin path root Stopwatch.instant ∧
      (path.endsAt root 1).encard = 2 := by
  intro labelled root path
  have noIndex : ∀ segment ∈ path.segments, segment.index = none := by decide
  have within : ({} : Resolver).StaysWithin path root Stopwatch.instant := by
    apply Resolver.not_abandoned_iff_staysWithin.mp
    nofun
  refine ⟨noIndex, within, ?_⟩
  rcases resolve_tells_endsAt noIndex within with
    ⟨_, resolved, _⟩ | ⟨_, _, failed, _⟩ | ⟨_, _, _, _, failed, _, _, counted⟩
  · cases resolved
  · cases failed
  · cases failed
    exact counted

end Resolver

end Accessibility
