import Accessibility.Proofs.Resolution.Siblings
import Mathlib.Data.List.Perm.Basic

/-!
# Repairs of a segment

Where several candidates fit a segment, each of them has a repair: the segment that also asks for
an identifying text which no other candidate with the rest shows, or the one that picks the
candidate by its number.  Put in place of the segment, a repair chooses the candidate it was made
for, and the repairs that are offered belong to different candidates.
-/

namespace Accessibility

namespace Segment

variable {segment : Segment} {asked : Attribute}

/-- Asking for another attribute leaves the elements that also have its text. -/
theorem fits_withPredicate (notAsked : segment.predicates.contains asked.name = false)
    (text : String) (element : Element) :
    (segment.withPredicate asked.name text).fits element =
      (segment.fits element && decide (element.text? asked.name = some text)) := by
  have entries := Dictionary.entries_insert_perm text notAsked
  simp only [fits, withPredicate, Attribute.canonicalName_name, entries.all_eq, List.all_cons]
  rw [Bool.and_comm (decide (element.text? asked.name = some text)), Bool.and_assoc]

theorem isWellFormed_withoutIndex (wellFormed : segment.IsWellFormed) :
    segment.withoutIndex.IsWellFormed :=
  ⟨wellFormed.role, wellFormed.canonical, nofun⟩

theorem isWellFormed_withPredicate (wellFormed : segment.IsWellFormed) (asked : Attribute)
    (text : String) : (segment.withPredicate asked.name text).IsWellFormed := by
  constructor
  · exact wellFormed.role
  · intro entry member
    rw [withPredicate, Attribute.canonicalName_name] at member
    rcases Dictionary.mem_entries_insert.mp member with rfl | ⟨_, earlier⟩
    · rw [Attribute.canonicalName?, Attribute.ofName?_name, Option.map_some]
    · exact wellFormed.canonical entry earlier
  · exact wellFormed.index

theorem isWellFormed_withIndex (wellFormed : segment.IsWellFormed) {index : Nat}
    (small : index < UInt64.size) : (segment.withIndex index).IsWellFormed := by
  constructor
  · exact wellFormed.role
  · exact wellFormed.canonical
  · rintro _ ⟨⟩
    exact small

/-- The written form of a well-formed segment is read as the segment. -/
theorem parse_render (wellFormed : segment.IsWellFormed) :
    parse segment.render = .ok segment := by
  rw [parse_eq_ok_iff, toList_render]
  exact spells_chars wellFormed

end Segment

namespace Level

variable {level : Level} {number limit : Nat} {element : Element} {candidate : Nat × Element}

/-- The level with another segment. -/
def withSegment (level : Level) (segment : Segment) : Level :=
  { level with segment }

@[simp]
theorem segment_withSegment (level : Level) (segment : Segment) :
    (level.withSegment segment).segment = segment :=
  rfl

/-! ## Which candidates fit -/

theorem mem_fitting_iff :
    (number, element) ∈ level.fitting ↔
      level.candidates[number]? = some element ∧ level.segment.fits element = true := by
  simp only [fitting_eq_filter_numbered, numbered, List.mem_filter, List.mem_map, Prod.exists,
    List.mem_zipIdx_iff_getElem?, Prod.mk.injEq, Function.comp_apply]
  constructor
  · rintro ⟨⟨_, _, isCandidate, rfl, rfl⟩, fits⟩
    exact ⟨isCandidate, fits⟩
  · rintro ⟨isCandidate, fits⟩
    exact ⟨⟨element, number, isCandidate, rfl, rfl⟩, fits⟩

/-- The candidates that fit have different numbers. -/
theorem nodup_numbers_fitting (level : Level) : (level.fitting.map Prod.fst).Nodup := by
  have distinct : (level.numbered.map Prod.fst).Nodup := by
    rw [map_fst_numbered]
    exact List.nodup_range'
  rw [fitting_eq_filter_numbered]
  exact distinct.sublist (List.filter_sublist.map Prod.fst)

/-- A segment that fits no more candidates than another fits the same ones. -/
theorem fitting_withSegment_of_fits {segment : Segment} (same : segment.fits = level.segment.fits) :
    (level.withSegment segment).fitting = level.fitting := by
  rw [fitting_eq_filter_numbered, segment_withSegment, same]
  rfl

/-- A segment without an index that fits a single candidate chooses it. -/
theorem choose_of_countP_eq_one (noIndex : level.segment.index = none)
    (fits : (number, element) ∈ level.fitting)
    (single : level.candidates.countP level.segment.fits = 1) (limit : Nat) :
    level.choose limit = .ok (number, element) := by
  rw [← length_fitting] at single
  rcases List.length_eq_one_iff.mp single with ⟨only, fitting⟩
  apply choose_of_single noIndex
  rw [fitting, List.mem_singleton] at fits
  rw [fitting, fits]

/-! ## Which candidate is chosen -/

/-- Without an index a level chooses the single candidate that fits, or refuses the choice because
none or several fit. -/
theorem choose_cases_of_no_index (noIndex : level.segment.index = none) (limit : Nat) :
    level.fitting = [] ∧
        level.choose limit = .error (.noMatch level.segment level.position) ∨
      (∃ only, level.fitting = [only] ∧ level.choose limit = .ok only) ∨
      2 ≤ level.fitting.length ∧
        level.choose limit = .error (.ambiguous level.segment level.position
          level.fitting.length (level.alternatives limit)) := by
  unfold choose
  rw [noIndex]
  rcases level.fitting with _ | ⟨first, _ | ⟨second, others⟩⟩
  · exact Or.inl ⟨rfl, rfl⟩
  · exact Or.inr (Or.inl ⟨first, rfl, rfl⟩)
  · refine Or.inr (Or.inr ⟨?_, rfl⟩)
    simp

/-- Without an index the choice of a candidate is the choice of the single one that fits. -/
theorem fitting_of_choose (noIndex : level.segment.index = none) {limit : Nat}
    {chosen : Nat × Element} (chose : level.choose limit = .ok chosen) :
    level.fitting = [chosen] := by
  rcases choose_cases_of_no_index noIndex limit with
    ⟨_, choice⟩ | ⟨only, single, choice⟩ | ⟨_, choice⟩
  · cases choice.symm.trans chose
  · cases choice.symm.trans chose
    exact single
  · cases choice.symm.trans chose

/-- With an index a level chooses the candidate that it picks from those that fit, or refuses the
choice because none fits or the index is beyond them. -/
theorem choose_cases_of_index {requested : Nat} (hasIndex : level.segment.index = some requested)
    (limit : Nat) :
    level.fitting = [] ∧
        level.choose limit = .error (.noMatch level.segment level.position) ∨
      (∃ chosen, level.fitting[requested]? = some chosen ∧ level.choose limit = .ok chosen) ∨
      0 < level.fitting.length ∧ level.fitting.length ≤ requested ∧
        level.choose limit = .error (.indexOutOfRange level.segment level.position requested
          level.fitting.length) := by
  unfold choose
  rw [hasIndex]
  rcases level.fitting with _ | ⟨first, others⟩
  · exact Or.inl ⟨rfl, rfl⟩
  · cases found : (first :: others)[requested]? with
    | some chosen => exact Or.inr (Or.inl ⟨chosen, rfl, by simp only [found]⟩)
    | none =>
        have beyond := List.getElem?_eq_none_iff.mp found
        exact Or.inr (Or.inr ⟨Nat.succ_pos _, beyond, by simp only [found]⟩)

/-- The candidate that is chosen is the one that the index picks from those that fit, or the single
one. -/
theorem getElem?_fitting_of_choose (chose : level.choose limit = .ok candidate) :
    level.fitting[level.segment.index.getD 0]? = some candidate := by
  cases index : level.segment.index with
  | none =>
      rw [fitting_of_choose index chose]
      rfl
  | some requested =>
      rcases choose_cases_of_index index limit with
        ⟨_, choice⟩ | ⟨chosen, found, choice⟩ | ⟨_, _, choice⟩
      · cases choice.symm.trans chose
      · cases choice.symm.trans chose
        exact found
      · cases choice.symm.trans chose

/-- What is chosen is a candidate that fits. -/
theorem mem_fitting_of_choose (chose : level.choose limit = .ok candidate) :
    candidate ∈ level.fitting :=
  List.mem_of_getElem? (getElem?_fitting_of_choose chose)

/-- A number that is chosen is that of the candidate. -/
theorem getElem?_of_choose (chose : level.choose limit = .ok candidate) :
    level.candidates[candidate.1]? = some candidate.2 :=
  (mem_fitting_iff.mp (mem_fitting_of_choose chose)).1

theorem mem_candidates_of_choose (chose : level.choose limit = .ok candidate) :
    candidate.2 ∈ level.candidates :=
  List.mem_of_getElem? (getElem?_of_choose chose)

/-! ## What a choice refuses -/

/-- A refusal is about the segment of the level and its position. -/
theorem choose_eq_error_cases {error : PathError} (refused : level.choose limit = .error error) :
    error = .noMatch level.segment level.position ∨
      error = .ambiguous level.segment level.position level.fitting.length
        (level.alternatives limit) ∨
      ∃ requested,
        error = .indexOutOfRange level.segment level.position requested level.fitting.length := by
  unfold choose at refused
  split at refused
  · cases refused
    exact Or.inl rfl
  · cases refused
  · cases refused
    exact Or.inr (Or.inl rfl)
  · split at refused
    · cases refused
    · cases refused
      exact Or.inr (Or.inr ⟨_, rfl⟩)

/-- An ambiguity tells how many candidates fit and offers the alternatives. -/
theorem of_choose_eq_ambiguous {segment : Segment} {position count : Nat}
    {alternatives : List Segment}
    (refused : level.choose limit = .error (.ambiguous segment position count alternatives)) :
    level.segment = segment ∧ level.position = position ∧ level.fitting.length = count ∧
      level.alternatives limit = alternatives := by
  rcases choose_eq_error_cases refused with same | same | ⟨_, same⟩
  · cases same
  · cases same
    exact ⟨rfl, rfl, rfl, rfl⟩
  · cases same

/-! ## Each repair -/

/-- A refinement asks for a text of the element under a name that the segment does not use, and
fits one candidate. -/
theorem of_refinement?_eq_some {rank : Nat} {refined : Segment}
    (found : level.refinement? element = some (rank, refined)) :
    ∃ (asked : Attribute) (text : String),
      level.segment.withoutIndex.predicates.contains asked.name = false ∧
      element.text? asked.name = some text ∧
      refined = level.segment.withoutIndex.withPredicate asked.name text ∧
      level.candidates.countP refined.fits = 1 := by
  rcases List.exists_of_findSome?_eq_some found with ⟨⟨asked, place⟩, _, chosen⟩
  simp only at chosen
  split at chosen
  · contradiction
  · rename_i notAsked
    split at chosen
    · contradiction
    · rename_i text shown
      split at chosen
      · rename_i single
        cases chosen
        exact ⟨asked, text, Bool.eq_false_iff.mpr notAsked, shown, rfl, single⟩
      · contradiction

/-- The repair of a fitting candidate chooses it. -/
theorem choose_withSegment_repair (isFitting : level.fitting[number]? = some candidate)
    (limit : Nat) :
    (level.withSegment (level.repair number candidate.2).2).choose limit = .ok candidate := by
  rcases candidate with ⟨place, element⟩
  rw [repair]
  cases refinement : level.refinement? element with
  | none =>
      apply choose_of_index rfl
      rw [fitting_withSegment_of_fits]
      · exact isFitting
      · rfl
  | some refined =>
      rcases of_refinement?_eq_some refinement with ⟨asked, text, notAsked, shown, same, single⟩
      rcases mem_fitting_iff.mp (List.mem_of_getElem? isFitting) with ⟨isCandidate, fits⟩
      -- The one candidate that the refinement fits is the element, since it fits the element.
      have fitsToo : refined.2.fits element = true := by
        rw [same, Segment.fits_withPredicate notAsked, Bool.and_eq_true, decide_eq_true_iff]
        exact ⟨fits, shown⟩
      apply choose_of_countP_eq_one
      · rw [segment_withSegment, Option.getD_some, same]
        rfl
      · exact mem_fitting_iff.mpr ⟨isCandidate, fitsToo⟩
      · exact single

theorem isWellFormed_repair (wellFormed : level.segment.IsWellFormed)
    (small : number < UInt64.size) (element : Element) :
    (level.repair number element).2.IsWellFormed := by
  have base := Segment.isWellFormed_withoutIndex wellFormed
  rw [repair]
  cases refinement : level.refinement? element with
  | none => exact Segment.isWellFormed_withIndex base small
  | some refined =>
      rcases of_refinement?_eq_some refinement with ⟨asked, text, _, _, same, _⟩
      rw [Option.getD_some, same]
      exact Segment.isWellFormed_withPredicate base asked text

/-! ## All repairs that are offered -/

/-- The repairs of the fitting candidates, in the order of the candidates. -/
def repairs (level : Level) : List (Nat × Segment) :=
  level.fitting.zipIdx.map fun (candidate, number) => level.repair number candidate.2

theorem alternatives_eq (level : Level) (limit : Nat) :
    level.alternatives limit =
      ((level.repairs.mergeSort fun one other => one.1 ≤ other.1).take limit).map Prod.snd :=
  rfl

theorem getElem?_repairs (level : Level) (number : Nat) :
    level.repairs[number]? =
      level.fitting[number]?.map fun candidate => level.repair number candidate.2 := by
  simp [repairs, Option.map_map, Function.comp_def]

/-- There is an alternative for every fitting candidate, up to the limit. -/
theorem length_alternatives (level : Level) (limit : Nat) :
    (level.alternatives limit).length = min level.fitting.length limit := by
  rw [alternatives_eq, List.length_map, List.length_take, List.length_mergeSort, repairs,
    List.length_map, List.length_zipIdx, Nat.min_comm]

theorem isWellFormed_of_mem_alternatives (wellFormed : level.segment.IsWellFormed)
    (few : level.candidates.length < UInt64.size) {alternative : Segment}
    (offered : alternative ∈ level.alternatives limit) : alternative.IsWellFormed := by
  rw [alternatives_eq] at offered
  rcases List.mem_map.mp offered with ⟨repair, member, rfl⟩
  have repairs := List.mem_mergeSort.mp (List.mem_of_mem_take member)
  rcases List.mem_iff_getElem?.mp repairs with ⟨number, found⟩
  rw [getElem?_repairs] at found
  rcases Option.map_eq_some_iff.mp found with ⟨candidate, isFitting, rfl⟩
  rcases List.getElem?_eq_some_iff.mp isFitting with ⟨inside, _⟩
  apply isWellFormed_repair wellFormed
  calc
    number < level.fitting.length := inside
    _ = level.candidates.countP level.segment.fits := level.length_fitting
    _ ≤ level.candidates.length := List.countP_le_length
    _ < UInt64.size := few

theorem forall₂_repairs (level : Level) (limit : Nat) :
    List.Forall₂ (fun repair candidate =>
      (level.withSegment repair.2).choose limit = .ok candidate) level.repairs level.fitting := by
  apply List.forall₂_of_length_eq_of_get
  · rw [repairs, List.length_map, List.length_zipIdx]
  · intro number inRepairs inFitting
    have found := level.getElem?_repairs number
    rw [List.getElem?_eq_getElem inRepairs, List.getElem?_eq_getElem inFitting, Option.map_some,
      Option.some.injEq] at found
    rw [List.get_eq_getElem, List.get_eq_getElem, found]
    exact choose_withSegment_repair (List.getElem?_eq_getElem inFitting) limit

/-- The alternatives choose candidates that fit, and no two of them the same one. -/
theorem exists_chosen_alternatives (level : Level) (limit : Nat) :
    ∃ chosen,
      List.Forall₂ (fun alternative candidate =>
        (level.withSegment alternative).choose limit = .ok candidate)
        (level.alternatives limit) chosen ∧
      (∀ candidate ∈ chosen, candidate ∈ level.fitting) ∧ (chosen.map Prod.fst).Nodup := by
  -- Sorting rearranges the repairs, and the candidates they choose with them.
  rcases List.perm_comp_forall₂ (List.mergeSort_perm level.repairs _)
    (level.forall₂_repairs limit) with ⟨sorted, chooses, rearranged⟩
  refine ⟨sorted.take limit, ?_, ?_, ?_⟩
  · rw [alternatives_eq, List.forall₂_map_left_iff]
    exact List.forall₂_take limit chooses
  · intro candidate member
    exact rearranged.mem_iff.mp (List.mem_of_mem_take member)
  · have distinct := (rearranged.map Prod.fst).nodup_iff.mpr level.nodup_numbers_fitting
    exact distinct.sublist ((List.take_sublist limit sorted).map Prod.fst)

end Level

end Accessibility
