import Accessibility.Path.Generation
import Accessibility.Proofs.Dictionary
import Accessibility.Proofs.Element.Sight
import Accessibility.Proofs.Filtering
import Accessibility.Proofs.Path.RoundTrip
import Accessibility.Resolution.Level

/-!
# Segments among siblings

The segment that is generated for a sibling asks for everything the sibling shows of its identity
and has an index where that is not enough.  At a level of the same siblings it therefore chooses
this sibling and no other, and there is nothing to advise but that others have the same role.  No two
siblings have the same segment, even if they show the same.
-/

namespace Accessibility

namespace Segment

/-! ## What the identifying segment asks for -/

/-- The segment that also asks for an attribute if the element has it. -/
def askingFor (element : Element) (segment : Segment) (identifying : Attribute) : Segment :=
  match element.text? identifying.name with
  | some text => segment.withPredicate identifying.name text
  | none => segment

theorem identifying_eq_foldl (element : Element) :
    identifying element =
      Attribute.identifying.foldl (askingFor element) { role := element.role } :=
  rfl

theorem askingFor_of_text? {element : Element} {asked : Attribute} {text : String}
    (shown : element.text? asked.name = some text) (segment : Segment) :
    askingFor element segment asked = segment.withPredicate asked.name text := by
  rw [askingFor, shown]

theorem role_askingFor (element : Element) (segment : Segment) (asked : Attribute) :
    (askingFor element segment asked).role = segment.role := by
  unfold askingFor
  split <;> rfl

theorem index_askingFor (element : Element) (segment : Segment) (asked : Attribute) :
    (askingFor element segment asked).index = segment.index := by
  unfold askingFor
  split <;> rfl

/-- Whether the predicates of a segment are texts of an element. -/
def Describes (segment : Segment) (element : Element) : Prop :=
  ∀ entry ∈ segment.predicates.entries, element.text? entry.1 = some entry.2

theorem mem_entries_askingFor {element : Element} {segment : Segment} {asked : Attribute}
    (describes : segment.Describes element) {entry : String × String} :
    entry ∈ (askingFor element segment asked).predicates.entries ↔
      entry ∈ segment.predicates.entries ∨
        asked.name = entry.1 ∧ element.text? entry.1 = some entry.2 := by
  obtain ⟨name, value⟩ := entry
  unfold askingFor
  cases shown : element.text? asked.name with
  | none =>
      constructor
      · exact Or.inl
      · rintro (member | ⟨rfl, sameText⟩)
        · exact member
        · rw [shown] at sameText
          contradiction
  | some text =>
      simp only [withPredicate, Attribute.canonicalName_name, Dictionary.mem_entries_insert,
        Prod.mk.injEq]
      constructor
      · rintro (⟨rfl, rfl⟩ | ⟨_, member⟩)
        · exact Or.inr ⟨rfl, shown⟩
        · exact Or.inl member
      · rintro (member | ⟨rfl, sameText⟩)
        -- A name that is asked for again keeps its text, since the earlier text is the element's.
        · by_cases same : name = asked.name
          · subst same
            have sameText := (describes _ member).symm.trans shown
            exact Or.inl ⟨rfl, Option.some.inj sameText⟩
          · exact Or.inr ⟨same, member⟩
        · exact Or.inl ⟨rfl, Option.some.inj (sameText.symm.trans shown)⟩

theorem Describes.askingFor {element : Element} {segment : Segment}
    (describes : segment.Describes element) (asked : Attribute) :
    (askingFor element segment asked).Describes element := by
  intro entry member
  rcases (mem_entries_askingFor describes).mp member with earlier | ⟨_, shown⟩
  · exact describes entry earlier
  · exact shown

theorem mem_entries_foldl_askingFor {element : Element} {attributes : List Attribute}
    {segment : Segment} (describes : segment.Describes element) {entry : String × String} :
    entry ∈ (attributes.foldl (askingFor element) segment).predicates.entries ↔
      entry ∈ segment.predicates.entries ∨
        (∃ asked ∈ attributes, asked.name = entry.1) ∧ element.text? entry.1 = some entry.2 := by
  induction attributes generalizing segment with
  | nil => simp
  | cons asked attributes ih =>
      rw [List.foldl_cons, ih (describes.askingFor asked), mem_entries_askingFor describes,
        or_assoc, ← or_and_right, List.exists_mem_cons_iff]

/-- The predicates are exactly the identifying texts that the element shows. -/
theorem mem_entries_identifying {element : Element} {entry : String × String} :
    entry ∈ (identifying element).predicates.entries ↔
      (∃ asked ∈ Attribute.identifying, asked.name = entry.1) ∧
        element.text? entry.1 = some entry.2 := by
  have describesNothing : ({ role := element.role } : Segment).Describes element := by
    intro entry member
    contradiction
  rw [identifying_eq_foldl, mem_entries_foldl_askingFor describesNothing]
  exact or_iff_right List.not_mem_nil

@[simp]
theorem role_identifying (element : Element) : (identifying element).role = element.role := by
  simp [identifying_eq_foldl, Attribute.identifying, role_askingFor]

@[simp]
theorem index_identifying (element : Element) : (identifying element).index = none := by
  simp [identifying_eq_foldl, Attribute.identifying, index_askingFor]

/-- An element has everything that its identifying segment asks for. -/
theorem fits_identifying (element : Element) : (identifying element).fits element = true := by
  rw [fits, role_identifying, Bool.and_eq_true, List.all_eq_true]
  constructor
  · simp
  · intro entry member
    exact decide_eq_true (mem_entries_identifying.mp member).2

/-! ## What the segments of siblings are made from -/

theorem askingFor_congr {one other : Element} {asked : Attribute}
    (same : one.text? asked.name = other.text? asked.name) (segment : Segment) :
    askingFor one segment asked = askingFor other segment asked := by
  rw [askingFor, askingFor, same]

theorem identifying_congr {one other : Element} (same : one.identity = other.identity) :
    identifying one = identifying other := by
  rw [identifying_eq_foldl, identifying_eq_foldl, Element.role_eq_of_identity_eq same]
  apply List.foldl_ext
  intro segment asked isIdentifying
  exact askingFor_congr (Element.text?_eq_of_identity_eq same isIdentifying) segment

/-- Identifying segments see no more of an element than its identity. -/
theorem fits_identifying_congr {one other : Element} (same : one.identity = other.identity)
    (element : Element) : (identifying element).fits one = (identifying element).fits other := by
  apply Element.fits_eq_of_text?_eq (Element.role_eq_of_identity_eq same)
  intro predicate isPredicate
  obtain ⟨⟨asked, isIdentifying, named⟩, _⟩ := mem_entries_identifying.mp isPredicate
  rw [← named]
  exact Element.text?_eq_of_identity_eq same isIdentifying

theorem countP_fits_identifying_congr {siblings others : List Element}
    (same : siblings.map Element.identity = others.map Element.identity) (element : Element) :
    siblings.countP (identifying element).fits = others.countP (identifying element).fits := by
  have seesIdentity : (identifying element).fits.FactorsThrough Element.identity :=
    fun _ _ sameIdentity => fits_identifying_congr sameIdentity element
  obtain ⟨fitsIdentity, byIdentity⟩ := (Function.factorsThrough_iff _).mp seesIdentity
  rw [byIdentity, ← List.countP_map, ← List.countP_map, same]

/-- The segment of a sibling depends only on the identities of the siblings. -/
theorem amongSiblings_congr {siblings others : List Element} {one other : Element}
    (sameSiblings : siblings.map Element.identity = others.map Element.identity)
    (same : one.identity = other.identity) (number : Nat) :
    amongSiblings siblings one number = amongSiblings others other number := by
  have sameTake : (siblings.take number).map Element.identity =
      (others.take number).map Element.identity := by
    rw [List.map_take, List.map_take, sameSiblings]
  simp only [amongSiblings, identifying_congr same, countP_fits_identifying_congr sameSiblings,
    countP_fits_identifying_congr sameTake]

@[simp]
theorem getElem?_ofSiblings (siblings : List Element) (number : Nat) :
    (ofSiblings siblings)[number]? =
      siblings[number]?.map (amongSiblings siblings · number) := by
  simp [ofSiblings, Option.map_map, Function.comp_def]

/-! ## Segments of siblings are well-formed -/

/-- Whether the identifying segment of an element fits several siblings. -/
def IsShared (siblings : List Element) (element : Element) : Prop :=
  1 < siblings.countP (identifying element).fits

theorem amongSiblings_of_isShared {siblings : List Element} {element : Element}
    (shared : IsShared siblings element) (number : Nat) :
    amongSiblings siblings element number =
      (identifying element).withIndex
        ((siblings.take number).countP (identifying element).fits) :=
  if_pos shared

theorem amongSiblings_of_not_isShared {siblings : List Element} {element : Element}
    (single : ¬ IsShared siblings element) (number : Nat) :
    amongSiblings siblings element number = identifying element :=
  if_neg single

/-- An element without siblings shares its segment with none. -/
theorem amongSiblings_singleton (element : Element) (number : Nat) :
    amongSiblings [element] element number = identifying element := by
  apply amongSiblings_of_not_isShared
  have count : [element].countP (identifying element).fits ≤ [element].length :=
    List.countP_le_length
  exact Nat.not_lt.mpr count

theorem role_amongSiblings (siblings : List Element) (element : Element) (number : Nat) :
    (amongSiblings siblings element number).role = element.role := by
  by_cases shared : IsShared siblings element
  · rw [amongSiblings_of_isShared shared]
    exact role_identifying element
  · rw [amongSiblings_of_not_isShared shared]
    exact role_identifying element

theorem predicates_amongSiblings (siblings : List Element) (element : Element) (number : Nat) :
    (amongSiblings siblings element number).predicates = (identifying element).predicates := by
  by_cases shared : IsShared siblings element
  · rw [amongSiblings_of_isShared shared]
    rfl
  · rw [amongSiblings_of_not_isShared shared]

theorem canonical_amongSiblings {siblings : List Element} {element : Element} {number : Nat} :
    ∀ entry ∈ (amongSiblings siblings element number).predicates.entries,
      Attribute.canonicalName? entry.1 = some entry.1 := by
  intro entry member
  rw [predicates_amongSiblings] at member
  obtain ⟨⟨asked, _, named⟩, _⟩ := mem_entries_identifying.mp member
  rw [← named, Attribute.canonicalName?, Attribute.ofName?_name, Option.map_some]

theorem isWellFormed_amongSiblings {siblings : List Element} {element : Element}
    (isRole : IsRole element.role) (few : siblings.length < UInt64.size) (number : Nat) :
    (amongSiblings siblings element number).IsWellFormed := by
  constructor
  · rw [role_amongSiblings]
    exact isRole
  · exact canonical_amongSiblings
  · intro index present
    by_cases shared : IsShared siblings element
    · rw [amongSiblings_of_isShared shared] at present
      cases present
      calc
        (siblings.take number).countP (identifying element).fits ≤ (siblings.take number).length :=
          List.countP_le_length
        _ ≤ siblings.length := List.length_take_le' number siblings
        _ < UInt64.size := few
    · rw [amongSiblings_of_not_isShared shared, Option.mem_def, index_identifying] at present
      contradiction

end Segment

/-- Whether a warning is no more than the remark that siblings have the same role. -/
def Warning.IsPotentialAmbiguity (warning : Warning) : Prop :=
  ∃ segment position similar, warning = .potentialAmbiguity segment position similar

namespace Level

/-! ## The choice of a sibling -/

/-- The candidates with their numbers. -/
def numbered (level : Level) : List (Nat × Element) :=
  level.candidates.zipIdx.map fun (element, number) => (number, element)

theorem fitting_eq_filter_numbered (level : Level) :
    level.fitting = level.numbered.filter (level.segment.fits ∘ Prod.snd) :=
  rfl

theorem map_fst_numbered (level : Level) :
    level.numbered.map Prod.fst = List.range' 0 level.candidates.length := by
  rw [numbered, List.map_map]
  exact List.zipIdx_map_snd 0 level.candidates

theorem map_snd_numbered (level : Level) : level.numbered.map Prod.snd = level.candidates := by
  rw [numbered, List.map_map]
  exact List.zipIdx_map_fst 0 level.candidates

theorem getElem?_numbered {level : Level} {number : Nat} {element : Element}
    (isCandidate : level.candidates[number]? = some element) :
    level.numbered[number]? = some (number, element) := by
  simp [numbered, isCandidate]

theorem length_fitting (level : Level) :
    level.fitting.length = level.candidates.countP level.segment.fits := by
  rw [fitting_eq_filter_numbered, ← List.countP_eq_length_filter, ← List.countP_map,
    map_snd_numbered]

/-- A fitting candidate stands behind those that fit and come before it. -/
theorem getElem?_fitting {level : Level} {number : Nat} {element : Element}
    (isCandidate : level.candidates[number]? = some element)
    (fits : level.segment.fits element = true) :
    level.fitting[(level.candidates.take number).countP level.segment.fits]? =
      some (number, element) := by
  rw [fitting_eq_filter_numbered, ← map_snd_numbered, ← List.map_take, List.countP_map]
  exact Filtering.getElem?_filter_of_getElem? (getElem?_numbered isCandidate) fits

/-- A candidate that fits is the only one if no more fit. -/
theorem fitting_eq_singleton {level : Level} {number : Nat} {element : Element}
    (isCandidate : level.candidates[number]? = some element)
    (fits : level.segment.fits element = true)
    (notMore : level.candidates.countP level.segment.fits ≤ 1) :
    level.fitting = [(number, element)] := by
  have found := getElem?_fitting isCandidate fits
  rw [← length_fitting] at notMore
  cases fitting : level.fitting with
  | nil => simp [fitting] at found
  | cons first others =>
      rw [fitting] at found notMore
      obtain rfl : others = [] := List.length_eq_zero_iff.mp (by simpa using notMore)
      have member := List.mem_of_getElem? found
      rw [List.mem_singleton] at member
      rw [member]

theorem choose_of_index {level : Level} {requested : Nat} {chosen : Nat × Element}
    (hasIndex : level.segment.index = some requested)
    (found : level.fitting[requested]? = some chosen) (limit : Nat) :
    level.choose limit = .ok chosen := by
  unfold choose
  rw [hasIndex]
  cases fitting : level.fitting with
  | nil => simp [fitting] at found
  | cons first others =>
      rw [fitting] at found
      simp only [found]

theorem choose_of_single {level : Level} {chosen : Nat × Element}
    (noIndex : level.segment.index = none) (single : level.fitting = [chosen]) (limit : Nat) :
    level.choose limit = .ok chosen := by
  unfold choose
  rw [noIndex, single]

/-- The level of siblings at which the segment of one of them stands. -/
def ofSibling (position : Nat) (siblings : List Element) (element : Element) (number : Nat) :
    Level :=
  ⟨position, Segment.amongSiblings siblings element number, siblings⟩

variable {siblings : List Element} {element : Element} {number : Nat}

theorem fits_ofSibling (position : Nat) (siblings : List Element) (element : Element)
    (number : Nat) :
    (ofSibling position siblings element number).segment.fits =
      (Segment.identifying element).fits := by
  funext other
  have role := Segment.role_amongSiblings siblings element number
  have predicates := Segment.predicates_amongSiblings siblings element number
  rw [Segment.fits, Segment.fits, ofSibling, role, predicates, Segment.role_identifying]

/-- The segment of a sibling chooses this sibling. -/
theorem choose_ofSibling (isSibling : siblings[number]? = some element) (position limit : Nat) :
    (ofSibling position siblings element number).choose limit = .ok (number, element) := by
  have fits := fits_ofSibling position siblings element number
  have fitsItself :
      (ofSibling position siblings element number).segment.fits element = true := by
    rw [fits]
    exact Segment.fits_identifying element
  have isCandidate :
      (ofSibling position siblings element number).candidates[number]? = some element := isSibling
  by_cases shared : Segment.IsShared siblings element
  · have found := getElem?_fitting isCandidate fitsItself
    rw [fits] at found
    apply choose_of_index _ found
    rw [ofSibling, Segment.amongSiblings_of_isShared shared]
    rfl
  · apply choose_of_single
    · rw [ofSibling, Segment.amongSiblings_of_not_isShared shared, Segment.index_identifying]
    · apply fitting_eq_singleton isCandidate fitsItself
      rw [fits]
      exact Nat.le_of_not_lt shared

theorem not_isSome_text?_of_no_predicates
    (noPredicates : (Segment.identifying element).predicates.isEmpty = true) :
    Attribute.identifying.find? (fun asked => (element.text? asked.name).isSome) = none := by
  rw [List.find?_eq_none]
  intro asked member shown
  obtain ⟨text, shown⟩ := Option.isSome_iff_exists.mp shown
  have entry : (asked.name, text) ∈ (Segment.identifying element).predicates.entries :=
    Segment.mem_entries_identifying.mpr ⟨⟨asked, member, rfl⟩, shown⟩
  rw [List.isEmpty_iff.mp noPredicates] at entry
  contradiction

/-- The attribute of an element that a segment without predicates could ask for. -/
def missing? (level : Level) (chosen : Element) : Option Attribute :=
  if level.segment.predicates.isEmpty then
    Attribute.identifying.find? fun identifying => (chosen.text? identifying.name).isSome
  else
    none

/-- What is advised is to ask for a missing attribute, or to mind the siblings with the same role. -/
theorem mem_advice_cases {level : Level} {chosen : Element} {warning : Warning}
    (member : warning ∈ level.advice chosen) :
    (∃ asked, level.missing? chosen = some asked ∧
        warning = .missingAttribute level.segment level.position asked) ∨
      warning =
        .potentialAmbiguity level.segment level.position (level.similar chosen) := by
  rcases List.mem_append.mp member with aboutAttribute | aboutSiblings
  · rcases Option.map_eq_some_iff.mp (Option.mem_toList.mp aboutAttribute) with
      ⟨asked, isMissing, rfl⟩
    exact Or.inl ⟨asked, isMissing, rfl⟩
  · split at aboutSiblings
    · exact Or.inr (List.mem_singleton.mp aboutSiblings)
    · contradiction

/-- There is nothing to advise on the segment of a sibling but that others have its role. -/
theorem isPotentialAmbiguity_of_mem_warnings {position : Nat} {warning : Warning}
    (member : warning ∈ (ofSibling position siblings element number).warnings element) :
    warning.IsPotentialAmbiguity := by
  unfold warnings at member
  by_cases shared : Segment.IsShared siblings element
  · have several : (ofSibling position siblings element number).fitting.length ≠ 1 := by
      rw [length_fitting, fits_ofSibling]
      exact Nat.ne_of_gt shared
    have index : (ofSibling position siblings element number).segment.index =
        some ((siblings.take number).countP (Segment.identifying element).fits) := by
      rw [ofSibling, Segment.amongSiblings_of_isShared shared]
      rfl
    simp [index, several] at member
  · have segment : (ofSibling position siblings element number).segment =
        Segment.identifying element := Segment.amongSiblings_of_not_isShared shared number
    simp only [segment, Segment.index_identifying] at member
    rcases mem_advice_cases member with ⟨asked, isMissing, _⟩ | rfl
    · rw [missing?, segment] at isMissing
      split at isMissing
      · rename_i noPredicates
        rw [not_isSome_text?_of_no_predicates noPredicates] at isMissing
        contradiction
      · contradiction
    · exact ⟨_, _, _, rfl⟩

end Level

namespace Segment

variable {siblings : List Element} {element other : Element} {number otherNumber : Nat}

/-! ## Siblings are told apart -/

theorem withoutIndex_amongSiblings (siblings : List Element) (element : Element) (number : Nat) :
    (amongSiblings siblings element number).withoutIndex = identifying element := by
  have noIndex : (identifying element).withoutIndex = identifying element := by
    rw [withoutIndex, ← index_identifying element]
  by_cases shared : IsShared siblings element
  · rw [amongSiblings_of_isShared shared]
    exact noIndex
  · rw [amongSiblings_of_not_isShared shared]
    exact noIndex

/-- A segment has an index exactly if it fits several siblings without it. -/
theorem isSome_index_amongSiblings (siblings : List Element) (element : Element) (number : Nat) :
    (amongSiblings siblings element number).index.isSome = true ↔
      1 < siblings.countP (amongSiblings siblings element number).withoutIndex.fits := by
  rw [withoutIndex_amongSiblings]
  by_cases shared : IsShared siblings element
  · rw [amongSiblings_of_isShared shared]
    exact iff_of_true rfl shared
  · rw [amongSiblings_of_not_isShared shared, index_identifying]
    exact iff_of_false Bool.false_ne_true shared

theorem number_eq_of_amongSiblings_eq (isSibling : siblings[number]? = some element)
    (isOther : siblings[otherNumber]? = some other)
    (same : amongSiblings siblings element number = amongSiblings siblings other otherNumber) :
    number = otherNumber := by
  have chosen := Level.choose_ofSibling isSibling 0 0
  have chosenOther := Level.choose_ofSibling isOther 0 0
  rw [Level.ofSibling, same] at chosen
  rw [Level.ofSibling, chosen] at chosenOther
  exact congrArg Prod.fst (Except.ok.inj chosenOther)

@[simp]
theorem length_ofSiblings (siblings : List Element) :
    (ofSiblings siblings).length = siblings.length := by
  simp [ofSiblings]

theorem exists_of_getElem?_ofSiblings {segment : Segment}
    (isSegment : (ofSiblings siblings)[number]? = some segment) :
    ∃ element, siblings[number]? = some element ∧
      amongSiblings siblings element number = segment := by
  rw [getElem?_ofSiblings] at isSegment
  exact Option.map_eq_some_iff.mp isSegment

/-- Siblings that show the same of their identity have different segments, too. -/
theorem nodup_ofSiblings (siblings : List Element) : (ofSiblings siblings).Nodup := by
  apply List.nodup_iff_injective_getElem.mpr
  rintro ⟨number, inside⟩ ⟨otherNumber, otherInside⟩ same
  obtain ⟨element, isSibling, isSegment⟩ :=
    exists_of_getElem?_ofSiblings (List.getElem?_eq_getElem inside)
  obtain ⟨other, isOther, isOtherSegment⟩ :=
    exists_of_getElem?_ofSiblings (List.getElem?_eq_getElem otherInside)
  apply Fin.ext
  exact number_eq_of_amongSiblings_eq isSibling isOther
    (isSegment.trans (same.trans isOtherSegment.symm))

/-- Whatever siblings show of their identity, their segments are different, each one chooses its own
sibling among them, and it has an index only if it fits several siblings without it. -/
theorem ofSiblings_separates (siblings : List Element) :
    (ofSiblings siblings).length = siblings.length ∧
      (ofSiblings siblings).Nodup ∧
      ∀ number segment, (ofSiblings siblings)[number]? = some segment →
        ∃ element, siblings[number]? = some element ∧
          (∀ position limit,
            (Level.mk position segment siblings).choose limit = .ok (number, element)) ∧
          (segment.index.isSome = true ↔ 1 < siblings.countP segment.withoutIndex.fits) := by
  refine ⟨length_ofSiblings siblings, nodup_ofSiblings siblings, ?_⟩
  intro number segment isSegment
  obtain ⟨element, isSibling, rfl⟩ := exists_of_getElem?_ofSiblings isSegment
  exact ⟨element, isSibling, Level.choose_ofSibling isSibling,
    isSome_index_amongSiblings siblings element number⟩

/-- A sibling without a role has a segment that fits all the others. -/
theorem ofSiblings_separates_overlapping_roles :
    let star := Element.ofRole "*"
    let siblings := [star, Element.ofRole "", star]
    let segment : Segment := { role := "*", index := some 1 }
    (ofSiblings siblings)[2]? = some segment ∧
      (∀ position limit, (Level.mk position segment siblings).choose limit = .ok (2, star)) ∧
      1 < siblings.countP segment.withoutIndex.fits := by
  intro star siblings segment
  have isSegment : (ofSiblings siblings)[2]? = some segment := by
    decide
  obtain ⟨element, isSibling, chooses, indexed⟩ :=
    (ofSiblings_separates siblings).2.2 2 segment isSegment
  cases isSibling
  exact ⟨isSegment, chooses, indexed.mp rfl⟩

end Segment

end Accessibility
