import Accessibility.Proofs.Element.NormalForm
import Accessibility.Proofs.Path.Spelling
import Accessibility.Proofs.Resolution.Repairs

/-!
# Spellings of attributes

A tree may store an attribute under any of its names, and a path may ask for it by any other.  Both
are folded onto the canonical name, so that a predicate fits an element exactly if its value is the
text of what the element has stored, whatever the two names are.
-/

namespace Accessibility

namespace Attribute

/-- Every name of an attribute is a name of this attribute only. -/
theorem canonicalName?_of_isCalled {known : Attribute} {spelling : String}
    (called : known.isCalled spelling = true) : canonicalName? spelling = some known.name := by
  have all : ∀ known ∈ all, ∀ spelling ∈ known.name :: known.aliases,
      canonicalName? spelling = some known.name := by
    decide
  apply all known (mem_all known)
  rwa [isCalled, Bool.or_eq_true, decide_eq_true_eq, List.contains_iff_mem, ← List.mem_cons]
    at called

end Attribute

/-- Whether an element stores a value for an attribute under a name and nowhere else. -/
structure Properties.StoresOnly (properties : Properties) (known : Attribute) (spelling : String)
    (value : Scalar) : Prop where
  called : known.isCalled spelling = true
  isBound : properties.attributes.get? spelling = some value
  alone : ∀ other, known.isCalled other = true → other ≠ spelling →
    properties.attributes.get? other = none
  noField : properties.field? known.name = none

/-- With canonical names, the attribute has the text of the value. -/
theorem Properties.text?_normalized_of_storesOnly {properties : Properties} {known : Attribute}
    {spelling : String} {value : Scalar}
    (stores : properties.StoresOnly known spelling value) :
    properties.normalized.text? known.name = some value.asText := by
  have folded : (foldNames properties.attributes).get? known.name = some value := by
    rw [get?_foldNames_eq_some_iff]
    refine ⟨spelling, stores.isBound, ?_, ?_⟩
    · exact Attribute.canonicalName_of_canonicalName?
        (Attribute.canonicalName?_of_isCalled stores.called)
    · intro other isName isCanonical before
      rcases Dictionary.mem_names_iff.mp isName with ⟨another, isBound⟩
      have called := Attribute.isCalled_of_canonicalName isCanonical
      have isOther : other ≠ spelling := by
        rintro rfl
        exact String.lt_irrefl _ before
      rw [stores.alone other called isOther] at isBound
      contradiction
  rw [text?_normalized, stores.noField, normalized, folded]
  rfl

namespace Segment

variable {known : Attribute} {spelling : String}

theorem withPredicate_of_isCalled (called : known.isCalled spelling = true) (text : String)
    (segment : Segment) :
    segment.withPredicate spelling text = segment.withPredicate known.name text := by
  have canonical := Attribute.canonicalName_of_canonicalName?
    (Attribute.canonicalName?_of_isCalled called)
  rw [withPredicate, withPredicate, canonical, Attribute.canonicalName_name]

/-- The predicate on an attribute under one of its names is read as the segment that is built with
this name. -/
theorem parse_predicateChars (called : known.isCalled spelling = true) (text : String) :
    parse (String.ofList (predicateChars spelling text)) =
      .ok (({} : Segment).withPredicate spelling text) := by
  have isKnown := Attribute.canonicalName?_of_isCalled called
  have asked : (({} : Segment).withPredicate spelling text).predicates.entries.Perm
      [(known.name, text)] := by
    rw [withPredicate_of_isCalled called, withPredicate, Attribute.canonicalName_name]
    exact Dictionary.entries_insert_perm text rfl
  have spelled : Spells ([] ++ ([predicateChars spelling text].flatten ++ []))
      (({} : Segment).withPredicate spelling text) :=
    .intro .absent (.cons (spellsPredicate_predicateChars text isKnown) .nil)
      (List.nodup_singleton _) asked .absent (Or.inr (List.cons_ne_nil _ _))
  rw [parse_eq_ok_iff, String.toList_ofList]
  simpa using spelled

/-- An element fits this segment exactly if it has the text. -/
theorem fits_withPredicate_of_isCalled (called : known.isCalled spelling = true) (text : String)
    (element : Element) :
    (({} : Segment).withPredicate spelling text).fits element = true ↔
      element.text? known.name = some text := by
  have fitsAll : ({} : Segment).fits element = true := rfl
  rw [withPredicate_of_isCalled called, fits_withPredicate rfl, fitsAll, Bool.true_and,
    decide_eq_true_iff]

end Segment

namespace Element

/-- What an element stores under one name of an attribute is found under every other one.  After the
tree is brought into its normal form, the predicate with this name fits the element exactly if it
asks for the text of the value. -/
theorem fits_normalized_of_storesOnly {root element : Element} {position : Position}
    {known : Attribute} {spelling other : String} {value : Scalar}
    (isAt : root.at? position = some element)
    (stores : element.properties.StoresOnly known spelling value)
    (called : known.isCalled other = true) (text : String) :
    ∃ normal segment, root.normalized.at? position = some normal ∧
      Segment.parse (String.ofList (Segment.predicateChars other text)) = .ok segment ∧
      (segment.fits normal = true ↔ text = value.asText) := by
  refine ⟨element.mapProperties Properties.normalized, _, ?_,
    Segment.parse_predicateChars called text, ?_⟩
  · rw [normalized, at?_mapProperties, isAt, Option.map_some]
  · rw [Segment.fits_withPredicate_of_isCalled called, text?, properties_mapProperties,
      Properties.text?_normalized_of_storesOnly stores, Option.some.injEq, eq_comm]

/-- Any spelling in a tree meets any spelling in a path.  What an element stores under one name of
an attribute is found under every other one, and texts that differ only in the order and spelling of
predicates are read as the same path, or both refused. -/
theorem any_spelling_meets_any :
    (∀ (root element : Element) (position : Position) (known : Attribute)
        (spelling other : String) (value : Scalar) (text : String),
      root.at? position = some element → element.properties.StoresOnly known spelling value →
      known.isCalled other = true →
        ∃ normal segment, root.normalized.at? position = some normal ∧
          Segment.parse (String.ofList (Segment.predicateChars other text)) = .ok segment ∧
          (segment.fits normal = true ↔ text = value.asText)) ∧
      ∀ text other, Relation.ReflTransGen Path.Respells text other →
        (Path.parse text).toOption = (Path.parse other).toOption := by
  constructor
  · intro root element position known spelling other value text isAt stores called
    exact fits_normalized_of_storesOnly isAt stores called text
  · intro text other respelled
    exact Path.parse_respelled respelled

/-- A value that is stored under an alias is found under the canonical name, and predicates in
another order are read as the same path. -/
theorem any_spelling_meets_any_alias :
    let root : Element :=
      { properties :=
          { role := "AXCheckBox"
            attributes := Dictionary.ofList [("enabled", .boolean true)] } }
    root.at? [] = some root ∧ root.properties.StoresOnly .enabled "enabled" (.boolean true) ∧
      (∃ normal segment, root.normalized.at? [] = some normal ∧
        Segment.parse "[@AXEnabled=\"true\"]" = .ok segment ∧ segment.fits normal = true) ∧
      Relation.ReflTransGen Path.Respells "macos://ui/*[@title=\"a\"][@id=\"b\"]#1"
        "macos://ui/*[@AXIdentifier=\"b\"][@AXTitle=\"\\a\"]#1" ∧
      (Path.parse "macos://ui/*[@title=\"a\"][@id=\"b\"]#1").toOption =
        (Path.parse "macos://ui/*[@AXIdentifier=\"b\"][@AXTitle=\"\\a\"]#1").toOption := by
  intro root
  have stores : root.properties.StoresOnly .enabled "enabled" (.boolean true) := by
    constructor
    · decide
    · rfl
    · intro other _ isOther
      exact (Dictionary.get?_insert "enabled" other _ ∅).trans (if_neg isOther)
    · rfl
  have respells : Path.Respells "macos://ui/*[@title=\"a\"][@id=\"b\"]#1"
      "macos://ui/*[@AXIdentifier=\"b\"][@AXTitle=\"\\a\"]#1" := by
    have respell : Segment.RawPredicate.Respell
        [⟨"title".toList, ['a']⟩, ⟨"id".toList, ['b']⟩]
        [⟨"AXIdentifier".toList, ['b']⟩, ⟨"AXTitle".toList, ['\\', 'a']⟩] := by
      refine ⟨?_, ?_, by decide⟩
      · simp only [List.forall_mem_cons]
        exact ⟨⟨by decide, _, .plain (by decide) (by decide) .nil⟩,
          ⟨by decide, _, .plain (by decide) (by decide) .nil⟩, List.forall_mem_nil _⟩
      · simp only [List.forall_mem_cons]
        exact ⟨⟨by decide, _, .plain (by decide) (by decide) .nil⟩,
          ⟨by decide, _, .escaped (by decide) .nil⟩, List.forall_mem_nil _⟩
    exact @Path.Respells.intro "macos://ui/*".toList ['#', '1'] _ _ rfl respell
  have meets := any_spelling_meets_any
  refine ⟨rfl, stores, ?_, .single respells, meets.2 _ _ (.single respells)⟩
  rcases meets.1 root root [] .enabled "enabled" "AXEnabled" (.boolean true) "true" rfl stores
    (by decide) with ⟨normal, segment, isAt, read, fits⟩
  exact ⟨normal, segment, isAt, read, fits.mpr rfl⟩

end Element

end Accessibility
