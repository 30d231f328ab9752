import Accessibility.Proofs.Dictionary
import Accessibility.Proofs.Element.Sight

/-!
# Canonical attribute names

In canonical form an attribute keeps the first of its values, in the order of the names under which
they were stored.  A canonical name comes before the other names of its attribute, so that its own
value is kept.  There is one exception: the identifier has a name that comes before the canonical
one.
-/

namespace Accessibility

namespace Attribute

/-- The name of the identifier that comes before the canonical one. -/
def domIdentifier : String :=
  "AXDOMIdentifier"

theorem name_injective : Function.Injective name := by
  have all : ∀ one ∈ all, ∀ other ∈ all, one.name = other.name → one = other := by decide
  intro one other
  exact all one (mem_all one) other (mem_all other)

theorem canonicalName_domIdentifier : canonicalName domIdentifier = identifier.name := by
  decide

/-- A name whose canonical form is that of an attribute is a name of the attribute. -/
theorem isCalled_of_canonicalName {known : Attribute} {spelling : String}
    (isCanonical : canonicalName spelling = known.name) : known.isCalled spelling = true := by
  unfold canonicalName canonicalName? at isCanonical
  cases found : ofName? spelling with
  | none =>
      rw [found] at isCanonical
      have isName : spelling = known.name := isCanonical
      simp [isCalled, isName]
  | some owner =>
      rw [found] at isCanonical
      rw [← name_injective isCanonical]
      exact List.find?_some (p := (isCalled · spelling)) found

/-- No other name of an attribute comes before the canonical one, except for the identifier. -/
theorem eq_domIdentifier_of_lt {known : Attribute} {spelling : String}
    (isCanonical : canonicalName spelling = known.name) (before : spelling < known.name) :
    known = identifier ∧ spelling = domIdentifier := by
  have aliases : ∀ known ∈ all, ∀ other ∈ known.aliases, other < known.name →
      known = identifier ∧ other = domIdentifier := by
    decide
  have called := isCalled_of_canonicalName isCanonical
  rw [isCalled, Bool.or_eq_true, decide_eq_true_eq, List.contains_iff_mem] at called
  rcases called with isName | isAlias
  · rw [isName] at before
    exact absurd before (String.lt_irrefl _)
  · exact aliases known (mem_all known) spelling isAlias before

/-- No name of the identifier comes before the one that comes before the canonical one. -/
theorem domIdentifier_le {spelling : String}
    (isCanonical : canonicalName spelling = identifier.name) : ¬spelling < domIdentifier := by
  intro before
  have first : domIdentifier < identifier.name := by decide
  have same := eq_domIdentifier_of_lt isCanonical (String.lt_trans before first)
  rw [same.2] at before
  exact String.lt_irrefl _ before

end Attribute

namespace Properties

variable {properties : Properties} {known : Attribute} {value : Scalar}

/-- A canonical name leads to the first value of its attribute. -/
theorem get?_foldNames (attributes : Dictionary Scalar) (name : String) :
    (foldNames attributes).get? name =
      (attributes.entries.find? fun entry => Attribute.canonicalName entry.1 = name).map
        Prod.snd := by
  have folded (entries : List (String × Scalar)) (start : Dictionary Scalar) :
      (entries.foldl (fun folded entry =>
          folded.insertIfNew (Attribute.canonicalName entry.1) entry.2) start).get? name =
        (start.get? name).or ((entries.find? fun entry =>
          Attribute.canonicalName entry.1 = name).map Prod.snd) := by
    induction entries generalizing start with
    | nil => simp
    | cons entry rest ih =>
        rw [List.foldl_cons, ih, Dictionary.get?_insertIfNew, Option.or_assoc, List.find?_cons]
        by_cases same : Attribute.canonicalName entry.1 = name
        · simp [same]
        · simp [same, Ne.symm same]
  exact folded attributes.entries ∅

/-- A value under a canonical name stays, unless there is one under a name that comes before. -/
theorem get?_normalized (isBound : properties.attributes.get? known.name = some value)
    (notShadowed : known = .identifier →
      properties.attributes.get? Attribute.domIdentifier = none) :
    properties.normalized.attributes.get? known.name = some value := by
  have first := Dictionary.find?_eq_some_of_least
    (fun name => Attribute.canonicalName name = known.name)
    (Dictionary.get?_eq_some_iff.mp isBound) (Attribute.canonicalName_name known) (by
      rintro ⟨name, other⟩ isEntry isCanonical before
      rcases Attribute.eq_domIdentifier_of_lt isCanonical before with ⟨isIdentifier, rfl⟩
      rw [← Dictionary.get?_eq_some_iff, notShadowed isIdentifier] at isEntry
      contradiction)
  rw [normalized, get?_foldNames, first]
  rfl

/-- The other value of the identifier takes the place of the one under the canonical name. -/
theorem get?_normalized_identifier
    (isBound : properties.attributes.get? Attribute.domIdentifier = some value) :
    properties.normalized.attributes.get? Attribute.identifier.name = some value := by
  have first := Dictionary.find?_eq_some_of_least
    (fun name => Attribute.canonicalName name = Attribute.identifier.name)
    (Dictionary.get?_eq_some_iff.mp isBound) Attribute.canonicalName_domIdentifier
    (fun other _ isCanonical => Attribute.domIdentifier_le isCanonical)
  rw [normalized, get?_foldNames, first]
  rfl

theorem text?_eq (properties : Properties) (name : String) :
    properties.text? name =
      (properties.field? name).or ((properties.attributes.get? name).map Scalar.asText) := by
  unfold text?
  cases properties.field? name <;> rfl

/-- Canonical names change nothing about a text but what the attribute map says. -/
theorem text?_normalized (properties : Properties) (name : String) :
    properties.normalized.text? name =
      (properties.field? name).or
        ((properties.normalized.attributes.get? name).map Scalar.asText) :=
  properties.normalized.text?_eq name

end Properties

namespace Element

variable {root element : Element} {position : Position}

/-! ## Trees with changed properties -/

theorem mapPropertiesAll_eq_map (change : Properties → Properties) (elements : List Element) :
    mapPropertiesAll change elements = elements.map (mapProperties change) := by
  induction elements with
  | nil => rfl
  | cons element rest ih => rw [mapPropertiesAll, ih, List.map_cons]

@[simp]
theorem properties_mapProperties (change : Properties → Properties) (element : Element) :
    (element.mapProperties change).properties = change element.properties := by
  cases element
  rfl

@[simp]
theorem children_mapProperties (change : Properties → Properties) (element : Element) :
    (element.mapProperties change).children = element.children.map (mapProperties change) := by
  rw [← mapPropertiesAll_eq_map]
  cases element
  rfl

/-- A change of properties leaves every element at its position. -/
theorem at?_mapProperties (change : Properties → Properties) (element : Element)
    (position : Position) :
    (element.mapProperties change).at? position =
      (element.at? position).map (mapProperties change) := by
  induction position generalizing element with
  | nil => rfl
  | cons number rest ih =>
      rw [at?, at?, children_mapProperties, List.getElem?_map]
      cases element.children[number]? with
      | none => rfl
      | some child => exact ih child

/-! ## Predicates on canonical names -/

/-- A value that is stored under the canonical name of its attribute stays there, and predicates on
the attribute see what they saw before.  The exception is the identifier, whose value is replaced if
there is one under the name that comes before the canonical one. -/
theorem at?_normalized_of_canonical {name : String} {value : Scalar}
    (isCanonical : Attribute.canonicalName? name = some name)
    (isAt : root.at? position = some element)
    (isBound : element.properties.attributes.get? name = some value) :
    ∃ normal, root.normalized.at? position = some normal ∧
      ((name = Attribute.identifier.name →
            element.properties.attributes.get? Attribute.domIdentifier = none) ∧
          normal.properties.attributes.get? name = some value ∧
          normal.text? name = element.text? name ∧
          (∀ segment : Segment, (∀ predicate ∈ segment.predicates.entries, predicate.1 = name) →
            segment.fits normal = segment.fits element) ∨
        name = Attribute.identifier.name ∧
          ∃ other, element.properties.attributes.get? Attribute.domIdentifier = some other ∧
            normal.properties.attributes.get? name = some other ∧
            normal.text? name =
              some (element.properties.identifier.getD other.asText)) := by
  rcases Option.map_eq_some_iff.mp isCanonical with ⟨known, _, rfl⟩
  have properties : (element.mapProperties Properties.normalized).properties =
      element.properties.normalized := properties_mapProperties _ element
  refine ⟨element.mapProperties Properties.normalized, ?_, ?_⟩
  · rw [Element.normalized, at?_mapProperties, isAt, Option.map_some]
  rw [properties]
  by_cases shadowed : known = .identifier ∧
      (element.properties.attributes.get? Attribute.domIdentifier).isSome = true
  · right
    rcases shadowed with ⟨rfl, isShadowed⟩
    rcases Option.isSome_iff_exists.mp isShadowed with ⟨other, isOther⟩
    have kept := Properties.get?_normalized_identifier isOther
    refine ⟨rfl, other, isOther, kept, ?_⟩
    rw [text?, properties, Properties.text?_normalized, kept]
    change element.properties.identifier.or (some other.asText) = _
    rw [Option.or_some]
  · left
    have notShadowed (isIdentifier : known = .identifier) :
        element.properties.attributes.get? Attribute.domIdentifier = none := by
      simpa [isIdentifier] using shadowed
    have kept := Properties.get?_normalized isBound notShadowed
    have sameText : (element.mapProperties Properties.normalized).text? known.name =
        element.text? known.name := by
      rw [text?, text?, properties, Properties.text?_normalized, Properties.text?_eq, kept, isBound]
    refine ⟨fun same => notShadowed (Attribute.name_injective same), kept, sameText, ?_⟩
    intro segment asksOnly
    apply fits_eq_of_text?_eq
    · rw [role, properties]
      rfl
    · intro predicate isPredicate
      rw [asksOnly predicate isPredicate]
      exact sameText

theorem at?_normalized_of_canonical_title :
    let child : Element :=
      { properties :=
          { role := "AXButton"
            attributes := Dictionary.ofList [("title", .text "b"), ("AXTitle", .text "a")] } }
    let root : Element := { properties := { role := "AXWindow" }, children := [child] }
    Attribute.canonicalName? "AXTitle" = some "AXTitle" ∧ root.at? [0] = some child ∧
      child.properties.attributes.get? "AXTitle" = some (.text "a") ∧
      ∃ normal, root.normalized.at? [0] = some normal ∧ normal.text? "AXTitle" = some "a" := by
  intro child root
  have isCanonical : Attribute.canonicalName? "AXTitle" = some "AXTitle" := by decide
  have isAt : root.at? [0] = some child := rfl
  have isBound : child.properties.attributes.get? "AXTitle" = some (.text "a") := by rfl
  refine ⟨isCanonical, isAt, isBound, ?_⟩
  rcases at?_normalized_of_canonical isCanonical isAt isBound with
    ⟨normal, isNormal, ⟨_, _, sameText, _⟩ | ⟨isIdentifier, _⟩⟩
  · exact ⟨normal, isNormal, sameText⟩
  · exact absurd isIdentifier (by decide)

/-- A value that is stored under the canonical name of its attribute does not always stay there. -/
theorem not_forall_at?_normalized_of_canonical :
    ¬∀ (root element : Element) (position : Position) (name : String) (value : Scalar),
      Attribute.canonicalName? name = some name → root.at? position = some element →
      element.properties.attributes.get? name = some value →
      ∃ normal, root.normalized.at? position = some normal ∧
        normal.properties.attributes.get? name = some value := by
  intro always
  let root : Element :=
    { properties :=
        { role := "AXButton"
          attributes := Dictionary.ofList
            [("AXDOMIdentifier", .text "dom"), ("AXIdentifier", .text "real")] } }
  rcases always root root [] "AXIdentifier" (.text "real") (by decide) rfl rfl with
    ⟨normal, isNormal, kept⟩
  cases isNormal
  have shadowing : root.normalized.properties.attributes.get? "AXIdentifier" =
      some (.text "dom") := rfl
  rw [shadowing] at kept
  simp at kept

end Element

end Accessibility
