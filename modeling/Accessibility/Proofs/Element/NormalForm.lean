import Accessibility.Proofs.Element.Normal

/-!
# Normal forms

With canonical attribute names a tree shows no alias any more.  Every attribute that was stored
under some name keeps one of its values, none is added, and nothing else about an element changes.
A tree in this form stays as it is.
-/

namespace Accessibility

namespace Attribute

variable {spelling canonical : String}

/-- Whether a name is an alias: a known attribute goes by it and has another canonical name. -/
def IsAlias (spelling : String) : Prop :=
  ∃ canonical, canonicalName? spelling = some canonical ∧ canonical ≠ spelling

theorem canonicalName_of_canonicalName? (known : canonicalName? spelling = some canonical) :
    canonicalName spelling = canonical := by
  rw [canonicalName, known, Option.getD_some]

/-- Exactly the aliases are not their own canonical form. -/
theorem isAlias_iff : IsAlias spelling ↔ canonicalName spelling ≠ spelling := by
  cases found : canonicalName? spelling with
  | none => simp [IsAlias, canonicalName, found]
  | some canonical => simp [IsAlias, canonicalName, found]

@[simp]
theorem canonicalName_canonicalName (spelling : String) :
    canonicalName (canonicalName spelling) = canonicalName spelling := by
  cases found : canonicalName? spelling with
  | none =>
      have ownName : canonicalName spelling = spelling := by
        rw [canonicalName, found, Option.getD_none]
      rw [ownName, ownName]
  | some canonical =>
      rcases Option.map_eq_some_iff.mp found with ⟨known, _, rfl⟩
      rw [canonicalName_of_canonicalName? found, canonicalName_name]

end Attribute

namespace Properties

/-! ## Attribute maps with canonical names -/

variable {attributes : Dictionary Scalar} {name : String} {value : Scalar}

/-- With canonical names an attribute has the value under the first of its names. -/
theorem get?_foldNames_eq_some_iff :
    (foldNames attributes).get? name = some value ↔
      ∃ source, attributes.get? source = some value ∧ Attribute.canonicalName source = name ∧
        ∀ other ∈ attributes.names, Attribute.canonicalName other = name → ¬other < source := by
  rw [get?_foldNames, Option.map_eq_some_iff]
  constructor
  · rintro ⟨⟨source, found⟩, first, rfl⟩
    have isCanonical : Attribute.canonicalName source = name := by
      simpa using List.find?_some first
    refine ⟨source, Dictionary.get?_eq_some_iff.mpr (List.mem_of_find?_eq_some first),
      isCanonical, ?_⟩
    intro other isName
    rcases Dictionary.mem_names_iff.mp isName with ⟨another, isBound⟩
    have isEntry := Dictionary.get?_eq_some_iff.mp isBound
    exact Dictionary.not_lt_of_find?_eq_some
      (fun spelling => Attribute.canonicalName spelling = name) first (other, another) isEntry
  · rintro ⟨source, isBound, isCanonical, least⟩
    refine ⟨(source, value), ?_, rfl⟩
    apply Dictionary.find?_eq_some_of_least
      (fun spelling => Attribute.canonicalName spelling = name)
      (Dictionary.get?_eq_some_iff.mp isBound) isCanonical
    rintro ⟨other, another⟩ isEntry
    have isBound := Dictionary.get?_eq_some_iff.mpr isEntry
    exact least other (Dictionary.mem_names_iff.mpr ⟨another, isBound⟩)

/-- The canonical names of an attribute map are the canonical forms of its names. -/
theorem mem_names_foldNames_iff :
    name ∈ (foldNames attributes).names ↔
      ∃ original ∈ attributes.names, Attribute.canonicalName original = name := by
  rw [Dictionary.mem_names_iff, get?_foldNames, ← Option.isSome_iff_exists, Option.isSome_map,
    List.find?_isSome]
  simp [Dictionary.names]

/-- An attribute map in which all names are canonical stays as it is. -/
theorem foldNames_of_canonical
    (canonical : ∀ name ∈ attributes.names, Attribute.canonicalName name = name) :
    foldNames attributes = attributes := by
  apply Dictionary.eq_of_get?_eq
  intro name
  ext value
  rw [get?_foldNames_eq_some_iff]
  constructor
  · rintro ⟨source, isBound, rfl, _⟩
    rwa [canonical source (Dictionary.mem_names_iff.mpr ⟨value, isBound⟩)]
  · intro isBound
    refine ⟨name, isBound, canonical name (Dictionary.mem_names_iff.mpr ⟨value, isBound⟩), ?_⟩
    intro other isName isCanonical
    rw [← canonical other isName, isCanonical]
    exact String.lt_irrefl name

theorem canonicalName_of_mem_names_foldNames (isName : name ∈ (foldNames attributes).names) :
    Attribute.canonicalName name = name := by
  rcases mem_names_foldNames_iff.mp isName with ⟨original, _, rfl⟩
  exact Attribute.canonicalName_canonicalName original

@[simp]
theorem normalized_normalized (properties : Properties) :
    properties.normalized.normalized = properties.normalized := by
  simp only [normalized]
  rw [foldNames_of_canonical fun _ => canonicalName_of_mem_names_foldNames]

end Properties

namespace Element

/-! ## Trees with canonical names -/

theorem mapProperties_eq (change : Properties → Properties) (element : Element) :
    element.mapProperties change =
      ⟨element.path, element.parentPath, change element.properties,
        element.children.map (mapProperties change)⟩ := by
  rw [← mapPropertiesAll_eq_map]
  cases element
  rfl

/-- Two changes of properties are one. -/
theorem mapProperties_mapProperties (change later : Properties → Properties) (element : Element) :
    (element.mapProperties change).mapProperties later =
      element.mapProperties (later ∘ change) := by
  induction element using induction with
  | step element ih =>
      have below : (element.children.map (mapProperties change)).map (mapProperties later) =
          element.children.map (mapProperties (later ∘ change)) := by
        rw [List.map_map]
        exact List.map_congr_left ih
      rw [mapProperties_eq change, mapProperties_eq later, mapProperties_eq (later ∘ change), below]
      rfl

/-- Whether an element is another one with canonical attribute names. -/
structure IsNormalFormOf (normal element : Element) : Prop where
  /-- No alias is left. -/
  noAlias : ∀ name ∈ normal.properties.attributes.names, ¬Attribute.IsAlias name
  /-- Every attribute keeps the value under the first of its names. -/
  kept : ∀ name ∈ element.properties.attributes.names, ∃ source value,
    Attribute.canonicalName source = Attribute.canonicalName name ∧
      element.properties.attributes.get? source = some value ∧
      normal.properties.attributes.get? (Attribute.canonicalName name) = some value ∧
      ∀ other ∈ element.properties.attributes.names,
        Attribute.canonicalName other = Attribute.canonicalName name → ¬other < source
  /-- No attribute is added. -/
  noOther : ∀ name ∈ normal.properties.attributes.names,
    ∃ original ∈ element.properties.attributes.names, Attribute.canonicalName original = name
  /-- Nothing else that the element shows changes. -/
  properties :
    normal.properties = { element.properties with attributes := normal.properties.attributes }
  path : normal.path = element.path
  parentPath : normal.parentPath = element.parentPath
  children : normal.children.length = element.children.length

theorem isNormalFormOf_mapProperties (element : Element) :
    (element.mapProperties Properties.normalized).IsNormalFormOf element := by
  rw [mapProperties_eq]
  constructor
  case noAlias =>
    intro name isName
    rw [Attribute.isAlias_iff, not_not]
    exact Properties.canonicalName_of_mem_names_foldNames isName
  case kept =>
    intro name isName
    have isKept := Properties.mem_names_foldNames_iff.mpr ⟨name, isName, rfl⟩
    rcases Dictionary.mem_names_iff.mp isKept with ⟨value, found⟩
    rcases Properties.get?_foldNames_eq_some_iff.mp found with
      ⟨source, isBound, isCanonical, least⟩
    exact ⟨source, value, isCanonical, isBound, found, least⟩
  case noOther => exact fun name isName => Properties.mem_names_foldNames_iff.mp isName
  case children => exact List.length_map _
  all_goals rfl

/-- The tree with canonical names has at every position the element that was there, with canonical
names: each attribute keeps one of its values, and nothing else changes.  Canonical names stay. -/
theorem normalized_lossless (root : Element) :
    (∀ position : Position,
      Option.Rel IsNormalFormOf (root.normalized.at? position) (root.at? position)) ∧
      root.normalized.normalized = root.normalized := by
  constructor
  · intro position
    rw [normalized, at?_mapProperties]
    cases root.at? position with
    | none => exact Option.Rel.none
    | some element => exact Option.Rel.some (isNormalFormOf_mapProperties element)
  · have sameChange : Properties.normalized ∘ Properties.normalized = Properties.normalized :=
      funext Properties.normalized_normalized
    rw [normalized, normalized, mapProperties_mapProperties, sameChange]

end Element

end Accessibility
