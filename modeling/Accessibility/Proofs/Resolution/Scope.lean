import Accessibility.Proofs.Element.Normal
import Accessibility.Proofs.Resolution.Application

/-!
# Applications by name

A snapshot is narrowed down to an application by its title or its identifier, and a path addresses
an application by the same texts.  A path finds them wherever they are stored, the scope only in the
fields of their own.  Both find the same application exactly if the first one that a path addresses
has the name in such a field.
-/

namespace Accessibility

/-- The segment that asks for an application with a text of an attribute. -/
def Segment.ofApplication (asked : Attribute) (name : String) : Segment :=
  ({ role := Element.applicationRole } : Segment).withPredicate asked.name name

namespace Element

variable {root element : Element} {name : String}

/-- The attributes by which an application is known. -/
def naming : List Attribute :=
  [.title, .identifier]

/-- Whether a path addresses the element as the application with this title or identifier. -/
def isAddressedAs (name : String) (element : Element) : Bool :=
  naming.any fun asked => (Segment.ofApplication asked name).fits element

/-- The elements among which an application is looked for: the root and, in a tree of the screen,
its children. -/
def applicationCandidates (root : Element) : List Element :=
  root :: if root.isSystemWide then root.children else []

/-- The first element that a path addresses as the application with this title or identifier. -/
def addressed? (name : String) (root : Element) : Option Element :=
  root.applicationCandidates.find? (isAddressedAs name)

/-- The application that a snapshot is narrowed down to is the first one that has the name. -/
theorem select?_application_eq (name : String) (root : Element) :
    root.select? (.application name) = root.applicationCandidates.find? (isApplication name) := by
  rw [select?, application?, applicationCandidates, List.find?_cons]
  cases root.isApplication name <;> cases root.isSystemWide <;> rfl

theorem fits_ofApplication (asked : Attribute) (name : String) (element : Element) :
    (Segment.ofApplication asked name).fits element =
      (decide (element.role = applicationRole) &&
        decide (element.text? asked.name = some name)) := by
  have isNamed : applicationRole.isEmpty = false := by decide
  rw [Segment.ofApplication, Segment.fits_withPredicate rfl, Segment.fits, isNamed,
    Dictionary.entries_emptyCollection, List.all_nil, Bool.false_or, Bool.and_true]

theorem isAddressedAs_iff :
    element.isAddressedAs name = true ↔
      element.role = applicationRole ∧
        ∃ asked ∈ naming, element.text? asked.name = some name := by
  simp only [isAddressedAs, List.any_eq_true, fits_ofApplication, Bool.and_eq_true,
    decide_eq_true_eq]
  constructor
  · rintro ⟨asked, isNaming, isRole, shown⟩
    exact ⟨isRole, asked, isNaming, shown⟩
  · rintro ⟨isRole, asked, isNaming, shown⟩
    exact ⟨asked, isNaming, isRole, shown⟩

theorem isApplication_iff :
    element.isApplication name = true ↔
      element.role = applicationRole ∧
        ∃ asked ∈ naming, element.properties.field? asked.name = some name := by
  have fields : (∃ asked ∈ naming, element.properties.field? asked.name = some name) ↔
      element.properties.title = some name ∨ element.properties.identifier = some name := by
    simp [naming, Properties.field?, Attribute.name]
  rw [isApplication, Bool.and_eq_true, Bool.or_eq_true, decide_eq_true_eq, decide_eq_true_eq,
    decide_eq_true_eq, fields]

/-- An application that has a name in a field of its own is addressed by this name. -/
theorem isAddressedAs_of_isApplication (hasName : element.isApplication name = true) :
    element.isAddressedAs name = true := by
  obtain ⟨isRole, asked, isNaming, isField⟩ := isApplication_iff.mp hasName
  refine isAddressedAs_iff.mpr ⟨isRole, asked, isNaming, ?_⟩
  rw [text?, Properties.text?_eq, isField, Option.some_or]

/-- A search that asks for more finds the same if the first find has what more it asks for. -/
theorem find?_eq_find?_iff {α : Type} {narrow wide : α → Bool}
    (narrower : ∀ item, narrow item = true → wide item = true) {items : List α} :
    items.find? narrow = items.find? wide ↔
      ∀ item, items.find? wide = some item → narrow item = true := by
  constructor
  · intro same item found
    rw [← same] at found
    exact List.find?_some found
  · intro first
    cases found : items.find? wide with
    | none =>
        rw [List.find?_eq_none] at found ⊢
        exact fun item member holds => found item member (narrower item holds)
    | some item =>
        have holds := first item found
        rw [List.find?_eq_some_iff_append] at found ⊢
        obtain ⟨_, before, after, split, others⟩ := found
        refine ⟨holds, before, after, split, fun other isBefore => ?_⟩
        rw [Bool.not_eq_true', Bool.eq_false_iff]
        intro holdsEarlier
        simpa [narrower other holdsEarlier] using others other isBefore

/-- A snapshot is narrowed down to the first application that a path addresses by a name, unless
this one has the name in no field of its own.  In any case what it is narrowed down to is addressed
by the name. -/
theorem select?_application_eq_addressed?_iff (name : String) (root : Element) :
    (root.select? (.application name) = root.addressed? name ↔
      ∀ element, root.addressed? name = some element →
        ∃ asked ∈ naming, element.properties.field? asked.name = some name) ∧
      ∀ found, root.select? (.application name) = some found →
        found ∈ root.applicationCandidates ∧ found.isAddressedAs name = true := by
  rw [select?_application_eq, addressed?,
    find?_eq_find?_iff fun _ => isAddressedAs_of_isApplication]
  constructor
  · apply forall₂_congr
    intro element found
    have isRole := (isAddressedAs_iff.mp (List.find?_some found)).1
    rw [isApplication_iff, and_iff_right isRole]
  · intro found isFound
    exact ⟨List.mem_of_find?_eq_some isFound,
      isAddressedAs_of_isApplication (List.find?_some isFound)⟩

/-- A snapshot is not always narrowed down to an application that a path addresses by its title. -/
theorem not_forall_select?_application_eq_addressed? :
    ¬∀ (name : String) (root : Element),
      root.select? (.application name) = root.addressed? name := by
  intro always
  let application : Element :=
    { properties :=
        { role := "AXApplication", attributes := Dictionary.ofList [("AXTitle", .text "Mail")] } }
  let root : Element := { properties := { role := "AXSystemWide" }, children := [application] }
  have addressed : root.addressed? "Mail" = some application := rfl
  have missed : root.select? (.application "Mail") = none := rfl
  have same := always "Mail" root
  rw [addressed, missed] at same
  contradiction

end Element

end Accessibility
