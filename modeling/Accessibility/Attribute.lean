/-!
# Accessibility attributes

The attributes an element may be addressed by, their canonical names and the other names that
are accepted for them.  Names are folded onto the canonical one when a path is read and when a
snapshot is taken, so that matching afterwards compares plain names.
-/

namespace Accessibility

/-- A known attribute. -/
inductive Attribute where
  | title
  | value
  | description
  | identifier
  | help
  | roleDescription
  | subrole
  | placeholder
  | label
  | url
  | enabled
  | focused
  | selected
  deriving DecidableEq, Repr

namespace Attribute

/-- The known attributes. -/
def all : List Attribute :=
  [.title, .value, .description, .identifier, .help, .roleDescription, .subrole, .placeholder,
    .label, .url, .enabled, .focused, .selected]

/-- The canonical name. -/
def name : Attribute → String
  | title => "AXTitle"
  | value => "AXValue"
  | description => "AXDescription"
  | identifier => "AXIdentifier"
  | help => "AXHelp"
  | roleDescription => "AXRoleDescription"
  | subrole => "AXSubrole"
  | placeholder => "AXPlaceholderValue"
  | label => "AXLabel"
  | url => "AXURL"
  | enabled => "AXEnabled"
  | focused => "AXFocused"
  | selected => "AXSelected"

/-- The other accepted names. -/
def aliases : Attribute → List String
  | title => ["title"]
  | value => ["value"]
  | description => ["description", "desc"]
  | identifier => ["identifier", "id", "AXDOMIdentifier"]
  | help => ["help"]
  | roleDescription => ["roleDescription", "role_description"]
  | subrole => ["subrole"]
  | placeholder => ["placeholder", "placeholderValue"]
  | label => ["label"]
  | url => ["url"]
  | enabled => ["enabled"]
  | focused => ["focused"]
  | selected => ["selected"]

/-- Whether a name is the canonical one or an alias. -/
def isCalled (known : Attribute) (spelling : String) : Bool :=
  spelling = known.name || known.aliases.contains spelling

/-- The attribute a name belongs to. -/
def ofName? (spelling : String) : Option Attribute :=
  all.find? (isCalled · spelling)

/-- The canonical form of a known name. -/
def canonicalName? (spelling : String) : Option String :=
  (ofName? spelling).map name

/-- The canonical form of a known name; other names are their own. -/
def canonicalName (spelling : String) : String :=
  (canonicalName? spelling).getD spelling

/-- The attributes that tell elements apart, the preferred one first. -/
def identifying : List Attribute :=
  [.identifier, .title, .description]

/-- No attribute is left out of the list. -/
theorem mem_all (known : Attribute) : known ∈ all := by
  cases known <;> decide

@[simp]
theorem ofName?_name (known : Attribute) : ofName? known.name = some known := by
  cases known <;> decide

@[simp]
theorem canonicalName_name (known : Attribute) :
    canonicalName known.name = known.name := by
  simp [canonicalName, canonicalName?]

end Attribute

end Accessibility
