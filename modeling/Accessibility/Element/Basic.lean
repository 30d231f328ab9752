import Accessibility.Attribute
import Accessibility.Decimal.Notation
import Accessibility.Dictionary

/-!
# Elements

The nodes of an accessibility tree.  What an element shows of itself is gathered in its
`Properties`; beside them stand the children and the bookkeeping of paths, which a snapshot
fills in.
-/

namespace Accessibility

/-- A rectangle on the screen, in points. -/
structure Frame where
  x : Float := 0
  y : Float := 0
  width : Float := 0
  height : Float := 0
  deriving BEq, Repr, Inhabited

/-- Whether a point lies in a frame: the left and upper edges belong to it, the others do not,
and a frame without extent contains nothing. -/
def Frame.contains (frame : Frame) (x y : Float) : Bool :=
  frame.width > 0 && frame.height > 0 && x >= frame.x && y >= frame.y &&
    x < frame.x + frame.width && y < frame.y + frame.height

/-- A scalar attribute value. -/
inductive Scalar where
  | boolean (value : Bool)
  | integer (value : Int)
  | float (value : Float)
  | text (value : String)
  deriving BEq, Repr

/-- The text that predicates compare with. -/
def Scalar.asText : Scalar → String
  | boolean value => if value then "true" else "false"
  | integer value => toString value
  | float value => Decimal.ofFloat Decimal.plain value
  | text value => value

/-- What an element shows of itself. -/
structure Properties where
  role : String
  title : Option String := none
  value : Option String := none
  description : Option String := none
  identifier : Option String := none
  frame : Frame := {}
  /-- Other attributes by name. -/
  attributes : Dictionary Scalar := ∅
  /-- The names of the supported actions. -/
  actions : NameSet := ∅
  deriving Repr, BEq, Inhabited

namespace Properties

/-- The field of its own that an attribute has, by canonical name. -/
def field? (properties : Properties) (name : String) : Option String :=
  if name = Attribute.title.name then properties.title
  else if name = Attribute.value.name then properties.value
  else if name = Attribute.description.name then properties.description
  else if name = Attribute.identifier.name then properties.identifier
  else none

/-- The text of an attribute: that of its own field or else that in the attribute map. -/
def text? (properties : Properties) (name : String) : Option String :=
  match properties.field? name with
  | some text => some text
  | none => (properties.attributes.get? name).map Scalar.asText

/-- Stores an attribute under its canonical name. -/
def setAttribute (name : String) (value : Scalar) (properties : Properties) : Properties :=
  { properties with
    attributes := properties.attributes.insert (Attribute.canonicalName name) value }

/-- The attribute map with every name in canonical form.  Of several entries for one attribute
the one whose name comes first in order is kept. -/
def foldNames (attributes : Dictionary Scalar) : Dictionary Scalar :=
  attributes.entries.foldl
    (fun folded entry => folded.insertIfNew (Attribute.canonicalName entry.1) entry.2) ∅

/-- The properties with every attribute name in canonical form. -/
def normalized (properties : Properties) : Properties :=
  { properties with attributes := foldNames properties.attributes }

/-- One labelled text of a summary. -/
def labelled (label : String) : Option String → String
  | some text => " " ++ label ++ "=\"" ++ text ++ "\""
  | none => ""

/-- A short description for people: the role and the texts that tell elements apart. -/
def summary (properties : Properties) : String :=
  properties.role ++ labelled "identifier" properties.identifier ++
    labelled "title" properties.title ++ labelled "description" properties.description

end Properties

/-- One node of an accessibility tree with everything below it. -/
structure Element where
  /-- The full path; empty until paths are generated. -/
  path : String := ""
  /-- The path of the parent; none for a top-level element. -/
  parentPath : Option String := none
  properties : Properties
  /-- The children in the order of the screen. -/
  children : List Element := []
  deriving Repr, Inhabited

namespace Element

/-- The element of a role that shows nothing else. -/
def ofRole (role : String) : Element :=
  { properties := { role } }

/-- The role. -/
def role (element : Element) : String :=
  element.properties.role

/-- The text of an attribute, by canonical name. -/
def text? (element : Element) (name : String) : Option String :=
  element.properties.text? name

/-- Whether two elements show the same, whatever their children and paths are. -/
def sameProperties (element other : Element) : Bool :=
  element.properties == other.properties

mutual

/-- Equality of two elements with everything below them. -/
def same : Element → Element → Bool
  | ⟨path, parentPath, properties, children⟩, other =>
      path == other.path && parentPath == other.parentPath && properties == other.properties &&
        sameAll children other.children

/-- Equality of two lists of elements. -/
def sameAll : List Element → List Element → Bool
  | [], [] => true
  | element :: rest, other :: others => same element other && sameAll rest others
  | _, _ => false

end

instance : BEq Element :=
  ⟨same⟩

mutual

/-- The number of elements in a subtree, its root included. -/
def size : Element → Nat
  | { children, .. } => 1 + sizeAll children

/-- The number of elements in a list of subtrees. -/
def sizeAll : List Element → Nat
  | [] => 0
  | element :: rest => size element + sizeAll rest

end

mutual

/-- Changes the properties of every element of a subtree. -/
def mapProperties (change : Properties → Properties) : Element → Element
  | ⟨path, parentPath, properties, children⟩ =>
      ⟨path, parentPath, change properties, mapPropertiesAll change children⟩

/-- Changes the properties of every element of a list of subtrees. -/
def mapPropertiesAll (change : Properties → Properties) : List Element → List Element
  | [] => []
  | element :: rest => mapProperties change element :: mapPropertiesAll change rest

end

/-- The tree with every attribute name in canonical form. -/
def normalized (element : Element) : Element :=
  element.mapProperties Properties.normalized

mutual

/-- The elements of a subtree, each before its children. -/
def preorder : Element → List Element
  | ⟨path, parentPath, properties, children⟩ =>
      ⟨path, parentPath, properties, children⟩ :: preorderAll children

/-- The elements of a list of subtrees, each before its children. -/
def preorderAll : List Element → List Element
  | [] => []
  | element :: rest => preorder element ++ preorderAll rest

end

/-- The position of an element below another: the child to take at every level. -/
abbrev Position :=
  List Nat

/-- The element at a position. -/
def at? (element : Element) : Position → Option Element
  | [] => some element
  | child :: rest => (element.children[child]?).bind (at? · rest)

/-- The role of the root of a system-wide snapshot.  Such a root stands for the screen: paths
begin at its children. -/
def systemWideRole : String :=
  "AXSystemWide"

/-- Whether the element is the root of a system-wide snapshot. -/
def isSystemWide (element : Element) : Bool :=
  element.role = systemWideRole

/-- The elements at which paths into a tree begin. -/
def topLevel (root : Element) : List Element :=
  if root.isSystemWide then root.children else [root]

end Element

end Accessibility
