import Accessibility.Element.Basic

/-!
# Scopes

The part of the screen that a snapshot covers, how a tree is narrowed down to it, and how a tree
is cut off below a depth.
-/

namespace Accessibility

/-- What a snapshot covers. -/
inductive Scope where
  /-- Everything. -/
  | systemWide
  /-- One application, by its title or its identifier. -/
  | application (name : String)
  /-- The deepest element under a point of the screen, with what is below it. -/
  | position (x y : Float)
  deriving Repr

/-- The scope in words. -/
def Scope.description : Scope → String
  | systemWide => "system-wide"
  | application name => "application '" ++ name ++ "'"
  | position x y =>
      "position (" ++ Decimal.ofFloat Decimal.plain x ++ ", " ++
        Decimal.ofFloat Decimal.plain y ++ ")"

namespace Element

/-- The role of an application. -/
def applicationRole : String :=
  "AXApplication"

/-- Whether the element is the application with this title or identifier. -/
def isApplication (name : String) (element : Element) : Bool :=
  element.role = applicationRole &&
    (element.properties.title = some name || element.properties.identifier = some name)

/-- The application with this title or identifier: the root itself, or else the first one at
the top of a system-wide tree. -/
def application? (name : String) (root : Element) : Option Element :=
  if root.isApplication name then some root
  else if root.isSystemWide then root.children.find? (isApplication name)
  else none

mutual

/-- The element found last in the tree, and deepest, whose frame and whose ancestors' frames
all hold a point.  What stands for the screen has no frame: it never stops the search and is
never found. -/
def deepestAt? (holds : Frame → Bool) : Element → Option Element
  | ⟨path, parentPath, properties, children⟩ =>
      let element : Element := ⟨path, parentPath, properties, children⟩
      if element.isSystemWide then
        lastAt? holds children
      else if holds properties.frame then
        (lastAt? holds children).or (some element)
      else
        none

/-- The find in the last of several subtrees that has one. -/
def lastAt? (holds : Frame → Bool) : List Element → Option Element
  | [] => none
  | element :: rest => (lastAt? holds rest).or (deepestAt? holds element)

end

/-- Narrows a tree down to a scope. -/
def select? (root : Element) : Scope → Option Element
  | .systemWide => some root
  | .application name => root.application? name
  | .position x y => root.deepestAt? fun frame => frame.contains x y

mutual

/-- The tree without the elements more than `depth` levels below its root. -/
def truncate (depth : Nat) : Element → Element
  | ⟨path, parentPath, properties, children⟩ =>
      match depth with
      | 0 => ⟨path, parentPath, properties, []⟩
      | depth + 1 => ⟨path, parentPath, properties, truncateAll depth children⟩

/-- The trees without the elements more than `depth` levels below their roots. -/
def truncateAll (depth : Nat) : List Element → List Element
  | [] => []
  | element :: rest => truncate depth element :: truncateAll depth rest

end

end Element

end Accessibility
