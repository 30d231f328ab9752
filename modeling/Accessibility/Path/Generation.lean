import Accessibility.Path.Basic

/-!
# Generated paths

Every element of a snapshot gets a path that leads back to it.  Its segment asks for the role
and for every identifying attribute the element shows; it has an index only if it fits several
siblings.
-/

namespace Accessibility

namespace Segment

/-- The segment that asks for the role and the identifying attributes of an element. -/
def identifying (element : Element) : Segment :=
  Attribute.identifying.foldl
    (fun segment identifying =>
      match element.text? identifying.name with
      | some text => segment.withPredicate identifying.name text
      | none => segment)
    { role := element.role }

/-- The segment for the sibling with this number: with its number among the fitting siblings if
there are several. -/
def amongSiblings (siblings : List Element) (element : Element) (number : Nat) : Segment :=
  let segment := identifying element
  if 1 < siblings.countP segment.fits then
    segment.withIndex ((siblings.take number).countP segment.fits)
  else
    segment

/-- One segment per sibling, in order. -/
def ofSiblings (siblings : List Element) : List Segment :=
  siblings.zipIdx.map fun (element, number) => amongSiblings siblings element number

end Segment

namespace Element

mutual

/-- Gives an element its path and every element below it the path that belongs to it. -/
def assignPath (path : Path) (parentPath : Option String) : Element → Element
  | ⟨_, _, properties, children⟩ =>
      ⟨path.render, parentPath, properties,
        assignChildren path (Segment.ofSiblings children) children⟩

/-- Gives siblings below a path their paths; there is a segment for each. -/
def assignChildren (path : Path) : List Segment → List Element → List Element
  | segment :: segments, child :: children =>
      assignPath (path.child segment) (some path.render) child ::
        assignChildren path segments children
  | _, _ => []

end

/-- Gives top-level elements their paths; there is a segment for each. -/
def assignTopLevel : List Segment → List Element → List Element
  | segment :: segments, element :: elements =>
      assignPath { first := segment } none element :: assignTopLevel segments elements
  | _, _ => []

/-- Gives every element of a tree its path.  The root of a system-wide tree is no part of the
paths below it. -/
def generatePaths (root : Element) : Element :=
  if root.isSystemWide then
    { root with
      path := Path.scheme ++ systemWideRole
      parentPath := none
      children := assignTopLevel (Segment.ofSiblings root.children) root.children }
  else
    assignPath { first := Segment.identifying root } none root

end Element

end Accessibility
