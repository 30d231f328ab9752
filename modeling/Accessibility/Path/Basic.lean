import Accessibility.Path.Segment
import Accessibility.Text.Search

/-!
# Paths

A path leads from the top of an accessibility tree down to one element, a segment for every
level.  Its written form begins with the scheme `macos://ui/`, and slashes separate the
segments.
-/

namespace Accessibility

/-- A path: at least one segment, the top level first. -/
structure Path where
  first : Segment
  rest : List Segment := []
  deriving DecidableEq, Repr, Inhabited

namespace Path

/-- What every written path begins with. -/
def scheme : String :=
  "macos://ui/"

/-- The segments from the top level down. -/
def segments (path : Path) : List Segment :=
  path.first :: path.rest

/-- The number of segments. -/
def length (path : Path) : Nat :=
  path.rest.length + 1

/-- The path to a child of the addressed element. -/
def child (path : Path) (segment : Segment) : Path :=
  { path with rest := path.rest ++ [segment] }

/-- The path of the parent; a path of one segment has none. -/
def parent? (path : Path) : Option Path :=
  if path.rest.isEmpty then none else some { path with rest := path.rest.dropLast }

/-- The characters of the written form. -/
def chars (path : Path) : List Char :=
  scheme.toList ++ Text.joinWith ['/'] (path.segments.map Segment.chars)

/-- The written form. -/
def render (path : Path) : String :=
  String.ofList path.chars

@[simp]
theorem toList_render (path : Path) : path.render.toList = path.chars := by
  simp [render]

@[simp]
theorem length_segments (path : Path) : path.segments.length = path.length :=
  rfl

@[simp]
theorem segments_child (path : Path) (segment : Segment) :
    (path.child segment).segments = path.segments ++ [segment] :=
  rfl

@[simp]
theorem parent?_child (path : Path) (segment : Segment) :
    (path.child segment).parent? = some path := by
  simp [child, parent?]

end Path

end Accessibility
