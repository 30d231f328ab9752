import Accessibility.Element.Basic

/-!
# Path segments

A segment of a path asks for an element by its role and by the texts of some attributes, and may
pick one of several by its number.  Its written form is `Role[@name="value"]#index`, with the
predicates in the order of names and `*` for any role.
-/

namespace Accessibility

/-- One step of a path. -/
structure Segment where
  /-- The required role; the empty role is met by every element. -/
  role : String := ""
  /-- The required text of attributes, by name. -/
  predicates : Dictionary String := ∅
  /-- Which of several elements is meant, counted from zero. -/
  index : Option Nat := none
  deriving DecidableEq, Repr, Inhabited

namespace Segment

/-- The segment that also asks for an attribute.  Known names are folded, others kept. -/
def withPredicate (name value : String) (segment : Segment) : Segment :=
  { segment with
    predicates := segment.predicates.insert (Attribute.canonicalName name) value }

/-- The segment that picks the element with this number. -/
def withIndex (index : Nat) (segment : Segment) : Segment :=
  { segment with index := some index }

/-- The segment that picks none by its number. -/
def withoutIndex (segment : Segment) : Segment :=
  { segment with index := none }

/-- Whether an element has the role and every attribute text of a segment. -/
def fits (segment : Segment) (element : Element) : Bool :=
  (segment.role.isEmpty || element.role = segment.role) &&
    segment.predicates.entries.all fun predicate =>
      element.text? predicate.1 = some predicate.2

/-- A value between quotes: quotes and backslashes follow a backslash. -/
def escape : List Char → List Char
  | [] => []
  | c :: rest => if c = '\\' || c = '"' then '\\' :: c :: escape rest else c :: escape rest

/-- A value without the backslashes that escape a character. -/
def unescape : List Char → List Char
  | [] => []
  | [c] => if c = '\\' then [] else [c]
  | c :: d :: rest => if c = '\\' then d :: unescape rest else c :: unescape (d :: rest)

/-- The written form of a predicate. -/
def predicateChars (name value : String) : List Char :=
  '[' :: '@' :: (name.toList ++ '=' :: '"' :: (escape value.toList ++ ['"', ']']))

/-- The written form of a role. -/
def roleChars (role : String) : List Char :=
  if role.isEmpty then ['*'] else role.toList

/-- The written form of an index. -/
def indexChars : Option Nat → List Char
  | some index => '#' :: Nat.toDigits 10 index
  | none => []

/-- The characters of the written form. -/
def chars (segment : Segment) : List Char :=
  roleChars segment.role ++
    (segment.predicates.entries.flatMap (fun entry => predicateChars entry.1 entry.2) ++
      indexChars segment.index)

/-- The written form. -/
def render (segment : Segment) : String :=
  String.ofList segment.chars

@[simp]
theorem toList_render (segment : Segment) : segment.render.toList = segment.chars := by
  simp [render]

/-- Removing the escapes gives the value back. -/
@[simp]
theorem unescape_escape (value : List Char) : unescape (escape value) = value := by
  induction value with
  | nil => rfl
  | cons c rest ih =>
      by_cases special : c = '\\' || c = '"'
      · simp [escape, special, unescape, ih]
      · have plain : escape (c :: rest) = c :: escape rest := by simp [escape, special]
        have notBackslash : c ≠ '\\' := by
          intro same
          simp [same] at special
        rw [plain]
        cases tail : escape rest with
        | nil =>
            rw [tail] at ih
            simp [unescape, notBackslash, ← ih]
        | cons d others =>
            rw [tail] at ih
            simp [unescape, notBackslash, ih]

end Segment

end Accessibility
