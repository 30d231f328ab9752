import Accessibility.Path.Parser
import Mathlib.Data.List.Forall2

/-!
# The grammar of paths

What a text must look like to be a path, and what it then means.  The grammar is given apart from
the readers: a path is the scheme and one or more segments between slashes, and a segment is an
optional role, any number of predicates and an optional index.
-/

namespace Accessibility

namespace Segment

/-- A role as it may be written out: a letter, then letters, digits and underscores. -/
def IsRoleName : List Char → Prop
  | [] => False
  | first :: rest => first.isAlpha = true ∧ ∀ c ∈ rest, isWordChar c = true

/-- The roles that can be written: any role, or a name. -/
def IsRole (role : String) : Prop :=
  role = "" ∨ IsRoleName role.toList

instance : DecidablePred IsRoleName
  | [] => inferInstanceAs (Decidable False)
  | first :: rest =>
      decidable_of_iff ((first.isAlpha && rest.all isWordChar) = true) (by simp [IsRoleName])

instance : DecidablePred IsRole :=
  fun role => inferInstanceAs (Decidable (role = "" ∨ IsRoleName role.toList))

/-- The front of a segment, and the role that it asks for. -/
inductive SpellsRole : List Char → String → Prop
  | absent : SpellsRole [] ""
  | star : SpellsRole ['*'] ""
  | name {text : List Char} (isName : IsRoleName text) : SpellsRole text (String.ofList text)

/-- The text between the quotes of a predicate, and the value it stands for.  A backslash makes
the next character stand for itself. -/
inductive SpellsValue : List Char → List Char → Prop
  | nil : SpellsValue [] []
  | plain {c : Char} {raw value : List Char} (notQuote : c ≠ '"') (notBackslash : c ≠ '\\')
      (rest : SpellsValue raw value) : SpellsValue (c :: raw) (c :: value)
  | escaped {c : Char} {raw value : List Char} (notNewline : c ≠ '\n')
      (rest : SpellsValue raw value) : SpellsValue ('\\' :: c :: raw) (c :: value)

/-- A predicate as written, and the attribute and value it asks for.  The attribute goes by its
canonical name whichever of its names was written. -/
inductive SpellsPredicate : List Char → String × String → Prop
  | intro {name raw value : List Char} {canonical : String}
      (known : Attribute.canonicalName? (String.ofList name) = some canonical)
      (quoted : SpellsValue raw value) :
      SpellsPredicate ('[' :: '@' :: (name ++ '=' :: '"' :: (raw ++ ['"', ']'])))
        (canonical, String.ofList value)

/-- Decimal digits without a superfluous zero. -/
def IsNumeral (digits : List Char) : Prop :=
  digits = ['0'] ∨
    digits ≠ [] ∧ (∀ c ∈ digits, c.isDigit = true) ∧ digits.head? ≠ some '0'

/-- The end of a segment, and the index that it asks for. -/
inductive SpellsIndex : List Char → Option Nat → Prop
  | absent : SpellsIndex [] none
  | number {digits : List Char} (isNumeral : IsNumeral digits)
      (fits : Nat.ofDigitChars 10 digits 0 < UInt64.size) :
      SpellsIndex ('#' :: digits) (some (Nat.ofDigitChars 10 digits 0))

/-- A segment as written, and what it means.  No attribute is asked for twice, and a segment
without a predicate has a role or a star. -/
inductive Spells : List Char → Segment → Prop
  | intro {role index : List Char} {pieces : List (List Char)}
      {entries : List (String × String)} {segment : Segment}
      (spelledRole : SpellsRole role segment.role)
      (spelledPredicates : List.Forall₂ SpellsPredicate pieces entries)
      (distinct : (entries.map Prod.fst).Nodup)
      (asked : segment.predicates.entries.Perm entries)
      (spelledIndex : SpellsIndex index segment.index)
      (notBare : role ≠ [] ∨ pieces ≠ []) :
      Spells (role ++ (pieces.flatten ++ index)) segment

end Segment

/-- A path as written, and what it means: the scheme, and one or more segments between
slashes. -/
def Path.Spells (text : List Char) (path : Path) : Prop :=
  ∃ pieces, text = scheme.toList ++ Text.joinWith ['/'] pieces ∧
    List.Forall₂ Segment.Spells pieces path.segments

end Accessibility
