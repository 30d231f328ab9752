/-!
# Searching and splitting text

Occurrences of one list of characters in another, splitting at a separator, and joining with
one.  Separators are found from left to right and never overlap.
-/

namespace Accessibility.Text

/-- Whether `needle` is a block of consecutive characters of the text. -/
def occursIn (needle : List Char) : List Char → Bool
  | [] => needle.isEmpty
  | c :: rest => needle.isPrefixOf (c :: rest) || occursIn needle rest

/-- The pieces of a text between occurrences of a separator: the first piece and the others.
The first `skip` characters belong to a separator that was already found. -/
def splitFrom (separator : List Char) : Nat → List Char → List Char × List (List Char)
  | _, [] => ([], [])
  | skip + 1, _ :: rest => splitFrom separator skip rest
  | 0, c :: rest =>
      if separator.isPrefixOf (c :: rest) then
        let (first, others) := splitFrom separator (separator.length - 1) rest
        ([], first :: others)
      else
        let (first, others) := splitFrom separator 0 rest
        (c :: first, others)

/-- The pieces of a text between occurrences of a non-empty separator.  There is always at
least one piece. -/
def splitOn (separator text : List Char) : List (List Char) :=
  let (first, others) := splitFrom separator 0 text
  first :: others

/-- The pieces in order with the separator between neighbours. -/
def joinWith (separator : List Char) : List (List Char) → List Char
  | [] => []
  | [piece] => piece
  | piece :: next :: rest => piece ++ separator ++ joinWith separator (next :: rest)

@[simp]
theorem joinWith_singleton (separator piece : List Char) :
    joinWith separator [piece] = piece :=
  rfl

end Accessibility.Text
