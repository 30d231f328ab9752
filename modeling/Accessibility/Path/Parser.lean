import Accessibility.Path.Error
import Accessibility.Text.Blank

/-!
# Reading paths

A path is cut into segments at the slashes outside quoted values, and each segment is read on
its own: first its outline of role, bracketed block and index, then the predicates in the block.
The outline is coarser than the predicates, so that a segment with the right outline gets the
more precise fault.
-/

namespace Accessibility

namespace Segment

/-- A letter, a digit or an underscore. -/
def isWordChar (c : Char) : Bool :=
  c.isAlphanum || c = '_'

/-- The role at the front of a segment, if there is one, and what follows it. -/
def takeRole : List Char → Option String × List Char
  | [] => (none, [])
  | c :: rest =>
      if c = '*' then
        (some "", rest)
      else if c.isAlpha then
        (some (String.ofList (c :: rest.takeWhile isWordChar)), rest.dropWhile isWordChar)
      else
        (none, c :: rest)

/-- Where the outline of a bracketed block stands: outside a bracket pair, inside one before its
quoted value, in the value, after a backslash in it, or behind the value. -/
inductive Outline where
  | outside
  | opened
  | quoted
  | escaped
  | closed
  deriving DecidableEq, Repr

/-- The outline after one more character of a bracket pair.  A pair holds at most one quoted
value, in which a backslash may stand before any character but a line feed. -/
def Outline.next? : Outline → Char → Option Outline
  | outside, c => if c = '[' then some opened else none
  | opened, c => some (if c = ']' then outside else if c = '"' then quoted else opened)
  | quoted, c => some (if c = '"' then closed else if c = '\\' then escaped else quoted)
  | escaped, c => if c = '\n' then none else some quoted
  | closed, c => if c = '"' then none else some (if c = ']' then outside else closed)

/-- The longest run of bracket pairs at the front of a text, and what follows it.  None if a
pair is left open. -/
def takeBlock : Outline → List Char → Option (List Char × List Char)
  | .outside, [] => some ([], [])
  | _, [] => none
  | outline, c :: rest =>
      match outline.next? c with
      | some next => (takeBlock next rest).map fun (block, after) => (c :: block, after)
      | none => if outline = .outside then some ([], c :: rest) else none

/-- What follows the block: nothing, or the text of an index on the same line. -/
def indexText? : List Char → Option (Option (List Char))
  | [] => some none
  | c :: rest => if c = '#' && !rest.contains '\n' then some (some rest) else none

/-- A predicate as written: the name, and the value with its escapes. -/
structure RawPredicate where
  name : List Char
  value : List Char
  deriving DecidableEq, Repr

/-- The quoted value at the front of a text, without its closing quote, and what follows it. -/
def takeQuoted : List Char → Option (List Char × List Char)
  | [] => none
  | c :: rest =>
      if c = '"' then
        some ([], rest)
      else if c = '\\' then
        match rest with
        | [] => none
        | d :: rest =>
            if d = '\n' then none
            else (takeQuoted rest).map fun (value, after) => (c :: d :: value, after)
      else
        (takeQuoted rest).map fun (value, after) => (c :: value, after)

/-- The predicate at the front of a text and what follows it. -/
def predicateAt? : List Char → Option (RawPredicate × List Char)
  | '[' :: '@' :: c :: rest =>
      if c.isAlpha || c = '_' then
        match rest.dropWhile isWordChar with
        | '=' :: '"' :: quoted =>
            match takeQuoted quoted with
            | some (value, ']' :: after) => some (⟨c :: rest.takeWhile isWordChar, value⟩, after)
            | _ => none
        | _ => none
      else
        none
  | _ => none

/-- The predicates found in a block from left to right, and whether the block holds anything
else.  The first `skip` characters belong to a predicate that was already found. -/
def findPredicates : Nat → List Char → List RawPredicate × Bool
  | _, [] => ([], false)
  | skip + 1, _ :: rest => findPredicates skip rest
  | 0, c :: rest =>
      match predicateAt? (c :: rest) with
      | some (predicate, after) =>
          let (others, junk) := findPredicates (rest.length - after.length) rest
          (predicate :: others, junk)
      | none => ((findPredicates 0 rest).1, true)

/-- Adds predicates as written to those already read.  Names must be known, and no two may
belong to one attribute. -/
def addPredicates (known : Dictionary String) :
    List RawPredicate → Except Fault (Dictionary String)
  | [] => .ok known
  | predicate :: rest =>
      match Attribute.canonicalName? (String.ofList predicate.name) with
      | none => .error (.unknownAttribute (String.ofList predicate.name))
      | some name =>
          if known.contains name then
            .error (.repeatedAttribute name)
          else
            addPredicates (known.insert name (String.ofList (unescape predicate.value))) rest

/-- Reads a block of predicates. -/
def readPredicates (block : List Char) : Except Fault (Dictionary String) :=
  match addPredicates ∅ (findPredicates 0 block).1 with
  | .error fault => .error fault
  | .ok predicates =>
      if (findPredicates 0 block).2 then .error .malformedPredicate else .ok predicates

/-- The largest index. -/
def indexLimit : Nat :=
  UInt64.size - 1

/-- Reads an index: decimal digits without a superfluous zero. -/
def readIndex (text : List Char) : Except Fault Nat :=
  if text.isEmpty || !text.all Char.isDigit || (text.head? = some '0' && text ≠ ['0']) then
    .error .malformedIndex
  else if indexLimit < Nat.ofDigitChars 10 text 0 then
    .error .largeIndex
  else
    .ok (Nat.ofDigitChars 10 text 0)

/-- Reads the optional index of a segment. -/
def readIndex? : Option (List Char) → Except Fault (Option Nat)
  | none => .ok none
  | some text => (readIndex text).map some

/-- Puts a segment together from its role, its block and the text of its index. -/
def assemble (role : Option String) (block : List Char) (index : Option (List Char)) :
    Except Fault Segment := do
  let predicates ← readPredicates block
  let index ← readIndex? index
  if role.isNone && predicates.isEmpty then
    throw .bareSegment
  else
    pure { role := role.getD "", predicates, index }

/-- Reads the characters of a segment. -/
def read (text : List Char) : Except Fault Segment :=
  if text.isEmpty then
    .error .emptySegment
  else
    let (role, rest) := takeRole text
    match takeBlock .outside rest with
    | none => .error .malformedSegment
    | some (block, after) =>
        match indexText? after with
        | none => .error .malformedSegment
        | some index => assemble role block index

/-- Reads a segment. -/
def parse (text : String) : Except PathError Segment :=
  (read text.toList).mapError (.malformed text)

end Segment

namespace Path

/-- Where the search for separators stands: outside quoted values, in one, or in one after a
backslash. -/
inductive Quotation where
  | outside
  | inside
  | escaped
  deriving DecidableEq, Repr

/-- Where the search stands after a character. -/
def Quotation.next : Quotation → Char → Quotation
  | outside, c => if c = '"' then inside else outside
  | inside, c => if c = '"' then outside else if c = '\\' then escaped else inside
  | escaped, _ => inside

/-- The pieces of a text between slashes outside quoted values: the first piece and the others.
None if a quoted value is left open. -/
def split? : Quotation → List Char → Option (List Char × List (List Char))
  | .outside, [] => some ([], [])
  | _, [] => none
  | quotation, c :: rest =>
      if quotation = .outside && c = '/' then
        (split? .outside rest).map fun (first, others) => ([], first :: others)
      else
        (split? (quotation.next c) rest).map fun (first, others) => (c :: first, others)

/-- What follows the scheme. -/
def body? (text : List Char) : Option (List Char) :=
  if scheme.toList.isPrefixOf text then some (text.drop scheme.length) else none

/-- Reads the pieces of a path. -/
def ofPieces (first : List Char) (others : List (List Char)) : Except PathError Path := do
  let first ← Segment.parse (String.ofList first)
  let rest ← others.mapM fun piece => Segment.parse (String.ofList piece)
  pure { first, rest }

/-- Reads a path. -/
def parse (text : String) : Except PathError Path :=
  match body? text.toList with
  | none => .error (.wrongScheme text)
  | some body =>
      if body.all Text.isBlank then
        .error .emptyPath
      else
        match split? .outside body with
        | none => .error (.malformed text .openQuote)
        | some (first, others) => ofPieces first others

/-- The path with these segments. -/
def ofSegments : List Segment → Except PathError Path
  | [] => .error .emptyPath
  | first :: rest => .ok { first, rest }

end Path

end Accessibility
