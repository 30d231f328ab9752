import Accessibility.Path.Basic

/-!
# Path errors

What keeps a text from being a path, and what keeps a path from leading to one element.  Each
cause is a value of its own; the wording is added last.
-/

namespace Accessibility

/-- What is wrong with the text of a path or a segment. -/
inductive Fault where
  | openQuote
  | emptySegment
  | malformedSegment
  | unknownAttribute (name : String)
  | repeatedAttribute (name : String)
  | malformedPredicate
  | malformedIndex
  | largeIndex
  | bareSegment
  deriving DecidableEq, Repr

/-- The wording of a fault. -/
def Fault.message : Fault → String
  | openQuote => "unterminated quoted value"
  | emptySegment => "empty segment"
  | malformedSegment => "expected Role[@name=\"value\"]#index"
  | unknownAttribute name => "unknown attribute '" ++ name ++ "'"
  | repeatedAttribute name => "attribute '" ++ name ++ "' appears more than once"
  | malformedPredicate => "predicates must look like [@name=\"value\"]"
  | malformedIndex => "index must be a non-negative integer"
  | largeIndex => "index is too large"
  | bareSegment => "segment has neither role nor predicates"

/-- The limit at which a resolution was given up. -/
inductive Excess where
  | depth (length maximum : Nat)
  | visits (maximum : Nat)
  | time (milliseconds : Nat)
  deriving DecidableEq, Repr

/-- The wording of an exceeded limit. -/
def Excess.message : Excess → String
  | depth length maximum =>
      "path depth " ++ toString length ++ " exceeds the maximum of " ++ toString maximum
  | visits maximum => "inspected more than " ++ toString maximum ++ " elements"
  | time milliseconds => "took longer than " ++ toString milliseconds ++ " ms"

/-- Everything that can go wrong with a path.  A position counts the segments from zero.  There is
no error for a walk that ends without having chosen any element.  A path has a first segment, and
every segment leads to a choice or to one of the errors below. -/
inductive PathError where
  /-- The text does not begin with the scheme. -/
  | wrongScheme (text : String)
  /-- Nothing follows the scheme. -/
  | emptyPath
  /-- The path or one of its segments is malformed. -/
  | malformed (text : String) (fault : Fault)
  /-- No candidate fits the segment. -/
  | noMatch (segment : Segment) (position : Nat)
  /-- Several candidates fit a segment without an index.  Every alternative picks one. -/
  | ambiguous (segment : Segment) (position count : Nat) (alternatives : List Segment)
  /-- The index is not below the number of fitting candidates. -/
  | indexOutOfRange (segment : Segment) (position requested count : Nat)
  /-- The snapshot or the screen may not be read. -/
  | accessDenied (target : String)
  /-- A limit of the resolution was exceeded. -/
  | abandoned (excess : Excess)
  deriving DecidableEq, Repr

/-- What an error is about: the text of the path, the tree it leads through, or neither. -/
inductive ErrorKind where
  | malformed
  | resolution
  | environment
  deriving DecidableEq, Repr

namespace PathError

/-- What the error is about. -/
def kind : PathError → ErrorKind
  | wrongScheme _ | emptyPath | malformed .. => .malformed
  | noMatch .. | ambiguous .. | indexOutOfRange .. => .resolution
  | accessDenied _ | abandoned _ => .environment

/-- A segment with its position, as messages name it. -/
def place (segment : Segment) (position : Nat) : String :=
  "segment " ++ toString position ++ " ('" ++ segment.render ++ "')"

/-- The wording of an error. -/
def message : PathError → String
  | wrongScheme text =>
      "Invalid path prefix in '" ++ text ++ "'. Element paths must start with '" ++
        Path.scheme ++ "'."
  | emptyPath => "Empty element path."
  | malformed text fault => "Invalid path syntax in '" ++ text ++ "': " ++ fault.message
  | noMatch segment position => "No elements match " ++ place segment position ++ "."
  | ambiguous segment position count _ =>
      "Segment " ++ toString position ++ " ('" ++ segment.render ++ "') matches " ++
        toString count ++ " elements. Add an index or a more specific attribute."
  | indexOutOfRange segment position requested count =>
      "Index " ++ toString requested ++ " is out of range for " ++ place segment position ++
        ", which matches " ++ toString count ++ " element(s)."
  | accessDenied target => "Insufficient accessibility permissions: " ++ target
  | abandoned excess => "Resolution abandoned: " ++ excess.message

end PathError

end Accessibility
