import Accessibility.Menu.Hierarchy
import Accessibility.Text.Blank
import Accessibility.Text.Search

/-!
# Menu paths

The written form of menu paths: titles separated by ` > `, with blanks around them as people
type them.
-/

namespace Accessibility.MenuPath

/-- The mark in the middle of a separator. -/
def mark : List Char :=
  ['>']

/-- Where a menu path has a mark too many. -/
inductive Misplaced where
  | leading
  | trailing
  | doubled
  deriving DecidableEq, Repr

/-- The wording of a misplaced separator. -/
def Misplaced.message : Misplaced → String
  | leading => "leading separator"
  | trailing => "trailing separator"
  | doubled => "doubled separator"

/-- Why a menu path leads to nothing. -/
inductive Failure where
  | empty
  | invalidSeparator (path : String) (misplaced : Misplaced)
  /-- Nothing in the menus of the application resembles the path. -/
  | notFound (path applicationId : String)
  deriving DecidableEq, Repr

/-- The wording of a failure. -/
def Failure.message : Failure → String
  | empty => "Menu path is empty."
  | invalidSeparator path misplaced =>
      "Invalid menu path '" ++ path ++ "': " ++ misplaced.message
  | notFound path applicationId =>
      "Menu path '" ++ path ++ "' not found in the menus of '" ++ applicationId ++ "'."

/-- The pieces of a text between separators, without the blanks around them. -/
def pieces (text : List Char) : List (List Char) :=
  (Text.splitOn MenuItem.separator.toList text).map Text.trim

/-- The titles of a menu path; pieces with nothing in them are passed over. -/
def components (text : String) : List String :=
  ((pieces text.toList).filter fun piece => !piece.isEmpty).map String.ofList

/-- The menu path with these titles. -/
def join (components : List String) : String :=
  String.ofList (Text.joinWith MenuItem.separator.toList (components.map String.toList))

/-- Whether a piece is no title: it is empty or has a mark at one of its ends. -/
def isMisplaced (piece : List Char) : Bool :=
  piece.isEmpty || mark.isPrefixOf piece || mark.isSuffixOf piece

/-- Checks the separators of a menu path. -/
def validate (text : String) : Except Failure Unit :=
  let trimmed := Text.trim text.toList
  if trimmed.isEmpty then
    .error .empty
  else if mark.isPrefixOf trimmed then
    .error (.invalidSeparator text .leading)
  else if mark.isSuffixOf trimmed then
    .error (.invalidSeparator text .trailing)
  else if (pieces trimmed).any isMisplaced then
    .error (.invalidSeparator text .doubled)
  else
    .ok ()

end Accessibility.MenuPath
