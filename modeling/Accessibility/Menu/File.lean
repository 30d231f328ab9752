import Accessibility.Files.Basic
import Accessibility.Json.Reader
import Accessibility.Menu.Hierarchy

/-!
# Menu files

The menus of an application as they were captured into a file.
-/

namespace Accessibility

/-- What a menu file holds. -/
structure MenuFile where
  applicationId : String
  menus : List MenuItem
  deriving Repr

/-- Why a file yields no menus. -/
inductive MenuFileError where
  | unreadable (file : String) (fault : FileFault)
  | malformed (file : String)
  deriving DecidableEq, Repr

/-- The wording of an error and of its cause. -/
def MenuFileError.chain : MenuFileError → List String
  | unreadable file fault => ["Failed to read menu file '" ++ file ++ "'", fault.message]
  | malformed file => ["Failed to parse menu file '" ++ file ++ "'"]

namespace MenuFile

/-- Reads the contents of a menu file that may open `depth` containers. -/
def ofJson? (depth : Nat) (json : Json) : Option MenuFile :=
  match depth with
  | 0 => none
  | depth + 1 => do
      let fields ← json.fields? ["application_id", "menus"]
      let applicationId ← fields.read? "application_id" none Json.text?
      let menus ← fields.read? "menus" none (Json.items? depth MenuItem.ofJson?)
      pure { applicationId, menus }

/-- The contents of a menu file. -/
def load (files : Files) (file : String) : Except MenuFileError MenuFile :=
  match files file with
  | .error fault => .error (.unreadable file fault)
  | .ok text =>
      match (Json.parse? text).bind (ofJson? Json.depthLimit) with
      | some contents => .ok contents
      | none => .error (.malformed file)

end MenuFile

end Accessibility
