import Accessibility.Element.Json
import Accessibility.Files.Basic
import Accessibility.Json.Reader
import Accessibility.Path.Error
import Accessibility.Path.Generation
import Accessibility.Scope

/-!
# Capturing trees

Trees of elements come from a source, which is asked for a scope and a depth.  The library's own
source is a file with a tree captured earlier.
-/

namespace Accessibility

/-- Why a source yields no tree. -/
inductive CaptureError where
  /-- The screen or the file may not be read. -/
  | denied (target : String)
  | unreadable (file : String) (fault : FileFault)
  /-- The file does not hold a tree. -/
  | malformed (file : String)
  /-- The tree has nothing in the scope. -/
  | nothingIn (scope : Scope)
  deriving Repr

namespace CaptureError

/-- The wording of an error. -/
def message : CaptureError → String
  | denied target => "Accessibility access denied for '" ++ target ++ "'."
  | unreadable file fault => "Could not read snapshot '" ++ file ++ "': " ++ fault.message
  | malformed file => "Could not parse snapshot '" ++ file ++ "'"
  | nothingIn scope => "Nothing in the snapshot matches " ++ scope.description ++ "."

/-- The wording of an error and of its cause. -/
def chain (error : CaptureError) : List String :=
  match error with
  | unreadable _ fault => [error.message, fault.message]
  | denied _ | malformed _ | nothingIn _ => [error.message]

/-- The form in which clients of paths see an error, if it concerns them. -/
def asPathError? : CaptureError → Option PathError
  | denied target => some (.accessDenied target)
  | unreadable .. | malformed _ | nothingIn _ => none

end CaptureError

/-- A source of trees: for a scope, the tree down to a depth. -/
abbrev Source :=
  Scope → Nat → Except CaptureError Element

namespace Element

/-- The part of a tree in a scope, down to a depth and with its paths. -/
def capture (root : Element) (scope : Scope) (depth : Nat) : Except CaptureError Element :=
  match root.select? scope with
  | some found => .ok (found.truncate depth).generatePaths
  | none => .error (.nothingIn scope)

/-- The tree in a file, with every attribute name in canonical form. -/
def ofFile (files : Files) (file : String) : Except CaptureError Element :=
  match files file with
  | .error .denied => .error (.denied file)
  | .error fault => .error (.unreadable file fault)
  | .ok text =>
      match (Json.parse? text).bind (ofJson? Json.depthLimit) with
      | some root => .ok root.normalized
      | none => .error (.malformed file)

end Element

/-- The source that reads a file. -/
def Source.ofFile (files : Files) (file : String) : Source := fun scope depth => do
  let root ← Element.ofFile files file
  root.capture scope depth

end Accessibility
