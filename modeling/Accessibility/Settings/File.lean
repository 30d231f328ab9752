import Accessibility.Files.Basic
import Accessibility.Settings.Basic
import Accessibility.Toml.Reader

/-!
# Settings files

Settings are read from a TOML document with a section for every part of the service.  What a
document leaves out has its default, and what is unknown in it is passed over, as long as its
numbers are not excessive.
-/

namespace Accessibility

/-- Why there are no settings. -/
inductive SettingsError where
  | unreadable (file : String) (fault : FileFault)
  /-- The document is no TOML, or a value in it is not of the right kind. -/
  | malformed (file : String)
  /-- A limit is zero. -/
  | zero (key : String)
  deriving DecidableEq, Repr

namespace SettingsError

/-- The wording of an error. -/
def message : SettingsError → String
  | unreadable file fault =>
      "Could not read settings file '" ++ file ++ "': " ++ fault.message
  | malformed file => "Could not parse settings file '" ++ file ++ "'"
  | zero key => "Invalid setting '" ++ key ++ "': must be greater than zero"

/-- The wording of an error and of its cause. -/
def chain (error : SettingsError) : List String :=
  match error with
  | unreadable _ fault => [error.message, fault.message]
  | malformed _ | zero _ => [error.message]

end SettingsError

namespace Settings

/-- The values of a section.  A section may also be an array of its values in order, of which
surplus ones are not looked at, or a date or time, which has none of them. -/
def members? (names : List String) : Toml → Option Toml.Entries
  | .table _ entries => some entries
  | .array items => some (names.zip items)
  | .tables earlier latest => some (names.zip (earlier ++ [.table .header latest]))
  | .dateTime _ => some []
  | _ => none

/-- The values of a section, none of them excessive. -/
def section? (names : List String) (value : Toml) : Option Toml.Entries :=
  (members? names value).filter Toml.haveBounds

/-- The values of the section with a name; there are none without it. -/
def sectionAt? (document : Toml.Entries) (name : String) (names : List String) :
    Option Toml.Entries :=
  match document.lookup name with
  | some value => section? names value
  | none => some []

/-- The names of the sections. -/
def sectionNames : List String :=
  ["hierarchy_cache", "opaque_ids", "resolver", "menu"]

/-- Whether what is unknown in a document can be passed over, because it has no excessive
number. -/
def isPassable (document : Toml.Entries) : Bool :=
  Toml.haveBounds (document.filter fun entry => !sectionNames.contains entry.1)

/-- A count: an integer of 64 bits that is not negative. -/
def count? : Toml → Option Nat
  | .integer value => if 0 ≤ value && value < UInt64.size then some value.toNat else none
  | _ => none

/-- The count with a name, or the given one if there is none. -/
def countAt? (entries : Toml.Entries) (name : String) (missing : Nat) : Option Nat :=
  match entries.lookup name with
  | some value => count? value
  | none => some missing

/-- The count with a name, if there is one. -/
def optionalCountAt? (entries : Toml.Entries) (name : String) : Option (Option Nat) :=
  match entries.lookup name with
  | some value => (count? value).map some
  | none => some none

/-- The settings of a document. -/
def ofDocument? (document : Toml.Entries) : Option Settings := do
  guard (isPassable document)
  let standard : Settings := {}
  let hierarchies ← sectionAt? document "hierarchy_cache" ["capacity", "ttl_secs"]
  let tokens ← sectionAt? document "opaque_ids" ["capacity"]
  let resolver ← sectionAt? document "resolver"
    ["max_depth", "max_visited_nodes", "time_limit_ms", "max_suggestions"]
  let menu ← sectionAt? document "menu" ["max_suggestions"]
  pure
    { hierarchyCapacity := ← countAt? hierarchies "capacity" standard.hierarchyCapacity
      hierarchyLifetime := ← countAt? hierarchies "ttl_secs" standard.hierarchyLifetime
      tokenCapacity := ← countAt? tokens "capacity" standard.tokenCapacity
      budget :=
        { maxDepth := ← countAt? resolver "max_depth" standard.budget.maxDepth
          maxVisited := ← countAt? resolver "max_visited_nodes" standard.budget.maxVisited
          timeLimit := ← optionalCountAt? resolver "time_limit_ms" }
      pathSuggestions := ← countAt? resolver "max_suggestions" standard.pathSuggestions
      menuSuggestions := ← countAt? menu "max_suggestions" standard.menuSuggestions }

/-- Refuses settings with a limit of zero. -/
def validate (settings : Settings) : Except SettingsError Settings :=
  match settings.firstZero? with
  | some key => .error (.zero key)
  | none => .ok settings

/-- Reads and checks settings; `origin` is the name of their file. -/
def parse (document origin : String) : Except SettingsError Settings :=
  match (Toml.parse? document).bind ofDocument? with
  | none => .error (.malformed origin)
  | some settings => settings.validate

/-- The settings in a file; without the file the defaults. -/
def load (files : Files) (file : String) : Except SettingsError Settings :=
  match files file with
  | .ok document => parse document file
  | .error fault => if fault.isAbsence then .ok {} else .error (.unreadable file fault)

end Settings

end Accessibility
