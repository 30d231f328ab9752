import Accessibility.Resolution.Resolver
import Accessibility.Time

/-!
# Settings

The limits a service works within.  Every one has a default.  A limit of zero would make a cache
or a list of suggestions useless and is refused; only the times may be zero.
-/

namespace Accessibility

/-- The limits of a service. -/
structure Settings where
  /-- The number of menu hierarchies kept. -/
  hierarchyCapacity : Nat := 50
  /-- The seconds for which a stored menu hierarchy counts. -/
  hierarchyLifetime : Nat := 300
  /-- The number of opaque identifiers kept. -/
  tokenCapacity : Nat := 128000
  /-- The limits of resolutions.  The greatest length of a path also bounds snapshots. -/
  budget : Budget := {}
  /-- The number of alternatives listed for a segment. -/
  pathSuggestions : Nat := 5
  /-- The number of menu paths suggested in place of an unknown one. -/
  menuSuggestions : Nat := 5
  deriving DecidableEq, Repr

namespace Settings

/-- The limits that must not be zero, by name, in the order in which they are checked. -/
def limits (settings : Settings) : List (String × Nat) :=
  [("hierarchy_cache.capacity", settings.hierarchyCapacity),
    ("opaque_ids.capacity", settings.tokenCapacity),
    ("resolver.max_depth", settings.budget.maxDepth),
    ("resolver.max_visited_nodes", settings.budget.maxVisited),
    ("resolver.max_suggestions", settings.pathSuggestions),
    ("menu.max_suggestions", settings.menuSuggestions)]

/-- The name of the first limit that is zero. -/
def firstZero? (settings : Settings) : Option String :=
  (settings.limits.find? fun limit => limit.2 = 0).map (·.1)

/-- Whether no limit is zero. -/
def isValid (settings : Settings) : Bool :=
  settings.firstZero?.isNone

/-- One line of a section. -/
def line (key : String) (value : Nat) : String :=
  key ++ " = " ++ toString value ++ "\n"

/-- One line of a section, if there is a value. -/
def optionalLine (key : String) : Option Nat → String
  | some value => line key value
  | none => ""

/-- The settings file with all values written out. -/
def render (settings : Settings) : String :=
  "[hierarchy_cache]\n" ++ line "capacity" settings.hierarchyCapacity ++
    line "ttl_secs" settings.hierarchyLifetime ++
    "\n[opaque_ids]\n" ++ line "capacity" settings.tokenCapacity ++
    "\n[resolver]\n" ++ line "max_depth" settings.budget.maxDepth ++
    line "max_visited_nodes" settings.budget.maxVisited ++
    optionalLine "time_limit_ms" settings.budget.timeLimit ++
    line "max_suggestions" settings.pathSuggestions ++
    "\n[menu]\n" ++ line "max_suggestions" settings.menuSuggestions

end Settings

end Accessibility
