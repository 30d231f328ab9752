import Accessibility.Text.Blank

/-!
# The location of the settings

The settings file is named by a variable of its own or else stands in the configuration
directory of the user.
-/

namespace Accessibility

/-- The variables of the environment that matter. -/
structure Environment where
  /-- `AXPATH_CONFIG`: the settings file. -/
  settingsFile : Option String := none
  /-- `XDG_CONFIG_HOME`: the configuration directory. -/
  configHome : Option String := none
  /-- `HOME`: the directory of the user.  Every user has one, so the configuration directory is
  never missing. -/
  home : String
  deriving DecidableEq, Repr

namespace Environment

/-- The name of an entry of a directory. -/
def entry (directory name : String) : String :=
  if directory.isEmpty || directory.endsWith "/" then directory ++ name
  else directory ++ "/" ++ name

/-- The configuration directory: the one that is named if its name is a full one, or the usual
one of the user. -/
def configDirectory (environment : Environment) : String :=
  match environment.configHome with
  | some directory =>
      if directory.startsWith "/" then directory else entry environment.home ".config"
  | none => entry environment.home ".config"

/-- The settings file.  A name of blanks counts as none. -/
def settingsLocation (environment : Environment) : String :=
  match environment.settingsFile with
  | some file =>
      if file.toList.all Text.isBlank then standard environment else file
  | none => standard environment
where
  /-- The settings file in the configuration directory. -/
  standard (environment : Environment) : String :=
    entry (entry environment.configDirectory "axpath") "axpath.toml"

end Environment

end Accessibility
