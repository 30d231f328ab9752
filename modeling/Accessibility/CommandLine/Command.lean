import Accessibility.ChangeSet
import Accessibility.CommandLine.Arguments
import Accessibility.Menu.File
import Accessibility.Service

/-!
# Commands

The commands of the program: resolving a path in a captured tree, listing the paths of a tree,
looking up a menu path, and comparing two trees.  A command writes lines and may fail after it
has written some.
-/

namespace Accessibility.CommandLine

/-- What a command needs from outside. -/
structure Surroundings where
  files : Files
  now : Instant
  /-- Random identifiers for tokens. -/
  draws : List OpaqueId

/-- Why a command failed. -/
inductive Failure where
  | usage (error : UsageError)
  /-- An error and its causes, the outermost first. -/
  | chain (messages : List String)
  deriving DecidableEq, Repr

/-- What a command wrote, and why it failed, if it did. -/
structure Execution where
  output : String := ""
  failure : Option Failure := none
  deriving DecidableEq, Repr

namespace Execution

/-- Success with some output. -/
def done (lines : List String) : Execution where
  output := String.join (lines.map (· ++ "\n"))

/-- Failure after some output. -/
def failed (messages : List String) (lines : List String) : Execution where
  output := (done lines).output
  failure := some (.chain messages)

end Execution

/-- A label in a column of the given width, and what belongs to it. -/
def labelled (width : Nat) (label value : String) : String :=
  "  " ++ label ++ String.ofList (List.replicate (width - label.length) ' ') ++ " " ++ value

/-- The labelled line of a property. -/
def property (label value : String) : String :=
  labelled 13 label value

/-- The labelled line of a property, if there is one. -/
def optionalProperty (label : String) (value : Option String) : List String :=
  value.toList.map (property label)

/-- An element with its main properties. -/
def elementLines (element : Element) : List String :=
  [property "path" element.path, property "role" element.role] ++
    optionalProperty "identifier" element.properties.identifier ++
    optionalProperty "title" element.properties.title ++
    optionalProperty "description" element.properties.description ++
    optionalProperty "value" element.properties.value ++
    (if element.properties.actions.isEmpty then []
      else [property "actions" (", ".intercalate element.properties.actions.names)]) ++
    if element.children.isEmpty then []
      else [property "children" (toString element.children.length)]

/-- The trace of a walk. -/
def diagnosisLines (diagnosis : Diagnosis) : List String :=
  "\n--- Diagnosis ---" ::
    diagnosis.steps.flatMap fun step =>
      ("  " ++ (if step.fitting = 0 then "✗" else "✓") ++ " [" ++ toString step.position ++ "] " ++
          step.segment.render ++ " (" ++ toString step.fitting ++ " of " ++
          toString step.candidates ++ " candidates)") ::
        step.nearMisses.map fun summary => "      near: " ++ summary

/-- Goes on with the tree in a file. -/
def withTree (surroundings : Surroundings) (service : Service) (file : String)
    (use : Element → Execution) : Execution :=
  match service.capture (Source.ofFile surroundings.files file) .systemWide with
  | .ok root => use root
  | .error error => .failed (("Failed to load snapshot '" ++ file ++ "'") :: error.chain) []

/-- What is said when the random identifiers do not suffice. -/
def exhausted : String :=
  "No identifiers are left."

/-- Resolves a path and shows the element it leads to. -/
def resolve (surroundings : Surroundings) (service : Service) (arguments : Arguments)
    (file path : String) : Execution :=
  withTree surroundings service file fun root =>
    match service.resolve path root with
    | .resolved resolution =>
        let shown := "\nResolved" :: elementLines resolution.element
        let warnings := resolution.warnings.map fun warning => "  warning: " ++ warning.message
        if arguments.has "token" then
          match service.encode? resolution.element.path surroundings.draws with
          | some (token, _, _) => .done (shown ++ [property "id" token] ++ warnings)
          | none => .failed [exhausted] shown
        else
          .done (shown ++ warnings)
    | .ambiguous position count suggestions =>
        .failed ["Path '" ++ path ++ "' is ambiguous."]
          (("\nAmbiguous: segment " ++ toString position ++ " matches " ++ toString count ++
              " elements. Try one of:") ::
            suggestions.map fun suggestion => "  " ++ suggestion)
    | .notFound position reason =>
        let diagnosis := match arguments.has "diagnose", service.diagnose path root with
          | true, .ok diagnosis => diagnosisLines diagnosis
          | _, _ => []
        .failed
          ["Path '" ++ path ++ "' does not resolve (failed at segment " ++ toString position ++
            ")."]
          (("\nNot found: " ++ reason) :: diagnosis)
    | .failed error => .failed [error.message] []

/-- One line per path, with its token before it.  None if the draws do not suffice. -/
def tokenLines? (service : Service) (draws : List OpaqueId) : List String → Option (List String)
  | [] => some []
  | path :: rest => do
      let (token, draws, service) ← service.encode? path draws
      pure ((token ++ "  " ++ path) :: (← tokenLines? service draws rest))

/-- Lists the paths of a tree. -/
def listPaths (surroundings : Surroundings) (service : Service) (arguments : Arguments)
    (file : String) : Execution :=
  withTree surroundings service file fun root =>
    let shown := match arguments.count? "depth" with
      | some depth => Element.truncateAll depth root.topLevel
      | none => root.topLevel
    let paths := (Element.preorderAll shown).map Element.path
    if arguments.has "tokens" then
      match tokenLines? service surroundings.draws paths with
      | some lines => .done lines
      | none => .failed [exhausted] []
    else
      .done paths

/-- The seconds for which the menus of a file count. -/
def menuFileLifetime : Nat :=
  300

/-- The lines for a menu path that was found or not. -/
def menuLines (hierarchy : MenuHierarchy) (text : String) : MenuResolution → List String
  | .exact path =>
      ("Found: " ++ path) ::
        (hierarchy.elementPathFor? path).toList.map (labelled 8 "element")
  | .partialMatch paths => "Partial matches:" :: paths.map fun path => "  " ++ path
  | .suggestions paths =>
      ("Menu path '" ++ text ++ "' not found. Did you mean:") ::
        paths.map fun path => "  " ++ path

/-- Looks up a menu path in the hierarchy of a file.  Without a limit of its own the service
looks it up in what it keeps. -/
def lookUpMenu (surroundings : Surroundings) (service : Service) (arguments : Arguments)
    (file text : String) : Execution :=
  let now := surroundings.now
  let loaded := (MenuFile.load surroundings.files file).map fun contents =>
    MenuHierarchy.capturedAt contents.applicationId contents.menus
      (Duration.ofSeconds menuFileLifetime) now
  match loaded with
  | .error error => .failed error.chain []
  | .ok captured =>
      let fetched : Except Empty MenuHierarchy := .ok captured
      match service.hierarchyOrFetched captured.applicationId fetched now with
      | (.error impossible, _) => nomatch impossible
      | (.ok hierarchy, service) =>
          let found := match arguments.count? "limit" with
            | some limit => (hierarchy.resolve text limit).mapError ServiceError.menu
            | none => (service.resolveMenu hierarchy.applicationId text now).1
          match found with
          | .ok resolution => .done (menuLines hierarchy text resolution)
          | .error error => .failed error.chain []

/-- The lines for changes: what is gone, what has changed, and what is new. -/
def changeLines (changes : ChangeSet) : List String :=
  let modified := changes.modified.map fun modification => modification.after.path
  let added := (changes.newElements.map Element.path).filter fun path => !modified.contains path
  (changes.removedPaths.map ("- " ++ ·)) ++ (modified.map ("~ " ++ ·)) ++
    added.map ("+ " ++ ·)

/-- Compares the trees of two files. -/
def compareTrees (surroundings : Surroundings) (service : Service) (arguments : Arguments)
    (before after : String) : Execution :=
  withTree surroundings service before fun old =>
    withTree surroundings service after fun new =>
      let changes := ChangeSet.betweenTrees old new
      if arguments.has "json" then
        .done [changes.toJson.pretty]
      else if changes.hasChanges then
        .done (changeLines changes)
      else
        .done ["No changes."]

/-- The commands. -/
inductive Command where
  | resolve
  | paths
  | menu
  | diff
  deriving DecidableEq, Repr

namespace Command

/-- All commands in the order in which they are listed. -/
def all : List Command :=
  [.resolve, .paths, .menu, .diff]

/-- The name. -/
def name : Command → String
  | resolve => "resolve"
  | paths => "paths"
  | menu => "menu"
  | diff => "diff"

/-- The other accepted names. -/
def aliases : Command → List String
  | resolve => ["res"]
  | paths => ["ls"]
  | menu | diff => []

/-- The command with a name. -/
def ofName? (word : String) : Option Command :=
  all.find? fun command => command.name = word || command.aliases.contains word

/-- The names of all commands. -/
def listing : String :=
  ", ".intercalate (all.map name)

/-- The option that asks for help. -/
def helpOption : OptionSpec :=
  ⟨"help", some 'h', .help⟩

/-- A required parameter. -/
def required (kind : ValueKind) : Positional :=
  ⟨kind, true, false⟩

/-- The grammar of the words after a command. -/
def grammar : Command → Grammar
  | resolve =>
      { options := [⟨"diagnose", some 'd', .switch⟩, ⟨"token", none, .switch⟩, helpOption]
        positionals := [required .file, required .text] }
  | paths =>
      { options := [⟨"depth", some 'd', .valued .count⟩, ⟨"tokens", none, .switch⟩, helpOption]
        positionals := [required .file] }
  | menu =>
      { options := [⟨"limit", some 'l', .valued .count⟩, helpOption]
        positionals := [required .file, required .text] }
  | diff =>
      { options := [⟨"json", none, .switch⟩, helpOption]
        positionals := [required .file, required .file] }

/-- The files that a command reads. -/
def filesRead (command : Command) (arguments : Arguments) : List String :=
  (command.grammar.positionals.zip arguments.positionals).filterMap fun (slot, value) =>
    if slot.kind = .file then some value else none

/-- Runs a command with its arguments. -/
def run (surroundings : Surroundings) (service : Service) (command : Command)
    (arguments : Arguments) : Execution :=
  match command, arguments.positionals with
  | resolve, [file, path] => CommandLine.resolve surroundings service arguments file path
  | paths, [file] => listPaths surroundings service arguments file
  | menu, [file, text] => lookUpMenu surroundings service arguments file text
  | diff, [before, after] => compareTrees surroundings service arguments before after
  | _, _ => { failure := some (.usage .missingArgument) }

end Command

/-- Runs the command with a name on the words after it. -/
def dispatch (surroundings : Surroundings) (service : Service) (name : String)
    (words : List String) : Execution :=
  match Command.ofName? name with
  | none =>
      .failed ["Unknown command '" ++ name ++ "'. Available commands: " ++ Command.listing ++ "."]
        []
  | some command =>
      match command.grammar.read words with
      | .error error => { failure := some (.usage error) }
      | .ok arguments => command.run surroundings service arguments

end Accessibility.CommandLine
