import Accessibility.CommandLine.Command
import Accessibility.Settings.File
import Accessibility.Settings.Location

/-!
# The program

From the words of a command line to what the program prints and the code it ends with.
-/

namespace Accessibility.CommandLine

/-- What is printed: a text, or how the program is used. -/
inductive Printed where
  | text (content : String)
  | usage
  deriving DecidableEq, Repr

/-- How the program ends. -/
structure Finish where
  code : Nat := 0
  output : Printed := .text ""
  errors : Printed := .text ""
  deriving DecidableEq, Repr

/-- The grammar of the whole command line: options of the program, the name of a command, and
the words for it. -/
def programGrammar : Grammar where
  options :=
    [⟨"config", none, .valued .file⟩, ⟨"help", some 'h', .help⟩, ⟨"version", some 'V', .version⟩]
  positionals := [⟨.text, false, false⟩, ⟨.text, false, true⟩]

/-- The settings file of a command line. -/
def settingsFile (environment : Environment) (arguments : Arguments) : String :=
  (arguments.options.lookup "config").getD environment.settingsLocation

/-- The files that the program reads. -/
def filesRead (environment : Environment) (words : List String) : List String :=
  match programGrammar.read words with
  | .error _ => []
  | .ok arguments =>
      settingsFile environment arguments ::
        match arguments.positionals with
        | [] => []
        | name :: rest =>
            match Command.ofName? name with
            | none => []
            | some command =>
                match command.grammar.read rest with
                | .error _ => []
                | .ok arguments => command.filesRead arguments

/-- A number of identifiers that suffices for all elements in files of this size: every element
is written with at least eight characters. -/
def drawsNeeded (size : Nat) : Nat :=
  size / 8 + 2

/-- The end after an error, with the messages of the error and its causes. -/
def Finish.failed (messages : List String) (output : String) : Finish where
  code := 1
  output := .text output
  errors := .text ("\nError: " ++ ": ".intercalate messages ++ "\n")

/-- The end after a command. -/
def Execution.finish (execution : Execution) : Finish :=
  match execution.failure with
  | none => { output := .text execution.output }
  | some (.usage _) => { code := 1, output := .text execution.output, errors := .usage }
  | some (.chain messages) => .failed messages execution.output

/-- What is printed when no command is named. -/
def overview : String :=
  "Usage: axpath <command> [args...]\nCommands: " ++ Command.listing ++ "\n"

/-- Runs the program. -/
def run (environment : Environment) (surroundings : Surroundings) (words : List String) :
    Finish :=
  match programGrammar.read words with
  | .error .help | .error .version => { output := .usage }
  | .error _ => { code := 2, errors := .usage }
  | .ok arguments =>
      match Settings.load surroundings.files (settingsFile environment arguments) with
      | .error error => .failed ("Failed to load settings" :: error.chain) ""
      | .ok settings =>
          match arguments.positionals with
          | [] => { output := .text overview }
          | name :: rest =>
              (dispatch surroundings (Service.ofSettings settings) name rest).finish

end Accessibility.CommandLine
