/-!
# Arguments

How the words of a command line are read by a grammar.  Options may stand anywhere before the
mark `--`; the other words are positional.  The value of an option is its own word, or follows
the name behind `=`, or for one letter directly.  A last positional parameter may take all words
that are left, whatever they look like.
-/

namespace Accessibility.CommandLine

/-- Why a command line is refused, or what it asks for instead. -/
inductive UsageError where
  | unknownArgument
  | tooManyValues
  | repeatedOption
  /-- An option without its value, or a file without a name. -/
  | invalidValue
  | malformedValue
  | missingArgument
  | help
  | version
  deriving DecidableEq, Repr

/-- What a value is. -/
inductive ValueKind where
  | text
  | file
  | count
  deriving DecidableEq, Repr

/-- What an option does. -/
inductive OptionKind where
  | switch
  | valued (kind : ValueKind)
  | help
  | version
  deriving DecidableEq, Repr

/-- An option: its name, perhaps a letter, and what it does. -/
structure OptionSpec where
  name : String
  letter : Option Char
  kind : OptionKind
  deriving DecidableEq, Repr

/-- A positional parameter. -/
structure Positional where
  kind : ValueKind
  required : Bool
  /-- Whether it takes all words from its first one on. -/
  takesRest : Bool
  deriving DecidableEq, Repr

/-- What a command line may look like. -/
structure Grammar where
  options : List OptionSpec
  positionals : List Positional
  deriving DecidableEq, Repr

/-- What a command line says. -/
structure Arguments where
  /-- The values of options by name; switches have the empty one. -/
  options : List (String × String) := []
  positionals : List String := []
  deriving DecidableEq, Repr

/-- The largest count. -/
def countLimit : Nat :=
  UInt64.size - 1

/-- The count a word is: decimal digits, perhaps after a plus sign. -/
def count? (word : String) : Option Nat :=
  let digits := match word.toList with
    | '+' :: rest => rest
    | digits => digits
  let value := Nat.ofDigitChars 10 digits 0
  if !digits.isEmpty && digits.all Char.isDigit && value ≤ countLimit then some value else none

/-- Checks a value. -/
def ValueKind.check (kind : ValueKind) (value : String) : Except UsageError Unit :=
  match kind with
  | .text => .ok ()
  | .file => if value.isEmpty then .error .invalidValue else .ok ()
  | .count => if (count? value).isSome then .ok () else .error .malformedValue

namespace Arguments

/-- Whether an option is given. -/
def has (arguments : Arguments) (name : String) : Bool :=
  (arguments.options.lookup name).isSome

/-- The count that is the value of an option. -/
def count? (arguments : Arguments) (name : String) : Option Nat :=
  (arguments.options.lookup name).bind CommandLine.count?

end Arguments

/-- What has been read last and is not checked yet. -/
inductive Pending where
  | option (name : String) (kind : ValueKind) (value : Option String)
  | positional (kind : ValueKind) (value : String)
  deriving DecidableEq, Repr

/-- The state of reading a command line. -/
structure Reading where
  arguments : Arguments := {}
  pending : Option Pending := none
  /-- The number of positional words. -/
  taken : Nat := 0
  /-- Whether all further words are positional. -/
  verbatim : Bool := false
  deriving DecidableEq, Repr

namespace Reading

/-- Notes an option, which may be given once. -/
def note (name value : String) (reading : Reading) : Except UsageError Reading :=
  if reading.arguments.has name then
    .error .repeatedOption
  else
    .ok
      { reading with
        arguments :=
          { reading.arguments with options := (name, value) :: reading.arguments.options }
        pending := none }

/-- Checks what has been read last. -/
def settle (reading : Reading) : Except UsageError Reading :=
  match reading.pending with
  | none => .ok reading
  | some (.option _ _ none) => .error .invalidValue
  | some (.option name kind (some value)) => do
      let noted ← reading.note name value
      kind.check value
      pure noted
  | some (.positional kind value) => do
      kind.check value
      pure
        { reading with
          arguments :=
            { reading.arguments with
              positionals := reading.arguments.positionals ++ [value] }
          pending := none }

/-- Notes an option by what it does; `value` stands behind its name. -/
def take (option : OptionSpec) (value : Option String) (reading : Reading) :
    Except UsageError Reading := do
  let settled ← reading.settle
  match option.kind, value with
  | .help, _ => throw .help
  | .version, _ => throw .version
  | .switch, _ => settled.note option.name ""
  | .valued kind, none => pure { settled with pending := some (.option option.name kind none) }
  | .valued kind, some value =>
      settle { settled with pending := some (.option option.name kind (some value)) }

/-- Whether the word before was an option whose value must follow. -/
def awaitsValue (reading : Reading) : Bool :=
  match reading.pending with
  | some (.option _ _ none) => true
  | _ => false

/-- Takes a word as the value of the option before it. -/
def supply (word : String) (reading : Reading) : Reading :=
  match reading.pending with
  | some (.option name kind none) =>
      { reading with pending := some (.option name kind (some word)) }
  | _ => reading

end Reading

namespace Grammar

/-- The option with a name. -/
def named? (grammar : Grammar) (name : String) : Option OptionSpec :=
  grammar.options.find? fun option => option.name = name

/-- The option with a letter. -/
def lettered? (grammar : Grammar) (letter : Char) : Option OptionSpec :=
  grammar.options.find? fun option => option.letter = some letter

/-- The parameter for the positional word after so many others. -/
def slot? (grammar : Grammar) (taken : Nat) : Option Positional :=
  grammar.positionals[taken]?.or (grammar.positionals.getLast?.filter Positional.takesRest)

/-- Whether the next positional word may look like an option. -/
def takesAnything (grammar : Grammar) (reading : Reading) : Bool :=
  match grammar.slot? reading.taken with
  | some slot => slot.takesRest
  | none => false

/-- Reads a positional word. -/
def takeWord (grammar : Grammar) (word : String) (reading : Reading) :
    Except UsageError Reading :=
  match grammar.slot? reading.taken with
  | none => .error .unknownArgument
  | some slot => do
      let settled ← reading.settle
      pure
        { settled with
          pending := some (.positional slot.kind word)
          taken := settled.taken + 1
          verbatim := settled.verbatim || slot.takesRest }

/-- Reads a word that is taken as it is: as the value that the option before it awaits, or as a
positional word. -/
def takePlain (grammar : Grammar) (word : String) (reading : Reading) :
    Except UsageError Reading :=
  if reading.awaitsValue then .ok (reading.supply word) else grammar.takeWord word reading

/-- Reads a word that begins like the name of an option, given without the two dashes. -/
def takeNamed (grammar : Grammar) (word : String) (body : List Char) (reading : Reading) :
    Except UsageError Reading :=
  let (name, rest) := body.span (· ≠ '=')
  match grammar.named? (String.ofList name), rest with
  | none, _ =>
      if grammar.takesAnything reading then grammar.takePlain word reading
      else .error .unknownArgument
  | some option, [] => reading.take option none
  | some option, _ :: value =>
      match option.kind with
      | .valued _ => reading.take option (some (String.ofList value))
      | _ => .error .tooManyValues

/-- Reads options by their letters. -/
def takeLetters (grammar : Grammar) : List Char → Reading → Except UsageError Reading
  | [], reading => .ok reading
  | letter :: rest, reading =>
      match grammar.lettered? letter with
      | none => .error .unknownArgument
      | some option =>
          match option.kind, rest with
          | .valued _, [] => reading.take option none
          | .valued _, '=' :: value => reading.take option (some (String.ofList value))
          | .valued _, value => reading.take option (some (String.ofList value))
          | _, rest => do
              let noted ← reading.take option none
              grammar.takeLetters rest noted

/-- Reads a word that begins like letters of options, given without the dash. -/
def takeLettered (grammar : Grammar) (word : String) (letters : List Char) (reading : Reading) :
    Except UsageError Reading :=
  if grammar.takesAnything reading && letters.any fun c => (grammar.lettered? c).isNone then
    grammar.takePlain word reading
  else
    grammar.takeLetters letters reading

/-- Reads one word. -/
def step (grammar : Grammar) (reading : Reading) (word : String) :
    Except UsageError Reading :=
  if reading.verbatim then
    grammar.takeWord word reading
  else
    match word.toList with
    | ['-', '-'] => .ok { reading with verbatim := true }
    | '-' :: '-' :: body => grammar.takeNamed word body reading
    | '-' :: c :: letters => grammar.takeLettered word (c :: letters) reading
    | _ => grammar.takePlain word reading

/-- Reads the words of a command line. -/
def read (grammar : Grammar) (words : List String) : Except UsageError Arguments := do
  let reading ← words.foldlM grammar.step {}
  let settled ← reading.settle
  if settled.taken < (grammar.positionals.filter Positional.required).length then
    throw .missingArgument
  pure settled.arguments

end Grammar

end Accessibility.CommandLine
