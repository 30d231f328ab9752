import Accessibility.Json.Basic

/-!
# Writing JSON

The text of a value, on one line or with a line for every item.  In a string only quotes,
backslashes and control characters are escaped.
-/

namespace Accessibility.Json

/-- A digit below sixteen. -/
def hexChar (digit : Nat) : Char :=
  if digit < 10 then Char.ofNat ('0'.toNat + digit) else Char.ofNat ('a'.toNat + digit - 10)

/-- A character inside a string literal. -/
def escapeChar (c : Char) : List Char :=
  match c with
  | '"' => ['\\', '"']
  | '\\' => ['\\', '\\']
  | '\x08' => ['\\', 'b']
  | '\x0c' => ['\\', 'f']
  | '\n' => ['\\', 'n']
  | '\r' => ['\\', 'r']
  | '\t' => ['\\', 't']
  | c =>
      if c.toNat < 0x20 then
        ['\\', 'u', '0', '0', hexChar (c.toNat / 16), hexChar (c.toNat % 16)]
      else
        [c]

/-- The string literal of a text. -/
def quoted (text : String) : String :=
  String.ofList ('"' :: text.toList.flatMap escapeChar ++ ['"'])

mutual

/-- A value on one line without blanks. -/
def compact : Json → String
  | .null => "null"
  | .boolean value => if value then "true" else "false"
  | .number numeral => numeral
  | .string text => quoted (text.getD "")
  | .array items => "[" ++ ",".intercalate (compactItems items) ++ "]"
  | .object members => "\x7b" ++ ",".intercalate (compactMembers members) ++ "\x7d"

/-- The items of an array, each on one line. -/
def compactItems : List Json → List String
  | [] => []
  | item :: rest => compact item :: compactItems rest

/-- The members of an object, each on one line. -/
def compactMembers : List (Option String × Json) → List String
  | [] => []
  | (name, value) :: rest => (quoted (name.getD "") ++ ":" ++ compact value) :: compactMembers rest

end

/-- A line break and two blanks for every level. -/
def newLine (level : Nat) : String :=
  "\n" ++ String.ofList (List.replicate (2 * level) ' ')

/-- Non-empty contents between brackets, each item on a line of its own. -/
def bracketed (opening closing : String) (level : Nat) (items : List String) : String :=
  opening ++ newLine (level + 1) ++ ("," ++ newLine (level + 1)).intercalate items ++
    newLine level ++ closing

mutual

/-- A value on several lines, the further ones indented from `level` on. -/
def prettyAt (level : Nat) : Json → String
  | .array (item :: rest) => bracketed "[" "]" level (prettyItems (level + 1) (item :: rest))
  | .object (member :: rest) =>
      bracketed "\x7b" "\x7d" level (prettyMembers (level + 1) (member :: rest))
  | .null => "null"
  | .boolean value => if value then "true" else "false"
  | .number numeral => numeral
  | .string text => quoted (text.getD "")
  | .array [] => "[]"
  | .object [] => "\x7b\x7d"

/-- The items of an array, indented from `level` on. -/
def prettyItems (level : Nat) : List Json → List String
  | [] => []
  | item :: rest => prettyAt level item :: prettyItems level rest

/-- The members of an object, indented from `level` on. -/
def prettyMembers (level : Nat) : List (Option String × Json) → List String
  | [] => []
  | (name, value) :: rest =>
      (quoted (name.getD "") ++ ": " ++ prettyAt level value) :: prettyMembers level rest

end

/-- A value with a line for every item and two blanks for every level. -/
def pretty (json : Json) : String :=
  prettyAt 0 json

end Accessibility.Json
