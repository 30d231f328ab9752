import Accessibility.Json.Lexer

/-!
# Reading JSON

A machine with a stack assembles the tokens of a text into a value.  The grammar is the strict
one: no comments, no trailing commas, and nothing but blanks around the value.  The depth of
nesting has no limit here; a reader of the value may set one.
-/

namespace Accessibility.Json

/-- An enclosing container: what it holds so far, the last first, and for an object the name of
the member whose value is being read. -/
inductive Enclosing where
  | items (before : List Json)
  | member (before : List (Option String × Json)) (name : Option String)

/-- What may come next. -/
inductive Stage where
  | value
  | firstItem
  | firstMember
  | nextMember (before : List (Option String × Json))
  | colon (before : List (Option String × Json)) (name : Option String)
  /-- A value has ended. -/
  | ended (json : Json)

/-- The step at a token where a value may start. -/
def startValue? (enclosing : List Enclosing) : Token → Option (List Enclosing × Stage)
  | .null => some (enclosing, .ended .null)
  | .boolean value => some (enclosing, .ended (.boolean value))
  | .number numeral => some (enclosing, .ended (.number numeral))
  | .string text => some (enclosing, .ended (.string text))
  | .openArray => some (.items [] :: enclosing, .firstItem)
  | .openObject => some (enclosing, .firstMember)
  | _ => none

/-- One step of the machine. -/
def advance? : List Enclosing × Stage → Token → Option (List Enclosing × Stage)
  | (enclosing, .value), token => startValue? enclosing token
  | (.items [] :: enclosing, .firstItem), .closeArray => some (enclosing, .ended (.array []))
  | (enclosing, .firstItem), token => startValue? enclosing token
  | (enclosing, .firstMember), .closeObject => some (enclosing, .ended (.object []))
  | (enclosing, .firstMember), .string name => some (enclosing, .colon [] name)
  | (enclosing, .nextMember before), .string name => some (enclosing, .colon before name)
  | (enclosing, .colon before name), .colon => some (.member before name :: enclosing, .value)
  | (.items before :: enclosing, .ended json), .comma =>
      some (.items (json :: before) :: enclosing, .value)
  | (.items before :: enclosing, .ended json), .closeArray =>
      some (enclosing, .ended (.array (json :: before).reverse))
  | (.member before name :: enclosing, .ended json), .comma =>
      some (enclosing, .nextMember ((name, json) :: before))
  | (.member before name :: enclosing, .ended json), .closeObject =>
      some (enclosing, .ended (.object ((name, json) :: before).reverse))
  | _, _ => none

/-- The value a list of tokens spells. -/
def ofTokens? (tokens : List Token) : Option Json :=
  match tokens.foldlM advance? ([], .value) with
  | some ([], .ended json) => some json
  | _ => none

/-- The value a text spells. -/
def parse? (text : String) : Option Json :=
  (tokens? text.toList).bind ofTokens?

end Accessibility.Json
