/-!
# JSON values

A JSON value as it is written: numbers keep their numerals, objects keep the order and the
repetitions of their members, and a string literal that denotes no text is still a value.
What a number or a repetition means is for the reader of the value to say.
-/

namespace Accessibility

/-- A JSON value. -/
inductive Json where
  | null
  | boolean (value : Bool)
  | number (numeral : String)
  /-- A string literal and its text.  There is none when an escape leaves half of a surrogate
  pair. -/
  | string (text : Option String)
  | array (items : List Json)
  | object (members : List (Option String × Json))
  deriving Repr, Inhabited

namespace Json

/-- The string literal of a text. -/
def ofText (text : String) : Json :=
  .string (some text)

/-- The numeral of a natural number. -/
def ofNat (n : Nat) : Json :=
  .number (toString n)

/-- The object with these members. -/
def ofFields (fields : List (String × Json)) : Json :=
  .object (fields.map fun field => (some field.1, field.2))

/-- The value of an optional text: the text or `null`. -/
def ofText? : Option String → Json
  | some text => ofText text
  | none => null

end Json

end Accessibility
