import Accessibility.Json.Basic
import Accessibility.Json.Numeral

/-!
# Reading records from JSON

The pieces from which the readers of elements, menus and scopes are made.  A record is an object
with known fields, or an array of their values in order.  A known field may not be repeated, an
unknown one is not looked at.

Containers that are read nest to a limited depth, which the readers count down.
-/

namespace Accessibility.Json

/-- The number of containers that may be nested in a file. -/
def depthLimit : Nat :=
  127

/-- The text of a string literal. -/
def text? : Json → Option String
  | .string text => text
  | _ => none

/-- The text of a string literal; `null` stands for no text. -/
def optionalText? : Json → Option (Option String)
  | .null => some none
  | .string (some text) => some (some text)
  | _ => none

/-- A truth value. -/
def boolean? : Json → Option Bool
  | .boolean value => some value
  | _ => none

/-- The binary64 number of a numeral. -/
def float? : Json → Option Float
  | .number numeral => (Numeral.ofText? numeral.toList).bind Numeral.float?
  | _ => none

/-- The items of an array that stands at most `depth` containers above the limit; their own
readers get what is left. -/
def items? {α : Type} (depth : Nat) (item? : Nat → Json → Option α) : Json → Option (List α)
  | .array items =>
      match depth with
      | 0 => none
      | depth + 1 => items.mapM (item? depth)
  | _ => none

/-- The values of the known fields of a record, by name. -/
structure Fields where
  values : List (String × Json)

/-- The value of a field. -/
def Fields.get? (fields : Fields) (name : String) : Option Json :=
  fields.values.lookup name

/-- Reads a field with `read?`; a field that is missing has the given value. -/
def Fields.read? {α : Type} (fields : Fields) (name : String) (missing : Option α)
    (read? : Json → Option α) : Option α :=
  match fields.get? name with
  | some value => read? value
  | none => missing

/-- The members with known names.  None if a name denotes no text or a known one is repeated. -/
def knownMembers? (names : List String) :
    List (Option String × Json) → Option (List (String × Json))
  | [] => some []
  | (none, _) :: _ => none
  | (some name, value) :: rest => do
      let others ← knownMembers? names rest
      if !names.contains name then
        pure others
      else if (others.lookup name).isSome then
        none
      else
        pure ((name, value) :: others)

/-- The fields of a record with these names. -/
def fields? (names : List String) : Json → Option Fields
  | .object members => (knownMembers? names members).map Fields.mk
  | .array items => if items.length ≤ names.length then some ⟨names.zip items⟩ else none
  | _ => none

end Accessibility.Json
