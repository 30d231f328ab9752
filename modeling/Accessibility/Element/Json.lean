import Accessibility.Element.Basic
import Accessibility.Json.Fields

/-!
# Elements in JSON

The form of an element in snapshot files and in printed change sets.
-/

namespace Accessibility

/-- The number of integers of 64 bits on either side of zero. -/
def Scalar.integerLimit : Int :=
  0x8000000000000000

/-- Reads a scalar attribute value.  A numeral without point and exponent is an integer if it
fits into 64 bits, every other number is a float. -/
def Scalar.ofJson? : Json → Option Scalar
  | .boolean value => some (.boolean value)
  | .string (some value) => some (.text value)
  | .number spelling => do
      let numeral ← Json.Numeral.ofText? spelling.toList
      match numeral.integer? with
      | some value =>
          if -integerLimit ≤ value && value < integerLimit then pure (.integer value)
          else numeral.float?.map .float
      | none => numeral.float?.map .float
  | _ => none

/-- The form of a scalar attribute value. -/
def Scalar.toJson : Scalar → Json
  | .boolean value => .boolean value
  | .integer value => .number (toString value)
  | .float value => .number (Decimal.ofFloat Decimal.json value)
  | .text value => Json.ofText value

/-- Reads a frame; all four numbers are required. -/
def Frame.ofJson? (depth : Nat) (json : Json) : Option Frame :=
  match depth with
  | 0 => none
  | _ + 1 => do
      let fields ← json.fields? ["x", "y", "width", "height"]
      let x ← fields.read? "x" none Json.float?
      let y ← fields.read? "y" none Json.float?
      let width ← fields.read? "width" none Json.float?
      let height ← fields.read? "height" none Json.float?
      pure { x, y, width, height }

/-- The form of a frame. -/
def Frame.toJson (frame : Frame) : Json :=
  let number (value : Float) : Json := .number (Decimal.ofFloat Decimal.json value)
  Json.ofFields
    [("x", number frame.x), ("y", number frame.y), ("width", number frame.width),
      ("height", number frame.height)]

/-- Reads an attribute map; of a repeated name the last value is taken. -/
def attributesOfJson? (depth : Nat) (json : Json) : Option (Dictionary Scalar) :=
  match depth, json with
  | _ + 1, .object members => do
      let entries ← members.mapM fun (name, value) => do
        pure (← name, ← Scalar.ofJson? value)
      pure (Dictionary.ofList entries)
  | _, _ => none

namespace Element

/-- The fields of an element, in the order of the array form. -/
def fieldNames : List String :=
  ["path", "role", "title", "value", "description", "identifier", "frame", "attributes",
    "actions", "children", "parent_path"]

/-- Reads an element that may open `depth` more containers.  Only the role is required. -/
def ofJson? : Nat → Json → Option Element
  | 0, _ => none
  | depth + 1, json => do
      let fields ← json.fields? fieldNames
      let path ← fields.read? "path" (some "") Json.text?
      let role ← fields.read? "role" none Json.text?
      let title ← fields.read? "title" (some none) Json.optionalText?
      let value ← fields.read? "value" (some none) Json.optionalText?
      let description ← fields.read? "description" (some none) Json.optionalText?
      let identifier ← fields.read? "identifier" (some none) Json.optionalText?
      let frame ← fields.read? "frame" (some {}) (Frame.ofJson? depth)
      let attributes ← fields.read? "attributes" (some ∅) (attributesOfJson? depth)
      let actions ← fields.read? "actions" (some []) (Json.items? depth fun _ => Json.text?)
      let children ← fields.read? "children" (some []) fun children =>
        match depth, children with
        | depth + 1, .array items => items.mapM (ofJson? depth)
        | _, _ => none
      let parentPath ← fields.read? "parent_path" (some none) Json.optionalText?
      pure
        { path, parentPath, children
          properties :=
            { role, title, value, description, identifier, frame, attributes
              actions := NameSet.ofNames actions } }

/-- A field that is left out when there is nothing in it. -/
def optionalField (name : String) : Option String → List (String × Json)
  | some text => [(name, Json.ofText text)]
  | none => []

/-- A field with a container that is left out when it is empty. -/
def listField (name : String) (isEmpty : Bool) (json : Json) : List (String × Json) :=
  if isEmpty then [] else [(name, json)]

mutual

/-- The form of an element: path, role and frame always, other fields if there is something in
them. -/
def toJson : Element → Json
  | ⟨path, parentPath, properties, children⟩ =>
      Json.ofFields
        ([("path", Json.ofText path), ("role", Json.ofText properties.role)] ++
          optionalField "title" properties.title ++
          optionalField "value" properties.value ++
          optionalField "description" properties.description ++
          optionalField "identifier" properties.identifier ++
          [("frame", properties.frame.toJson)] ++
          listField "attributes" properties.attributes.isEmpty
            (Json.ofFields (properties.attributes.entries.map fun entry =>
              (entry.1, entry.2.toJson))) ++
          listField "actions" properties.actions.isEmpty
            (.array (properties.actions.names.map Json.ofText)) ++
          listField "children" children.isEmpty (.array (toJsonAll children)) ++
          optionalField "parent_path" parentPath)

/-- The forms of a list of elements. -/
def toJsonAll : List Element → List Json
  | [] => []
  | element :: rest => toJson element :: toJsonAll rest

end

end Element

end Accessibility
