import Accessibility.Toml.Lexer
import Accessibility.Toml.Scalar

/-!
# Reading TOML

A machine with a stack goes through the tokens of a document and adds its definitions one by
one.  Arrays and tables between braces may have several lines and a comma after their last item,
and may nest to a limited depth.
-/

namespace Accessibility.Toml

/-- The number of containers that may be nested in a value. -/
def depthLimit : Nat :=
  80

/-- What a value is being read for: the definition of a key, or a container around it, with what
it holds so far.  The items of an array are in reverse order; a table between braces also has the
key of the value. -/
inductive Purpose where
  | definition (key : Key)
  | items (before : List Toml)
  | entries (before : Entries) (key : Option Key)

/-- What a key is for. -/
inductive KeyUse where
  | definition
  | header
  | arrayHeader
  | entry
  deriving DecidableEq, Repr

/-- What may come next. -/
inductive Stage where
  /-- A definition or a header. -/
  | statement
  /-- A second bracket, or the key of a header. -/
  | header
  /-- A name of a key; the names before it are in reverse order. -/
  | name (use : KeyUse) (before : List String)
  /-- What follows a name of a key. -/
  | afterName (use : KeyUse) (key : Key)
  /-- The second closing bracket of a header. -/
  | closing (key : Key)
  | value
  /-- More of a scalar. -/
  | scalar (collected : List Char)
  /-- The time after a date and a blank, or what follows the date. -/
  | time (collected : List Char)
  /-- An item, an entry, or the end of the container. -/
  | item
  /-- A comma or the end of the container. -/
  | afterItem
  | lineEnd
  deriving DecidableEq, Repr

/-- The machine: the document so far, the names of the latest header, what values are being read
for, the innermost first, and what may come next. -/
structure Machine where
  document : Entries := []
  header : List String := []
  purposes : List Purpose := []
  stage : Stage := .statement

/-- Whether a text may be a name without quotes. -/
def isBareName (text : List Char) : Bool :=
  text.all fun c => c.isAlphanum || c = '-' || c = '_'

/-- The name a token is. -/
def Token.name? : Token → Option String
  | atom text => if isBareName text then some (String.ofList text) else none
  | string text true => some text
  | _ => none

namespace Machine

/-- The machine at a stage. -/
def goto (stage : Stage) (machine : Machine) : Machine :=
  { machine with stage }

/-- Uses a complete value. -/
def settle? (value : Toml) (machine : Machine) : Option Machine :=
  match machine.purposes with
  | .definition key :: _ =>
      (bindBelow? machine.header key value machine.document).map fun document =>
        { machine with document, purposes := [], stage := .lineEnd }
  | .items before :: outer =>
      some { machine with purposes := .items (value :: before) :: outer, stage := .afterItem }
  | .entries before (some key) :: outer =>
      (bind? key value .inline before).map fun entries =>
        { machine with purposes := .entries entries none :: outer, stage := .afterItem }
  | _ => none

/-- Reads a container; the definition around all containers does not count as one. -/
def enter? (purpose : Purpose) (machine : Machine) : Option Machine :=
  if depthLimit < machine.purposes.length then
    none
  else
    some { machine with purposes := purpose :: machine.purposes, stage := .item }

/-- The step at the first token of a value. -/
def startValue? (machine : Machine) : Token → Option Machine
  | .string text _ => machine.settle? (.string text)
  | .openBracket => machine.enter? (.items [])
  | .openBrace => machine.enter? (.entries [] none)
  | .atom text => some (machine.goto (.scalar text))
  | _ => none

/-- The step at the end of a container. -/
def leave? (machine : Machine) (token : Token) : Option Machine :=
  match machine.purposes, token with
  | .items before :: outer, .closeBracket =>
      settle? (.array before.reverse) { machine with purposes := outer }
  | .entries before none :: outer, .closeBrace =>
      settle? (.table .inline before) { machine with purposes := outer }
  | _, _ => none

/-- The step at the start of a name. -/
def startName? (use : KeyUse) (before : List String) (machine : Machine) (token : Token) :
    Option Machine :=
  token.name?.map fun name => machine.goto (.afterName use ⟨before.reverse, name⟩)

/-- The step at the first token of an item or an entry. -/
def startItem? (machine : Machine) (token : Token) : Option Machine :=
  match machine.purposes with
  | .items _ :: _ => machine.startValue? token
  | .entries .. :: _ => machine.startName? .entry [] token
  | _ => none

/-- The step at the end of a header. -/
def openHeader? (isArray : Bool) (key : Key) (machine : Machine) : Option Machine :=
  (if isArray then openNext? key machine.document else openTable? key machine.document).map
    fun document => { machine with document, header := key.names, stage := .lineEnd }

/-- The step at the token after a complete key. -/
def afterKey? (use : KeyUse) (key : Key) (machine : Machine) (token : Token) : Option Machine :=
  match use, token, machine.purposes with
  | .definition, .equals, [] => some { machine with purposes := [.definition key], stage := .value }
  | .entry, .equals, .entries before _ :: outer =>
      some { machine with purposes := .entries before (some key) :: outer, stage := .value }
  | .header, .closeBracket, _ => machine.openHeader? false key
  | .arrayHeader, .closeBracket, _ => some (machine.goto (.closing key))
  | _, _, _ => none

/-- The step at the token after a complete value. -/
def afterValue? (machine : Machine) (token : Token) : Option Machine :=
  match machine.stage, token with
  | .lineEnd, .blank _ => some machine
  | .lineEnd, .newLine => some (machine.goto .statement)
  | .afterItem, .blank _ => some machine
  | .afterItem, .newLine => some machine
  | .afterItem, .comma => some (machine.goto .item)
  | .afterItem, token => machine.leave? token
  | _, _ => none

/-- Uses the scalar that was collected. -/
def settleScalar? (collected : List Char) (machine : Machine) : Option Machine :=
  (scalar? collected).bind (settle? · machine)

/-- One step of the machine. -/
def step? (machine : Machine) (token : Token) : Option Machine :=
  match machine.stage, token with
  | .statement, .blank _ => some machine
  | .statement, .newLine => some machine
  | .statement, .openBracket => some (machine.goto .header)
  | .statement, token => machine.startName? .definition [] token
  | .header, .openBracket => some (machine.goto (.name .arrayHeader []))
  | .header, .blank _ => some (machine.goto (.name .header []))
  | .header, token => machine.startName? .header [] token
  | .name .., .blank _ => some machine
  | .name use before, token => machine.startName? use before token
  | .afterName .., .blank _ => some machine
  | .afterName use key, .dot => some (machine.goto (.name use (key.name :: key.path.reverse)))
  | .afterName use key, token => machine.afterKey? use key token
  | .closing key, .closeBracket => machine.openHeader? true key
  | .closing _, _ => none
  | .value, .blank _ => some machine
  | .value, token => machine.startValue? token
  | .scalar collected, .atom text => some (machine.goto (.scalar (collected ++ text)))
  | .scalar collected, .dot => some (machine.goto (.scalar (collected ++ ['.'])))
  | .scalar collected, .blank ' ' =>
      if skipDate? collected = some [] then some (machine.goto (.time collected))
      else machine.settleScalar? collected
  | .scalar collected, token => (machine.settleScalar? collected).bind (afterValue? · token)
  | .time collected, .atom text => some (machine.goto (.scalar (collected ++ ' ' :: text)))
  | .time collected, token => (machine.settleScalar? collected).bind (afterValue? · token)
  | .item, .blank _ => some machine
  | .item, .newLine => some machine
  | .item, .closeBracket => machine.leave? .closeBracket
  | .item, .closeBrace => machine.leave? .closeBrace
  | .item, token => machine.startItem? token
  | .afterItem, token => machine.afterValue? token
  | .lineEnd, token => machine.afterValue? token

/-- The document at its end. -/
def finish? (machine : Machine) : Option Entries :=
  match machine.stage with
  | .statement | .lineEnd => some machine.document
  | .scalar collected | .time collected =>
      (machine.settleScalar? collected).bind fun settled =>
        if settled.stage = .lineEnd then some settled.document else none
  | _ => none

end Machine

/-- The entries of a document. -/
def parse? (document : String) : Option Entries := do
  let tokens ← tokens? document.toList
  let machine ← tokens.foldlM Machine.step? {}
  machine.finish?

end Accessibility.Toml
