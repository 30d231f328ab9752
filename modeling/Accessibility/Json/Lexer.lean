import Accessibility.Json.Basic
import Accessibility.Json.Numeral

/-!
# JSON tokens

A text is cut into tokens by a machine that looks at one character at a time.  Literals and
numerals are collected as atoms and judged when they end; the characters of a string are
collected as code points, in which escapes may leave surrogates.
-/

namespace Accessibility.Json

/-- A token. -/
inductive Token where
  | openArray
  | closeArray
  | openObject
  | closeObject
  | comma
  | colon
  | null
  | boolean (value : Bool)
  | number (numeral : String)
  | string (text : Option String)
  deriving Repr

/-- Where the machine stands: between tokens, in an atom, or in a string.  What was collected so
far is in reverse order. -/
inductive Scan where
  | between
  | atom (collected : List Char)
  | string (units : List Nat)
  | escape (units : List Nat)
  | hex (units : List Nat) (missing : Nat) (value : Nat)

/-- Whether a character may stand in a literal or a numeral. -/
def isAtomChar (c : Char) : Bool :=
  c.isAlphanum || c = '-' || c = '+' || c = '.'

/-- The token of an atom. -/
def atomToken? (atom : List Char) : Option Token :=
  match String.ofList atom with
  | "null" => some .null
  | "true" => some (.boolean true)
  | "false" => some (.boolean false)
  | text => (Numeral.ofText? atom).map fun _ => .number text

/-- Whether a code point is the first half of a surrogate pair. -/
def isHighSurrogate (unit : Nat) : Bool :=
  0xD800 ≤ unit && unit < 0xDC00

/-- Whether a code point is the second half of a surrogate pair. -/
def isLowSurrogate (unit : Nat) : Bool :=
  0xDC00 ≤ unit && unit < 0xE000

/-- The text of a list of code points, in which two surrogates that form a pair are one
character.  There is none if a surrogate stands alone. -/
def textOfUnits : List Nat → Option (List Char)
  | [] => some []
  | [unit] =>
      if isHighSurrogate unit || isLowSurrogate unit then none else some [Char.ofNat unit]
  | unit :: next :: rest =>
      if isHighSurrogate unit then
        if isLowSurrogate next then
          (textOfUnits rest).map
            (Char.ofNat (0x10000 + (unit - 0xD800) * 0x400 + (next - 0xDC00)) :: ·)
        else
          none
      else if isLowSurrogate unit then
        none
      else
        (textOfUnits (next :: rest)).map (Char.ofNat unit :: ·)

/-- The character that an escape of one letter stands for. -/
def escaped? : Char → Option Char
  | '"' => some '"'
  | '\\' => some '\\'
  | '/' => some '/'
  | 'b' => some '\x08'
  | 'f' => some '\x0c'
  | 'n' => some '\n'
  | 'r' => some '\r'
  | 't' => some '\t'
  | _ => none

/-- The step at a character between tokens. -/
def begin? (c : Char) : Option (List Token × Scan) :=
  match c with
  | ' ' | '\n' | '\r' | '\t' => some ([], .between)
  | '[' => some ([.openArray], .between)
  | ']' => some ([.closeArray], .between)
  | '\x7b' => some ([.openObject], .between)
  | '\x7d' => some ([.closeObject], .between)
  | ',' => some ([.comma], .between)
  | ':' => some ([.colon], .between)
  | '"' => some ([], .string [])
  | c => if isAtomChar c then some ([], .atom [c]) else none

/-- One step: the tokens that end here and where the machine stands then. -/
def Scan.step? : Scan → Char → Option (List Token × Scan)
  | .between, c => begin? c
  | .atom collected, c =>
      if isAtomChar c then
        some ([], .atom (c :: collected))
      else do
        let token ← atomToken? collected.reverse
        let (tokens, next) ← begin? c
        pure (token :: tokens, next)
  | .string units, c =>
      if c = '"' then
        some ([.string ((textOfUnits units.reverse).map String.ofList)], .between)
      else if c = '\\' then
        some ([], .escape units)
      else if c.toNat < 0x20 then
        none
      else
        some ([], .string (c.toNat :: units))
  | .escape units, c =>
      if c = 'u' then
        some ([], .hex units 4 0)
      else
        (escaped? c).map fun meant => ([], .string (meant.toNat :: units))
  | .hex units missing value, c =>
      (Text.hexDigit? c).map fun digit =>
        if missing ≤ 1 then
          ([], .string ((16 * value + digit) :: units))
        else
          ([], .hex units (missing - 1) (16 * value + digit))

/-- The tokens that end at the end of the text. -/
def Scan.finish? : Scan → Option (List Token)
  | .between => some []
  | .atom collected => (atomToken? collected.reverse).map ([·])
  | _ => none

/-- The tokens of a text, from where the machine stands, after those in `done`, which are in
reverse order. -/
def Scan.tokens? (done : List Token) : Scan → List Char → Option (List Token)
  | scan, [] => scan.finish?.map (done.reverse ++ ·)
  | scan, c :: rest =>
      match scan.step? c with
      | none => none
      | some (tokens, next) => next.tokens? (tokens.reverse ++ done) rest

/-- The tokens of a text. -/
def tokens? (text : List Char) : Option (List Token) :=
  Scan.between.tokens? [] text

end Accessibility.Json
