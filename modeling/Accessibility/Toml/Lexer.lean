import Accessibility.Text.Digits

/-!
# TOML tokens

A document is cut into tokens by a machine that looks at one character at a time.  Dots are
tokens of their own, in keys as well as in numbers, and so are blanks, because brackets that
belong together stand side by side.  Comments are no tokens.
-/

namespace Accessibility.Toml

/-- A token. -/
inductive Token where
  | dot
  | equals
  | comma
  | openBracket
  | closeBracket
  | openBrace
  | closeBrace
  | blank (c : Char)
  | newLine
  /-- A string; those between three quotes may have several lines and are no keys. -/
  | string (text : String) (isKey : Bool)
  /-- Anything else. -/
  | atom (text : List Char)
  deriving DecidableEq, Repr

/-- The quotes of a string. -/
structure Quotes where
  mark : Char
  triple : Bool
  deriving DecidableEq, Repr

/-- Whether backslashes escape between these quotes. -/
def Quotes.escapes (quotes : Quotes) : Bool :=
  quotes.mark = '"'

/-- Where the machine stands.  What was collected so far is in reverse order. -/
inductive Scan where
  | between
  | atom (collected : List Char)
  | comment
  /-- After one or two opening quotes. -/
  | opening (mark : Char) (count : Nat)
  /-- After three opening quotes, where a line feed does not count. -/
  | opened (mark : Char)
  | inside (quotes : Quotes) (collected : List Char)
  /-- After quotes that may end a string between three of them. -/
  | closing (quotes : Quotes) (collected : List Char) (count : Nat)
  | escape (quotes : Quotes) (collected : List Char)
  | hex (quotes : Quotes) (collected : List Char) (missing value : Nat)
  /-- After a backslash at the end of a line, before and after the line feed. -/
  | folding (quotes : Quotes) (collected : List Char) (broken : Bool)

/-- Whether a character may stand in strings and comments: no control characters. -/
def isPlain (c : Char) : Bool :=
  c = '\t' || (0x20 ≤ c.toNat && c.toNat ≠ 0x7F)

/-- The token of a string. -/
def stringToken (quotes : Quotes) (collected : List Char) : Token :=
  .string (String.ofList collected.reverse) (!quotes.triple)

/-- The step at a character between tokens. -/
def begin (c : Char) : List Token × Scan :=
  match c with
  | '.' => ([.dot], .between)
  | '=' => ([.equals], .between)
  | ',' => ([.comma], .between)
  | '[' => ([.openBracket], .between)
  | ']' => ([.closeBracket], .between)
  | '\x7b' => ([.openBrace], .between)
  | '\x7d' => ([.closeBrace], .between)
  | ' ' | '\t' => ([.blank c], .between)
  | '\n' => ([.newLine], .between)
  | '#' => ([], .comment)
  | '"' | '\'' => ([], .opening c 1)
  | c => ([], .atom [c])

/-- Whether a character ends an atom. -/
def endsAtom (c : Char) : Bool :=
  ".=,[]\x7b\x7d \t\n#\"'".toList.contains c

/-- The step at a character of a string. -/
def insideStep? (quotes : Quotes) (collected : List Char) (c : Char) :
    Option (List Token × Scan) :=
  if c = quotes.mark then
    if quotes.triple then some ([], .closing quotes collected 1)
    else some ([stringToken quotes collected], .between)
  else if c = '\\' && quotes.escapes then
    some ([], .escape quotes collected)
  else if isPlain c || (c = '\n' && quotes.triple) then
    some ([], .inside quotes (c :: collected))
  else
    none

/-- The character that an escape of one letter stands for. -/
def escaped? : Char → Option Char
  | '"' => some '"'
  | '\\' => some '\\'
  | 'b' => some '\x08'
  | 'e' => some '\x1b'
  | 'f' => some '\x0c'
  | 'n' => some '\n'
  | 'r' => some '\r'
  | 't' => some '\t'
  | _ => none

/-- The number of digits of an escape by number. -/
def escapeDigits? : Char → Option Nat
  | 'x' => some 2
  | 'u' => some 4
  | 'U' => some 8
  | _ => none

/-- The step at the character after a backslash. -/
def escapeStep? (quotes : Quotes) (collected : List Char) (c : Char) : Option Scan :=
  match escapeDigits? c with
  | some count => some (.hex quotes collected count 0)
  | none =>
      match escaped? c with
      | some meant => some (.inside quotes (meant :: collected))
      | none =>
          if quotes.triple && (c = ' ' || c = '\t') then some (.folding quotes collected false)
          else if quotes.triple && c = '\n' then some (.folding quotes collected true)
          else none

/-- The step at a digit of an escape by number. -/
def hexStep? (quotes : Quotes) (collected : List Char) (missing value : Nat) (c : Char) :
    Option Scan := do
  let digit ← Text.hexDigit? c
  let value := 16 * value + digit
  if 1 < missing then
    some (.hex quotes collected (missing - 1) value)
  else if value.isValidChar then
    some (.inside quotes (Char.ofNat value :: collected))
  else
    none

/-- One step: the tokens that end here and where the machine stands then. -/
def Scan.step? : Scan → Char → Option (List Token × Scan)
  | .between, c => some (begin c)
  | .atom collected, c =>
      if endsAtom c then
        let (tokens, next) := begin c
        some (.atom collected.reverse :: tokens, next)
      else
        some ([], .atom (c :: collected))
  | .comment, c =>
      if c = '\n' then some ([.newLine], .between)
      else if isPlain c then some ([], .comment)
      else none
  | .opening mark 1, c =>
      if c = mark then some ([], .opening mark 2) else insideStep? ⟨mark, false⟩ [] c
  | .opening mark _, c =>
      if c = mark then
        some ([], .opened mark)
      else
        let (tokens, next) := begin c
        some (stringToken ⟨mark, false⟩ [] :: tokens, next)
  | .opened mark, c =>
      if c = '\n' then some ([], .inside ⟨mark, true⟩ []) else insideStep? ⟨mark, true⟩ [] c
  | .inside quotes collected, c => insideStep? quotes collected c
  | .closing quotes collected count, c =>
      if c = quotes.mark then
        if count = 4 then
          some ([stringToken quotes (quotes.mark :: quotes.mark :: collected)], .between)
        else
          some ([], .closing quotes collected (count + 1))
      else if 3 ≤ count then
        let (tokens, next) := begin c
        some (stringToken quotes (List.replicate (count - 3) quotes.mark ++ collected) :: tokens,
          next)
      else
        insideStep? quotes (List.replicate count quotes.mark ++ collected) c
  | .escape quotes collected, c => (escapeStep? quotes collected c).map ([], ·)
  | .hex quotes collected missing value, c =>
      (hexStep? quotes collected missing value c).map ([], ·)
  | .folding quotes collected broken, c =>
      if c = ' ' || c = '\t' then some ([], .folding quotes collected broken)
      else if c = '\n' then some ([], .folding quotes collected true)
      else if broken then insideStep? quotes collected c
      else none

/-- The tokens that end at the end of the document. -/
def Scan.finish? : Scan → Option (List Token)
  | .between | .comment => some []
  | .atom collected => some [.atom collected.reverse]
  | .opening mark 2 => some [stringToken ⟨mark, false⟩ []]
  | .closing quotes collected count =>
      if 3 ≤ count then
        some [stringToken quotes (List.replicate (count - 3) quotes.mark ++ collected)]
      else
        none
  | _ => none

/-- The tokens of a text, from where the machine stands, after those in `done`, which are in
reverse order. -/
def Scan.tokens? (done : List Token) : Scan → List Char → Option (List Token)
  | scan, [] => scan.finish?.map (done.reverse ++ ·)
  | scan, c :: rest =>
      match scan.step? c with
      | none => none
      | some (tokens, next) => next.tokens? (tokens.reverse ++ done) rest

/-- The text with a line feed in place of every carriage return before one. -/
def lineFeeds : List Char → List Char
  | '\r' :: '\n' :: rest => '\n' :: lineFeeds rest
  | c :: rest => c :: lineFeeds rest
  | [] => []

/-- The text without the mark of its encoding. -/
def withoutMark : List Char → List Char
  | '\ufeff' :: rest => rest
  | text => text

/-- The tokens of a document. -/
def tokens? (document : List Char) : Option (List Token) :=
  Scan.between.tokens? [] (lineFeeds (withoutMark document))

end Accessibility.Toml
