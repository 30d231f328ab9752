import Accessibility.Text.Digits
import Accessibility.Toml.Basic

/-!
# TOML scalars

The values that are written without quotes: truth values, integers, floats, dates and times.
Underscores may stand between digits, and only there.
-/

namespace Accessibility.Toml

/-- The values of digits with underscores between them. -/
def grouped? (base : Nat) : List Char → Option (List Nat)
  | [] => none
  | [c] => (Text.digit? base c).map ([·])
  | c :: '_' :: rest => do pure ((← Text.digit? base c) :: (← grouped? base rest))
  | c :: d :: rest => do pure ((← Text.digit? base c) :: (← grouped? base (d :: rest)))

/-- The digits of a whole number without a superfluous zero. -/
def whole? (text : List Char) : Option (List Nat) :=
  (grouped? 10 text).filter fun digits => digits.length = 1 || digits.head? ≠ some 0

/-- The number a text is in a base, if it is not negative. -/
def natural? : List Char → Option Nat
  | '0' :: 'x' :: digits => (grouped? 16 digits).map (Text.numberOf 16)
  | '0' :: 'o' :: digits => (grouped? 8 digits).map (Text.numberOf 8)
  | '0' :: 'b' :: digits => (grouped? 2 digits).map (Text.numberOf 2)
  | '+' :: digits => (whole? digits).map (Text.numberOf 10)
  | digits => (whole? digits).map (Text.numberOf 10)

/-- The integer a text is, of any size. -/
def integer? (text : List Char) : Option Int :=
  match text with
  | '-' :: digits => (whole? digits).map fun digits => -(Text.numberOf 10 digits : Int)
  | _ => (natural? text).map Int.ofNat

/-- The value of an integer.  It has at most 128 bits, with or without a sign. -/
def ofInteger (number : Int) : Toml :=
  if -(1 <<< 127) ≤ number && number < 1 <<< 128 then .integer number else .excessive

/-- A sign and what follows it. -/
def takeSign : List Char → Bool × List Char
  | '-' :: rest => (true, rest)
  | '+' :: rest => (false, rest)
  | text => (false, text)

/-- The number that digits with an exponent of ten are; infinity if it is too large for
binary64. -/
def scaled (digits : List Nat) (exponent : Int) : Float :=
  let significand := Text.numberOf 10 digits
  if significand = 0 || (digits.length : Int) + exponent < -400 then
    0
  else if 400 < exponent then
    1 / 0
  else
    Float.ofScientific significand (exponent < 0) exponent.natAbs

/-- The fraction after a point, if there is one, and what follows it. -/
def takeFraction? : List Char → Option (List Nat × List Char)
  | '.' :: rest =>
      let (fraction, after) := rest.span fun c => c.isDigit || c = '_'
      (grouped? 10 fraction).map fun digits => (digits, after)
  | text => some ([], text)

/-- The exponent at the end of a float. -/
def exponent? : List Char → Option Int
  | [] => some 0
  | mark :: rest =>
      if mark = 'e' || mark = 'E' then
        let (negative, digits) := takeSign rest
        (grouped? 10 digits).map fun digits =>
          let size : Int := Text.numberOf 10 digits
          if negative then -size else size
      else
        none

/-- The float a text without a sign is; infinity if it is too large for binary64. -/
def magnitude? (text : List Char) : Option Float := do
  if text = "inf".toList then
    return 1 / 0
  if text = "nan".toList then
    return 0 / 0
  let (whole, rest) := text.span fun c => c.isDigit || c = '_'
  let digits ← whole? whole
  let (fraction, rest) ← takeFraction? rest
  let exponent ← exponent? rest
  pure (scaled (digits ++ fraction) (exponent - (fraction.length : Int)))

/-- The value of the float a text is.  Only the word for it stands for infinity. -/
def float? (text : List Char) : Option Toml :=
  let (negative, rest) := takeSign text
  (magnitude? rest).map fun size =>
    if size.isInf && rest ≠ "inf".toList then .excessive
    else .float (if negative then -size else size)

/-- A number with a fixed count of digits at the front of a text, and what follows it. -/
def takeFixed? (count : Nat) (text : List Char) : Option (Nat × List Char) :=
  let digits := (text.take count).filterMap (Text.digit? 10)
  if digits.length = count then some (Text.numberOf 10 digits, text.drop count) else none

/-- What follows a character at the front of a text. -/
def skip? (c : Char) : List Char → Option (List Char)
  | d :: rest => if d = c then some rest else none
  | [] => none

/-- The number of days of a month. -/
def daysIn (year month : Nat) : Nat :=
  if month = 2 then
    if year % 4 = 0 && (year % 100 ≠ 0 || year % 400 = 0) then 29 else 28
  else if [4, 6, 9, 11].contains month then
    30
  else
    31

/-- What follows a date. -/
def skipDate? (text : List Char) : Option (List Char) := do
  let (year, rest) ← takeFixed? 4 text
  let (month, rest) ← takeFixed? 2 (← skip? '-' rest)
  let (day, rest) ← takeFixed? 2 (← skip? '-' rest)
  if 1 ≤ month && month ≤ 12 && 1 ≤ day && day ≤ daysIn year month then some rest else none

/-- What follows the seconds of a time, if it has them. -/
def skipSeconds? (text : List Char) : Option (List Char) :=
  match skip? ':' text with
  | none => some text
  | some rest => do
      let (second, rest) ← takeFixed? 2 rest
      if 60 < second then
        none
      else
        match skip? '.' rest with
        | none => some rest
        | some fraction =>
            if (fraction.takeWhile Char.isDigit).isEmpty then none
            else some (fraction.dropWhile Char.isDigit)

/-- What follows a time of day. -/
def skipTime? (text : List Char) : Option (List Char) := do
  let (hour, rest) ← takeFixed? 2 text
  let (minute, rest) ← takeFixed? 2 (← skip? ':' rest)
  if hour ≤ 23 && minute ≤ 59 then skipSeconds? rest else none

/-- Whether a text is an offset from universal time, or nothing. -/
def isOffset : List Char → Bool
  | [] => true
  | c :: rest =>
      if c = 'Z' || c = 'z' then
        rest.isEmpty
      else if c = '+' || c = '-' then
        match takeFixed? 2 rest with
        | some (hours, ':' :: rest) =>
            match takeFixed? 2 rest with
            | some (minutes, []) => hours ≤ 23 && minutes ≤ 59
            | _ => false
        | _ => false
      else
        false

/-- Whether a character stands between a date and a time. -/
def isDateMark (c : Char) : Bool :=
  c = 'T' || c = 't' || c = ' '

/-- Whether a text is a date, a time, or both, then perhaps with an offset. -/
def isDateTime (text : List Char) : Bool :=
  match skipDate? text with
  | some [] => true
  | some (c :: rest) =>
      isDateMark c && match skipTime? rest with
        | some offset => isOffset offset
        | none => false
  | none => skipTime? text = some []

/-- The value written without quotes. -/
def scalar? (text : List Char) : Option Toml :=
  if text = "true".toList then
    some (.boolean true)
  else if text = "false".toList then
    some (.boolean false)
  else
    ((integer? text).map ofInteger).or ((float? text).or
      (if isDateTime text then some (.dateTime (String.ofList text)) else none))

end Accessibility.Toml
