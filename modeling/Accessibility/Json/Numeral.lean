import Accessibility.Text.Digits

/-!
# JSON numerals

The parts of a numeral, the grammar they follow, and the binary64 number a numeral stands for.
A number is read with a significand of 64 bits: digits that no longer fit are dropped, and the
significand is then scaled by a power of ten.
-/

namespace Accessibility.Json

/-- The parts of a numeral. -/
structure Numeral where
  negative : Bool
  whole : List Nat
  /-- The digits after the point; none without a point. -/
  fraction : List Nat
  exponent : Int
  /-- Whether the numeral has neither point nor exponent. -/
  isWhole : Bool

/-- The values of the leading decimal digits, and the rest. -/
def digits (text : List Char) : List Nat × List Char :=
  let (leading, rest) := text.span Char.isDigit
  (leading.map fun c => c.toNat - '0'.toNat, rest)

/-- The exponent written at the end of a numeral. -/
def exponent? : List Char → Option (Option Int)
  | [] => some none
  | mark :: rest =>
      if mark = 'e' || mark = 'E' then
        let (negative, body) := match rest with
          | '-' :: body => (true, body)
          | '+' :: body => (false, body)
          | body => (false, body)
        match digits body with
        | (first :: others, []) =>
            let size : Int := Text.numberOf 10 (first :: others)
            some (some (if negative then -size else size))
        | _ => none
      else
        none

/-- The numeral a text is.  There is a digit before the point and after it, and a leading zero
stands alone. -/
def Numeral.ofText? (text : List Char) : Option Numeral :=
  let (negative, body) := match text with
    | '-' :: body => (true, body)
    | body => (false, body)
  match digits body with
  | ([], _) => none
  | (0 :: _ :: _, _) => none
  | (whole, '.' :: rest) =>
      match digits rest with
      | ([], _) => none
      | (fraction, rest) =>
          (exponent? rest).map fun exponent =>
            ⟨negative, whole, fraction, exponent.getD 0, false⟩
  | (whole, rest) =>
      (exponent? rest).map fun exponent =>
        ⟨negative, whole, [], exponent.getD 0, exponent.isNone⟩

/-- The integer a numeral stands for.  The numeral `-0` stands for none: it is a number with a
sign that no integer has. -/
def Numeral.integer? (numeral : Numeral) : Option Int :=
  let size := Text.numberOf 10 numeral.whole
  if !numeral.isWhole then none
  else if !numeral.negative then some size
  else if size = 0 then none
  else some (-size)

/-- The largest significand. -/
def significandLimit : Nat :=
  UInt64.size - 1

/-- Appends digits to a significand as long as it stays in its limit; the second result counts
the digits left over. -/
def appendDigits (significand : Nat) : List Nat → Nat × Nat
  | [] => (significand, 0)
  | digit :: rest =>
      if 10 * significand + digit ≤ significandLimit then
        appendDigits (10 * significand + digit) rest
      else
        (significand, rest.length + 1)

/-- The significand of a numeral and its power of ten. -/
def Numeral.scaled (numeral : Numeral) : Nat × Int :=
  let (head, dropped) := appendDigits 0 numeral.whole
  let (significand, unread) := appendDigits head numeral.fraction
  let places := numeral.fraction.length - unread
  (significand, numeral.exponent + (dropped : Int) - (places : Int))

/-- A power of ten up to the largest one a binary64 number can hold. -/
def powerOfTen (exponent : Nat) : Float :=
  Float.ofScientific 1 false exponent

/-- A significand times a power of ten, in binary64 arithmetic.  Numbers too large are none;
divisors too large are applied in two steps, and beyond that nothing is left. -/
def scale? (significand : Nat) (exponent : Int) : Option Float :=
  let value := (UInt64.ofNat significand).toFloat
  if significand = 0 then
    some value
  else if 308 < exponent then
    none
  else if 0 ≤ exponent then
    let product := value * powerOfTen exponent.toNat
    if product.isInf then none else some product
  else if -308 ≤ exponent then
    some (value / powerOfTen (-exponent).toNat)
  else if -616 ≤ exponent then
    some (value / powerOfTen 308 / powerOfTen (-exponent - 308).toNat)
  else
    some 0

/-- The binary64 number a numeral stands for, if there is one. -/
def Numeral.float? (numeral : Numeral) : Option Float :=
  let (significand, exponent) := numeral.scaled
  (scale? significand exponent).map fun size => if numeral.negative then -size else size

end Accessibility.Json
