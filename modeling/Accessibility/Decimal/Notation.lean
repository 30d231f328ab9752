import Accessibility.Decimal.Shortest

/-!
# Decimal notation

How a binary64 number is written with its shortest digits.  A style says where the notation
with an exponent begins, how whole numbers are marked and what stands for the values that are
not numbers; the two styles of the library are at the end.
-/

namespace Accessibility.Decimal

/-- The choices left open by the digits. -/
structure Style where
  tie : Tie
  /-- The least and greatest number of digits before the point for which no exponent is written;
  negative counts are zeros after the point.  Without bounds there is never an exponent. -/
  positional : Option (Int × Int)
  /-- Written after a whole number without exponent. -/
  wholeMark : String
  notANumber : String
  infinity : String
  negativeInfinity : String

/-- The digits with the point after the first `before` of them, filled up with zeros. -/
def positionalText (wholeMark : String) (digits : String) (before : Int) : String :=
  if before ≤ 0 then
    "0." ++ String.ofList (List.replicate (-before).toNat '0') ++ digits
  else if (digits.length : Int) ≤ before then
    digits ++ String.ofList (List.replicate (before.toNat - digits.length) '0') ++ wholeMark
  else
    String.ofList (digits.toList.take before.toNat) ++ "." ++
      String.ofList (digits.toList.drop before.toNat)

/-- The digits with the point after the first of them, and an exponent with a sign. -/
def exponentText (digits : String) (before : Int) : String :=
  let lead := String.ofList (digits.toList.take 1)
  let rest := String.ofList (digits.toList.drop 1)
  let exponent := before - 1
  lead ++ (if rest.isEmpty then "" else "." ++ rest) ++
    (if exponent < 0 then "e-" else "e+") ++ toString exponent.natAbs

/-- A decimal in a style. -/
def text (style : Style) (decimal : Decimal) : String :=
  let digits := toString decimal.digits
  let before : Int := digits.length + decimal.exponent
  match style.positional with
  | none => positionalText style.wholeMark digits before
  | some (least, greatest) =>
      if least ≤ before && before ≤ greatest then
        positionalText style.wholeMark digits before
      else
        exponentText digits before

/-- A binary64 number in a style. -/
def ofFloat (style : Style) (x : Float) : String :=
  let bits := x.toBits.toNat
  let negative := bits >>> 63 = 1
  let sign := if negative then "-" else ""
  if bits >>> 52 % (1 <<< 11) = 2047 then
    if bits % (1 <<< 52) ≠ 0 then style.notANumber
    else if negative then style.negativeInfinity
    else style.infinity
  else if bits % (1 <<< 63) = 0 then
    sign ++ "0" ++ style.wholeMark
  else
    sign ++ text style ((Binary.ofFloat x).shortest style.tie)

/-- Attribute values, frames and rates in texts: never an exponent, and nothing after a whole
number. -/
def plain : Style where
  tie := .up
  positional := none
  wholeMark := ""
  notANumber := "NaN"
  infinity := "inf"
  negativeInfinity := "-inf"

/-- Numbers in JSON texts: a decimal point or an exponent in every number, the exponent from
`1e16` on and below `1e-5`. -/
def json : Style where
  tie := .even
  positional := some (-4, 16)
  wholeMark := ".0"
  notANumber := "null"
  infinity := "null"
  negativeInfinity := "null"

end Accessibility.Decimal
