import Std.Data.TreeMap

/-!
# Opaque identifiers

Clients do not see the paths of elements but identifiers of 128 bits.  The written form is a
token of 22 symbols of the URL-safe base64 alphabet.  Twenty-two symbols hold 132 bits; the last
four are zero, so that a token is the identifier times sixteen, written in base 64.
-/

namespace Accessibility

/-- An identifier of 128 bits. -/
structure OpaqueId where
  number : Nat
  number_lt : number < 1 <<< 128
  deriving DecidableEq, Repr

instance : Ord OpaqueId :=
  ⟨fun one other => compare one.number other.number⟩

instance : Std.TransOrd OpaqueId where
  eq_swap {one other} :=
    (Std.OrientedCmp.eq_swap :
      compare one.number other.number = (compare other.number one.number).swap)
  isLE_trans {one other third} :=
    (Std.TransCmp.isLE_trans :
      (compare one.number other.number).isLE = true →
        (compare other.number third.number).isLE = true →
          (compare one.number third.number).isLE = true)

instance : Std.LawfulEqOrd OpaqueId where
  eq_of_compare {one other} equal := by
    have sameOrder : compare one.number other.number = .eq := equal
    have same : one.number = other.number := Std.LawfulEqCmp.eq_of_compare sameOrder
    cases one
    cases other
    simpa using same

namespace OpaqueId

/-- The identifier with the last 128 bits of a number. -/
def ofNat (number : Nat) : OpaqueId :=
  ⟨number % (1 <<< 128), Nat.mod_lt _ (by decide)⟩

/-- The identifier made of random bits, marked as such: of its bits, four say that it is of
version 4 and two that it is of the standard variant. -/
def ofRandom (number : Nat) : OpaqueId :=
  let low := number % (1 <<< 62)
  let middle := number >>> 62 % (1 <<< 12)
  let high := number >>> 74 % (1 <<< 48)
  ofNat (high <<< 80 + 4 <<< 76 + middle <<< 64 + 2 <<< 62 + low)

/-- The symbols of tokens in the order of their values. -/
def alphabet : List Char :=
  "ABCDEFGHIJKLMNOPQRSTUVWXYZabcdefghijklmnopqrstuvwxyz0123456789-_".toList

/-- The symbol of a value below 64. -/
def symbol (value : Nat) : Char :=
  alphabet.getD value 'A'

/-- The value of a symbol. -/
def value? (c : Char) : Option Nat :=
  alphabet.findIdx? (· = c)

/-- The number of symbols of a token. -/
def tokenLength : Nat :=
  22

/-- The last `count` digits of a number in base 64, the highest first. -/
def symbols (number : Nat) : Nat → List Char
  | 0 => []
  | count + 1 => symbols (number / 64) count ++ [symbol (number % 64)]

/-- The number with these digits in base 64. -/
def ofSymbols? (symbols : List Char) : Option Nat :=
  symbols.foldlM (fun number c => (value? c).map (64 * number + ·)) 0

/-- The token of an identifier. -/
def encode (id : OpaqueId) : String :=
  String.ofList (symbols (16 * id.number) tokenLength)

/-- The identifier of a token.  Every identifier has exactly one. -/
def decode? (token : String) : Option OpaqueId :=
  if token.utf8ByteSize = tokenLength then
    match ofSymbols? token.toList with
    | some number =>
        if h : number % 16 = 0 ∧ number / 16 < 1 <<< 128 then some ⟨number / 16, h.2⟩ else none
    | none => none
  else
    none

end OpaqueId

end Accessibility
