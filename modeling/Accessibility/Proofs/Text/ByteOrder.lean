import Mathlib.Data.String.Basic

/-!
# The order of texts and of their bytes

Texts are ordered by the code points of their characters.  Their UTF-8 forms come in the same order
byte by byte: the first byte of a character tells how many follow, and each of these carries the
next digits of the code point.
-/

namespace Accessibility.Text

/-- The bytes of a text in UTF-8. -/
def bytes (text : String) : List UInt8 :=
  text.toUTF8.data.toList

theorem bytes_eq_flatMap (text : String) :
    bytes text = text.toList.flatMap String.utf8EncodeChar := by
  have encoded : text.toUTF8 = text.toList.utf8Encode := by
    rw [← String.toByteArray_ofList, String.ofList_toList, String.toUTF8_eq_toByteArray]
  rw [bytes, encoded, List.utf8Encode, List.data_toByteArray]

/-- Whether the first bytes come before the second whatever follows the two. -/
def Precedes (first second : List UInt8) : Prop :=
  ∀ rest others : List UInt8, first ++ rest < second ++ others

theorem precedes_of_lt {value other : Nat} (less : value < other) (isByte : other < 256)
    (rest others : List UInt8) :
    Precedes (UInt8.ofNat value :: rest) (UInt8.ofNat other :: others) := by
  intro _ _
  apply List.Lex.rel
  rw [UInt8.lt_iff_toNat_lt, UInt8.toNat_ofNat_of_lt' (less.trans isByte),
    UInt8.toNat_ofNat_of_lt' isByte]
  exact less

/-- The last digit decides where the digits before are the same. -/
theorem precedes_append_digit (upper : Nat → List UInt8) {code other : Nat}
    (above : code / 64 < other / 64 → Precedes (upper (code / 64)) (upper (other / 64)))
    (less : code < other) :
    Precedes (upper (code / 64) ++ [UInt8.ofNat (code % 64 + 128)])
      (upper (other / 64) ++ [UInt8.ofNat (other % 64 + 128)]) := by
  intro rest others
  rw [List.append_assoc, List.append_assoc]
  rcases (Nat.div_le_div_right less.le : code / 64 ≤ other / 64).lt_or_eq with lessAbove | same
  · exact above lessAbove _ _
  · rw [same]
    apply List.append_left_lt
    exact precedes_of_lt (by omega) (by omega) [] [] rest others

/-- Whatever follows, the bytes of a lesser character come first. -/
theorem precedes_utf8EncodeChar {c d : Char} (less : c < d) :
    Precedes (String.utf8EncodeChar c) (String.utf8EncodeChar d) := by
  have codes : c.val.toNat < d.val.toNat := less
  have valid : d.val.toNat < 1114112 := by
    rcases d.valid with below | ⟨_, below⟩
    · exact Nat.lt_trans below (by decide)
    · exact below
  have twoDigits (code : Nat) : code / 4096 = code / 64 / 64 :=
    (Nat.div_div_eq_div_mul code 64 64).symm
  have threeDigits (code : Nat) : code / 262144 = code / 64 / 64 / 64 := by
    rw [Nat.div_div_eq_div_mul, Nat.div_div_eq_div_mul]
  simp only [String.utf8EncodeChar, twoDigits, threeDigits]
  generalize c.val.toNat = code at codes ⊢
  generalize d.val.toNat = other at codes valid ⊢
  -- Characters of different lengths differ in the first byte.
  split_ifs <;> try first | omega | exact precedes_of_lt (by omega) (by omega) _ _
  · exact precedes_append_digit (fun upper => [UInt8.ofNat (upper % 32 + 192)])
      (fun above => precedes_of_lt (by omega) (by omega) [] []) codes
  · exact precedes_append_digit
      (fun upper => [UInt8.ofNat (upper / 64 % 16 + 224), UInt8.ofNat (upper % 64 + 128)])
      (precedes_append_digit (fun upper => [UInt8.ofNat (upper % 16 + 224)])
        fun above => precedes_of_lt (by omega) (by omega) [] []) codes
  · exact precedes_append_digit
      (fun upper => [UInt8.ofNat (upper / 64 / 64 % 8 + 240), UInt8.ofNat (upper / 64 % 64 + 128),
        UInt8.ofNat (upper % 64 + 128)])
      (precedes_append_digit
        (fun upper => [UInt8.ofNat (upper / 64 % 8 + 240), UInt8.ofNat (upper % 64 + 128)])
        (precedes_append_digit (fun upper => [UInt8.ofNat (upper % 8 + 240)])
          fun above => precedes_of_lt (by omega) (by omega) [] [])) codes

theorem flatMap_utf8EncodeChar_lt {chars others : List Char} (less : chars < others) :
    chars.flatMap String.utf8EncodeChar < others.flatMap String.utf8EncodeChar := by
  induction less with
  | @nil d others =>
      rcases List.exists_cons_of_ne_nil (String.utf8EncodeChar_ne_nil (c := d)) with
        ⟨byte, following, encoded⟩
      rw [List.flatMap_nil, List.flatMap_cons, encoded, List.cons_append]
      exact List.nil_lt_cons byte _
  | rel less => exact precedes_utf8EncodeChar less _ _
  | cons _ ih =>
      rw [List.flatMap_cons, List.flatMap_cons]
      exact List.append_left_lt ih

/-- The bytes of two texts are in order exactly when the texts are. -/
theorem bytes_lt_bytes_iff {text other : String} : bytes text < bytes other ↔ text < other := by
  rw [bytes_eq_flatMap, bytes_eq_flatMap]
  constructor
  · intro less
    rcases lt_trichotomy text other with before | rfl | after
    · exact before
    · exact absurd less (List.lt_irrefl _)
    · have more := flatMap_utf8EncodeChar_lt (String.lt_iff_toList_lt.mp after)
      exact absurd less (List.lt_asymm more)
  · intro less
    exact flatMap_utf8EncodeChar_lt (String.lt_iff_toList_lt.mp less)

/-- Whether texts stand in strictly increasing order of their bytes. -/
def IsIncreasing (texts : List String) : Prop :=
  texts.Pairwise fun text other => bytes text < bytes other

theorem isIncreasing_iff {texts : List String} :
    IsIncreasing texts ↔ texts.Pairwise (· < ·) := by
  simp only [IsIncreasing, bytes_lt_bytes_iff]

end Accessibility.Text
