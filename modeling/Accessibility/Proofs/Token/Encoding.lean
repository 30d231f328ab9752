import Accessibility.Token.Basic
import Mathlib.Algebra.Group.Nat.Defs
import Mathlib.Data.List.Induction

/-!
# Tokens read back

Every identifier comes back from its token: the symbols of a token are digits in base 64, and they
take one byte each.
-/

namespace Accessibility.OpaqueId

/-! ## Symbols -/

theorem value?_symbol {value : Nat} (small : value < 64) : value? (symbol value) = some value := by
  have readsBack : ∀ value < 64, value? (symbol value) = some value := by
    decide
  exact readsBack value small

theorem symbol_of_value? {c : Char} {value : Nat} (read : value? c = some value) :
    value < 64 ∧ symbol value = c := by
  rw [value?, List.findIdx?_eq_some_iff_getElem] at read
  rcases read with ⟨small, isSymbol, _⟩
  constructor
  · exact small
  · rw [symbol, List.getD_eq_getElem?_getD, List.getElem?_eq_getElem small, Option.getD_some]
    exact of_decide_eq_true isSymbol

theorem symbol_mem_alphabet (value : Nat) : symbol value ∈ alphabet := by
  rw [symbol, List.getD_eq_getElem?_getD]
  cases found : alphabet[value]? with
  | none => decide
  | some c => exact List.mem_of_getElem? found

theorem utf8Size_symbol (value : Nat) : (symbol value).utf8Size = 1 := by
  have isAscii : (alphabet.all fun c => c.toNat ≤ 127) = true := by
    decide
  have atMost : (symbol value).toNat ≤ 127 :=
    of_decide_eq_true (List.all_eq_true.mp isAscii _ (symbol_mem_alphabet value))
  have small : (symbol value).val ≤ 127 := UInt32.le_iff_toNat_le.mpr atMost
  exact if_pos small

/-! ## Digits in base 64 -/

/-- The symbols of the last digits of a number are read as what these digits are worth. -/
theorem ofSymbols?_symbols (number count : Nat) :
    ofSymbols? (symbols number count) = some (number % 64 ^ count) := by
  induction count generalizing number with
  | zero => simp [symbols, ofSymbols?, Nat.mod_one]
  | succ count ih =>
      have lastDigit := value?_symbol (Nat.mod_lt number (by decide : 0 < 64))
      unfold ofSymbols? at ih ⊢
      rw [symbols, List.foldlM_append, ih]
      simp only [List.foldlM_cons, List.foldlM_nil, lastDigit, Option.bind_eq_bind,
        Option.bind_some, Option.map_some, Option.pure_def]
      rw [Nat.pow_succ', Nat.mod_mul, Nat.add_comm]

theorem ofSymbols?_concat (front : List Char) (last : Char) :
    ofSymbols? (front ++ [last]) =
      (ofSymbols? front).bind fun number => (value? last).map (64 * number + ·) := by
  unfold ofSymbols?
  rw [List.foldlM_append]
  simp only [List.foldlM_cons, List.foldlM_nil, Option.bind_eq_bind, Option.pure_def,
    Option.bind_fun_some]

/-- Only the symbols of a number are read as the number. -/
theorem symbols_of_ofSymbols? {text : List Char} {number : Nat}
    (read : ofSymbols? text = some number) : symbols number text.length = text := by
  induction text using List.reverseRecOn generalizing number with
  | nil => rfl
  | append_singleton front last ih =>
      rw [ofSymbols?_concat] at read
      rcases Option.bind_eq_some_iff.mp read with ⟨leading, readFront, readLast⟩
      rcases Option.map_eq_some_iff.mp readLast with ⟨value, isValue, rfl⟩
      rcases symbol_of_value? isValue with ⟨small, isSymbol⟩
      have quotient : (64 * leading + value) / 64 = leading := by omega
      have remainder : (64 * leading + value) % 64 = value := by omega
      rw [List.length_append, List.length_singleton, symbols, quotient, remainder, ih readFront,
        isSymbol]

theorem utf8ByteSize_ofList_symbols (number count : Nat) :
    (String.ofList (symbols number count)).utf8ByteSize = count := by
  induction count generalizing number with
  | zero => rfl
  | succ count ih =>
      rw [symbols, String.ofList_append, String.utf8ByteSize_append, ih,
        ← String.singleton_eq_ofList, String.utf8ByteSize_singleton, utf8Size_symbol]

/-! ## Identifiers -/

/-- The token of an identifier is read as this identifier. -/
@[simp]
theorem decode?_encode (id : OpaqueId) : decode? id.encode = some id := by
  obtain ⟨number, bound⟩ := id
  have size : (encode ⟨number, bound⟩).utf8ByteSize = tokenLength :=
    utf8ByteSize_ofList_symbols (16 * number) tokenLength
  have fits : 16 * number < 64 ^ tokenLength := by
    rw [tokenLength]
    omega
  have read : ofSymbols? (encode ⟨number, bound⟩).toList = some (16 * number) := by
    rw [encode, String.toList_ofList, ofSymbols?_symbols, Nat.mod_eq_of_lt fits]
  have quotient : 16 * number / 16 = number := Nat.mul_div_cancel_left number (by decide)
  rw [decode?, if_pos size, read]
  simpa [quotient] using bound

/-- A text is read as an identifier only if it is its token. -/
theorem decode?_eq_some_iff {token : String} {id : OpaqueId} :
    decode? token = some id ↔ token = id.encode := by
  constructor
  · intro read
    unfold decode? at read
    split at read
    · rename_i size
      split at read
      · rename_i number readNumber
        split at read
        · rename_i bounds
          cases read
          have written := symbols_of_ofSymbols? readNumber
          have length : token.toList.length = tokenLength := by
            rw [← size, ← String.ofList_toList (s := token), ← written,
              utf8ByteSize_ofList_symbols, String.toList_ofList, written]
          have whole : 16 * (number / 16) = number := by omega
          rw [encode, whole, ← length, written, String.ofList_toList]
        · contradiction
      · contradiction
    · contradiction
  · rintro rfl
    exact decode?_encode id

theorem encode_injective : Function.Injective encode := by
  intro one other same
  have read := congrArg decode? same
  rw [decode?_encode, decode?_encode] at read
  exact Option.some.inj read

end Accessibility.OpaqueId
