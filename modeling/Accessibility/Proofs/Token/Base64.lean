import Accessibility.Proofs.Token.Encoding
import Accessibility.Token.Cache
import Mathlib.Data.Set.Card

/-!
# Tokens in base64

An identifier is a sequence of 16 octets, and its token is their base64 form with the URL-safe
alphabet and without padding: three octets make four symbols, and the bits of the last octet, with
four zeros behind them, make two.  The tokens of identifiers are the only texts that are read.
-/

namespace Accessibility.OpaqueId

/-! ## Octets -/

/-- The number with these octets, the highest first. -/
def ofOctets (octets : List UInt8) : Nat :=
  octets.foldl (fun number octet => 256 * number + octet.toNat) 0

/-- The last `count` octets of a number, the highest first. -/
def octets (number : Nat) : Nat → List UInt8
  | 0 => []
  | count + 1 => octets (number / 256) count ++ [UInt8.ofNat (number % 256)]

theorem ofOctets_concat (front : List UInt8) (last : UInt8) :
    ofOctets (front ++ [last]) = 256 * ofOctets front + last.toNat := by
  rw [ofOctets, List.foldl_append]
  rfl

theorem ofOctets_append (front rest : List UInt8) :
    ofOctets (front ++ rest) = ofOctets front * 256 ^ rest.length + ofOctets rest := by
  induction rest using List.reverseRecOn with
  | nil => simp [ofOctets]
  | append_singleton rest last ih =>
      rw [← List.append_assoc, ofOctets_concat, ih, ofOctets_concat, List.length_append,
        List.length_singleton, Nat.pow_succ', Nat.mul_add, Nat.mul_left_comm, Nat.add_assoc]

theorem ofOctets_lt (list : List UInt8) : ofOctets list < 256 ^ list.length := by
  induction list using List.reverseRecOn with
  | nil => simp [ofOctets]
  | append_singleton front last ih =>
      have small := last.toNat_lt
      rw [ofOctets_concat, List.length_append, List.length_singleton, Nat.pow_succ]
      omega

@[simp]
theorem length_octets (number count : Nat) : (octets number count).length = count := by
  induction count generalizing number with
  | zero => rfl
  | succ count ih => simp [octets, ih]

theorem ofOctets_octets (number count : Nat) :
    ofOctets (octets number count) = number % 256 ^ count := by
  induction count generalizing number with
  | zero => simp [octets, ofOctets, Nat.mod_one]
  | succ count ih =>
      have lastOctet : (UInt8.ofNat (number % 256)).toNat = number % 256 := by simp
      rw [octets, ofOctets_concat, ih, lastOctet, Nat.pow_succ', Nat.mod_mul, Nat.add_comm]

theorem octets_ofOctets (list : List UInt8) : octets (ofOctets list) list.length = list := by
  induction list using List.reverseRecOn with
  | nil => rfl
  | append_singleton front last ih =>
      have small := last.toNat_lt
      have quotient : (256 * ofOctets front + last.toNat) / 256 = ofOctets front := by omega
      have remainder : (256 * ofOctets front + last.toNat) % 256 = last.toNat := by omega
      rw [ofOctets_concat, List.length_append, List.length_singleton, octets, quotient, remainder,
        ih, UInt8.ofNat_toNat]

/-- The identifiers are the sequences of 16 octets. -/
def octetsEquiv : OpaqueId ≃ Vector UInt8 16 where
  toFun id := ⟨(octets id.number 16).toArray, by simp⟩
  invFun sequence := ⟨ofOctets sequence.toList, by
    have small := ofOctets_lt sequence.toList
    rwa [Vector.length_toList] at small⟩
  left_inv id := by
    obtain ⟨number, bound⟩ := id
    have small : number < 256 ^ 16 := bound
    simp only [OpaqueId.mk.injEq]
    exact (ofOctets_octets number 16).trans (Nat.mod_eq_of_lt small)
  right_inv sequence := by
    have sameOctets := octets_ofOctets sequence.toList
    rw [Vector.length_toList] at sameOctets
    exact Vector.toList_inj.mp sameOctets

theorem card_opaqueId : Nat.card OpaqueId = 2 ^ 128 := by
  let numbers : OpaqueId ≃ Fin (2 ^ 128) :=
    ⟨fun id => ⟨id.number, id.number_lt⟩, fun number => ⟨number, number.isLt⟩, fun _ => rfl,
      fun _ => rfl⟩
  exact (Nat.card_congr numbers).trans (Nat.card_fin _)

/-! ## Groups of octets -/

/-- The base64 form of octets, without padding.  Every three octets make four symbols of six bits
each; the bits of one or two octets at the end are filled up with zeros. -/
def base64 : List UInt8 → List Char
  | first :: second :: third :: rest =>
      [symbol (first.toNat / 4), symbol (first.toNat % 4 * 16 + second.toNat / 16),
        symbol (second.toNat % 16 * 4 + third.toNat / 64), symbol (third.toNat % 64)] ++
        base64 rest
  | [first, second] =>
      [symbol (first.toNat / 4), symbol (first.toNat % 4 * 16 + second.toNat / 16),
        symbol (second.toNat % 16 * 4)]
  | [first] => [symbol (first.toNat / 4), symbol (first.toNat % 4 * 16)]
  | [] => []

@[simp]
theorem length_symbols (number count : Nat) : (symbols number count).length = count := by
  induction count generalizing number with
  | zero => rfl
  | succ count ih => simp [symbols, ih]

/-- The digits of a number begin with those of its quotient by a power of the base. -/
theorem symbols_add (number count more : Nat) :
    symbols number (count + more) =
      symbols (number / 64 ^ more) count ++ symbols number more := by
  induction more generalizing number with
  | zero => simp [symbols]
  | succ more ih =>
      rw [← Nat.add_assoc, symbols, ih, symbols, Nat.div_div_eq_div_mul, ← Nat.pow_succ',
        List.append_assoc]

/-- The last digits of a number do not depend on what is before them. -/
theorem symbols_mul_add (high low count : Nat) :
    symbols (high * 64 ^ count + low) count = symbols low count := by
  induction count generalizing low with
  | zero => rfl
  | succ count ih =>
      have shifted : high * 64 ^ (count + 1) = 64 * (high * 64 ^ count) := by
        rw [Nat.pow_succ', Nat.mul_left_comm]
      have quotient : (high * 64 ^ (count + 1) + low) / 64 = high * 64 ^ count + low / 64 := by
        omega
      have remainder : (high * 64 ^ (count + 1) + low) % 64 = low % 64 := by omega
      rw [symbols, quotient, remainder, ih, symbols]

/-- The digits of a number in two parts, of which the lower one has as many digits as stated. -/
theorem symbols_mul_add_append {high low more : Nat} (small : low < 64 ^ more) (count : Nat) :
    symbols (high * 64 ^ more + low) (count + more) =
      symbols high count ++ symbols low more := by
  have positive : 0 < 64 ^ more := Nat.pow_pos (by decide)
  have quotient : (high * 64 ^ more + low) / 64 ^ more = high := by
    rw [Nat.add_comm, Nat.add_mul_div_right _ _ positive, Nat.div_eq_of_lt small, Nat.zero_add]
  rw [symbols_add, quotient, symbols_mul_add]

theorem symbols_group (first second third : UInt8) :
    symbols (ofOctets [first, second, third]) 4 =
      [symbol (first.toNat / 4), symbol (first.toNat % 4 * 16 + second.toNat / 16),
        symbol (second.toNat % 16 * 4 + third.toNat / 64), symbol (third.toNat % 64)] := by
  have firstSmall := first.toNat_lt
  have secondSmall := second.toNat_lt
  have thirdSmall := third.toNat_lt
  simp only [ofOctets, List.foldl_cons, List.foldl_nil, symbols, List.nil_append, List.cons_append,
    List.cons.injEq, and_true]
  refine ⟨?_, ?_, ?_, ?_⟩ <;> congr 1 <;> omega

theorem symbols_octet (octet : UInt8) :
    symbols (16 * ofOctets [octet]) 2 =
      [symbol (octet.toNat / 4), symbol (octet.toNat % 4 * 16)] := by
  have small := octet.toNat_lt
  simp only [ofOctets, List.foldl_cons, List.foldl_nil, symbols, List.nil_append, List.cons_append,
    List.cons.injEq, and_true]
  constructor <;> congr 1 <;> omega

/-- One octet more than groups of three: the digits of the number with four zero bits behind it are
the base64 form. -/
theorem symbols_eq_base64 {groups : Nat} {list : List UInt8}
    (length : list.length = 3 * groups + 1) :
    symbols (16 * ofOctets list) (4 * groups + 2) = base64 list := by
  induction groups generalizing list with
  | zero =>
      obtain ⟨octet, rfl⟩ := List.length_eq_one_iff.mp length
      rw [base64]
      exact symbols_octet octet
  | succ groups ih =>
      obtain _ | ⟨first, _ | ⟨second, _ | ⟨third, rest⟩⟩⟩ := list
      · simp at length
      · simp at length
      · simp at length
      · have lengthRest : rest.length = 3 * groups + 1 := by
          simp only [List.length_cons] at length
          omega
        have shift : 16 * 256 ^ rest.length = 64 ^ (4 * groups + 2) := by
          rw [lengthRest, show (16 : Nat) = 2 ^ 4 by rfl, show (256 : Nat) = 2 ^ 8 by rfl,
            show (64 : Nat) = 2 ^ 6 by rfl, ← Nat.pow_mul, ← Nat.pow_mul, ← Nat.pow_add]
          congr 1
          omega
        have whole : 16 * ofOctets (first :: second :: third :: rest) =
            ofOctets [first, second, third] * 64 ^ (4 * groups + 2) + 16 * ofOctets rest := by
          rw [show first :: second :: third :: rest = [first, second, third] ++ rest by rfl,
            ofOctets_append, Nat.mul_add, Nat.mul_left_comm, shift]
        have small : 16 * ofOctets rest < 64 ^ (4 * groups + 2) := by
          have bound := ofOctets_lt rest
          omega
        have count : 4 * (groups + 1) + 2 = 4 + (4 * groups + 2) := by omega
        rw [whole, count, symbols_mul_add_append small, symbols_group, ih lengthRest, base64]

example : base64 [77, 97, 110, 77] = ['T', 'W', 'F', 'u', 'T', 'Q'] := by decide

/-- The token of an identifier is the base64 form of its octets. -/
theorem encode_octetsEquiv_symm (sequence : Vector UInt8 16) :
    (octetsEquiv.symm sequence).encode = String.ofList (base64 sequence.toList) := by
  have length : sequence.toList.length = 3 * 5 + 1 := Vector.length_toList
  rw [encode, ← symbols_eq_base64 length]
  rfl

/-! ## The texts that are tokens -/

/-- Whether a text is a token: 22 symbols, of which the last one has zeros for its lower four
bits. -/
structure IsToken (token : String) : Prop where
  length : token.length = tokenLength
  areSymbols : ∀ c ∈ token.toList, c ∈ alphabet
  last : ∃ c ∈ ['A', 'Q', 'g', 'w'], token.toList.getLast? = some c

theorem isToken_encode (id : OpaqueId) : IsToken id.encode := by
  have written : id.encode.toList = symbols (16 * id.number) tokenLength := by
    rw [encode, String.toList_ofList]
  constructor
  case length => rw [← String.length_toList, written, length_symbols]
  case areSymbols =>
    rw [written]
    generalize tokenLength = count
    generalize 16 * id.number = number
    induction count generalizing number with
    | zero => exact List.forall_mem_nil _
    | succ count ih =>
        intro c member
        rcases List.mem_append.mp member with before | isLast
        · exact ih _ c before
        · rw [List.mem_singleton.mp isLast]
          exact symbol_mem_alphabet _
  case last =>
    have ends : ∀ value ∈ [0, 16, 32, 48], symbol value ∈ ['A', 'Q', 'g', 'w'] := by decide
    have lowerBits : 16 * id.number % 64 ∈ [0, 16, 32, 48] := by
      simp only [List.mem_cons, List.not_mem_nil, or_false]
      omega
    refine ⟨_, ends _ lowerBits, ?_⟩
    rw [written, tokenLength, symbols, List.getLast?_concat]

theorem exists_value?_of_mem_alphabet {c : Char} (isSymbol : c ∈ alphabet) :
    ∃ value < 64, value? c = some value := by
  obtain ⟨value, small, rfl⟩ := List.getElem_of_mem isSymbol
  have isOwn : symbol value = alphabet[value] := by
    rw [symbol, List.getD_eq_getElem?_getD, List.getElem?_eq_getElem small, Option.getD_some]
  rw [← isOwn]
  exact ⟨value, small, value?_symbol small⟩

theorem exists_ofSymbols? {text : List Char} (areSymbols : ∀ c ∈ text, c ∈ alphabet) :
    ∃ number, ofSymbols? text = some number ∧ number < 64 ^ text.length := by
  induction text using List.reverseRecOn with
  | nil => exact ⟨0, rfl, by decide⟩
  | append_singleton front last ih =>
      obtain ⟨leading, readFront, small⟩ :=
        ih fun c member => areSymbols c (List.mem_append_left _ member)
      obtain ⟨value, smallValue, readLast⟩ := exists_value?_of_mem_alphabet
        (areSymbols last (List.mem_append_right _ (List.mem_singleton_self _)))
      refine ⟨64 * leading + value, ?_, ?_⟩
      · rw [ofSymbols?_concat, readFront, Option.bind_some, readLast, Option.map_some]
      · rw [List.length_append, List.length_singleton, Nat.pow_succ']
        omega

/-- A number whose last symbol has zeros for its lower four bits ends with four zero bits. -/
theorem mod_eq_zero_of_getLast? {text : List Char} {number : Nat}
    (read : ofSymbols? text = some number) {last : Char} (isLast : text.getLast? = some last)
    (zeros : last ∈ ['A', 'Q', 'g', 'w']) : number % 16 = 0 := by
  have values : (['A', 'Q', 'g', 'w'].all fun c => (value? c).all (· % 16 = 0)) = true := by decide
  obtain ⟨front, rfl⟩ := List.getLast?_eq_some_iff.mp isLast
  rw [ofSymbols?_concat] at read
  obtain ⟨leading, _, readLast⟩ := Option.bind_eq_some_iff.mp read
  obtain ⟨value, isValue, rfl⟩ := Option.map_eq_some_iff.mp readLast
  have multiple := List.all_eq_true.mp values last zeros
  rw [Option.mem_def.mp isValue, Option.all_some, decide_eq_true_iff] at multiple
  omega

/-- The tokens are the texts that identifiers are encoded as. -/
theorem IsToken.exists_encode {token : String} (isToken : IsToken token) :
    ∃ id : OpaqueId, id.encode = token := by
  obtain ⟨number, read, small⟩ := exists_ofSymbols? isToken.areSymbols
  obtain ⟨last, zeros, isLast⟩ := isToken.last
  have multiple := mod_eq_zero_of_getLast? read isLast zeros
  have written := symbols_of_ofSymbols? read
  rw [String.length_toList, isToken.length] at small written
  have bound : number / 16 < 1 <<< 128 := by
    have size : (64 : Nat) ^ tokenLength = 16 * 1 <<< 128 := by decide
    omega
  refine ⟨⟨number / 16, bound⟩, ?_⟩
  have whole : 16 * (number / 16) = number := by omega
  rw [encode, whole, written, String.ofList_toList]

theorem isSome_decode?_iff {token : String} : (decode? token).isSome = true ↔ IsToken token := by
  rw [Option.isSome_iff_exists]
  constructor
  · rintro ⟨id, read⟩
    rw [decode?_eq_some_iff.mp read]
    exact isToken_encode id
  · intro isToken
    obtain ⟨id, rfl⟩ := isToken.exists_encode
    exact ⟨id, decode?_encode id⟩

theorem ncard_isToken : {token | IsToken token}.ncard = 2 ^ 128 := by
  have tokens : {token | IsToken token} = Set.range encode := by
    ext token
    constructor
    · exact IsToken.exists_encode
    · rintro ⟨id, rfl⟩
      exact isToken_encode id
  rw [tokens, ← Nat.card_coe_set_eq, Nat.card_range_of_injective encode_injective,
    card_opaqueId]

/-- A text is refused as malformed if it is not read; an identifier is refused for other reasons. -/
theorem decode_eq_malformed_iff {cache : TokenCache} {token : String} :
    (cache.decode token).1 = .error (.malformed token) ↔ decode? token = none := by
  unfold TokenCache.decode
  cases decode? token with
  | none => simp
  | some id =>
      refine iff_of_false ?_ nofun
      simp only [TokenCache.resolve]
      split
      · nofun
      · split <;> nofun

/-- The token of 16 octets is their base64 form and is read as these octets.  A text that is read is
the token of what it is read as; the texts that are read are the tokens, of which there are as many
as identifiers, and every other text is refused as malformed. -/
theorem decode?_decides_tokens :
    (∀ sequence : Vector UInt8 16,
      (octetsEquiv.symm sequence).encode = String.ofList (base64 sequence.toList) ∧
        IsToken (octetsEquiv.symm sequence).encode ∧
        decode? (octetsEquiv.symm sequence).encode = some (octetsEquiv.symm sequence)) ∧
      (∀ token id, decode? token = some id → id.encode = token) ∧
      (∀ token, (decode? token).isSome = true ↔ IsToken token) ∧
      {token | IsToken token}.ncard = 2 ^ 128 ∧
      ∀ (cache : TokenCache) (token : String),
        (cache.decode token).1 = .error (.malformed token) ↔ ¬IsToken token := by
  refine ⟨?_, ?_, fun _ => isSome_decode?_iff, ncard_isToken, ?_⟩
  · intro sequence
    exact ⟨encode_octetsEquiv_symm sequence, isToken_encode _, decode?_encode _⟩
  · intro token id read
    exact (decode?_eq_some_iff.mp read).symm
  · intro cache token
    rw [← isSome_decode?_iff, Bool.not_eq_true, Option.isSome_eq_false_iff,
      Option.isNone_iff_eq_none, decode_eq_malformed_iff]

end Accessibility.OpaqueId
