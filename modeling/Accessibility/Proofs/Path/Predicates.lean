import Accessibility.Proofs.Dictionary
import Accessibility.Proofs.Path.Grammar
import Mathlib.Data.List.TakeWhile

/-!
# Reading predicates

The reader of a block finds predicates one by one, and what it cannot use makes the block
malformed.  It therefore accepts exactly the sequences of well-formed predicates, and returns
what they ask for.
-/

namespace Accessibility

namespace Attribute

/-- Every name of every attribute. -/
def spellings : List String :=
  all.flatMap fun known => known.name :: known.aliases

theorem mem_spellings_of_canonicalName? {spelling canonical : String}
    (known : canonicalName? spelling = some canonical) : spelling ∈ spellings := by
  obtain ⟨owner, found, _⟩ := Option.map_eq_some_iff.mp known
  have called : owner.isCalled spelling = true :=
    List.find?_some (p := (isCalled · spelling)) found
  refine List.mem_flatMap.mpr ⟨owner, mem_all owner, ?_⟩
  rw [isCalled, Bool.or_eq_true] at called
  rcases called with isName | isAlias
  · rw [of_decide_eq_true isName]
    exact List.mem_cons_self
  · exact List.mem_cons_of_mem _ (List.contains_iff_mem.mp isAlias)

/-- A canonical name is its own canonical form. -/
theorem canonicalName?_of_canonicalName? {spelling canonical : String}
    (known : canonicalName? spelling = some canonical) :
    canonicalName? canonical = some canonical := by
  obtain ⟨owner, _, rfl⟩ := Option.map_eq_some_iff.mp known
  rw [canonicalName?, ofName?_name, Option.map_some]

end Attribute

namespace Segment

/-! ## Values -/

theorem SpellsValue.unescape {raw value : List Char} (quoted : SpellsValue raw value) :
    Segment.unescape raw = value := by
  induction quoted with
  | nil => rfl
  | @plain c raw value notQuote notBackslash rest ih =>
      cases raw with
      | nil =>
          cases rest
          simp [Segment.unescape, notBackslash]
      | cons d raw => simp [Segment.unescape, notBackslash, ih]
  | escaped notNewline rest ih => simp [Segment.unescape, ih]

theorem takeQuoted_quote (after : List Char) : takeQuoted ('"' :: after) = some ([], after) := by
  cases after <;> simp [takeQuoted]

theorem takeQuoted_plain {c : Char} (notQuote : c ≠ '"') (notBackslash : c ≠ '\\')
    (rest : List Char) :
    takeQuoted (c :: rest) =
      (takeQuoted rest).map fun (value, after) => (c :: value, after) := by
  cases rest <;> simp [takeQuoted, notQuote, notBackslash]

theorem takeQuoted_escaped {c : Char} (notNewline : c ≠ '\n') (rest : List Char) :
    takeQuoted ('\\' :: c :: rest) =
      (takeQuoted rest).map fun (value, after) => ('\\' :: c :: value, after) := by
  simp [takeQuoted, notNewline]

theorem takeQuoted_append {raw value : List Char} (quoted : SpellsValue raw value)
    (after : List Char) : takeQuoted (raw ++ '"' :: after) = some (raw, after) := by
  induction quoted with
  | nil => exact takeQuoted_quote after
  | plain notQuote notBackslash rest ih =>
      rw [List.cons_append, takeQuoted_plain notQuote notBackslash, ih]
      rfl
  | escaped notNewline rest ih =>
      rw [List.cons_append, List.cons_append, takeQuoted_escaped notNewline, ih]
      rfl

theorem takeQuoted_sound {text raw after : List Char}
    (taken : takeQuoted text = some (raw, after)) :
    text = raw ++ '"' :: after ∧ ∃ value, SpellsValue raw value := by
  fun_induction takeQuoted text generalizing raw with
  | case1 => contradiction
  | case2 rest =>
      cases taken
      exact ⟨rfl, [], .nil⟩
  | case3 => contradiction
  | case4 => contradiction
  | case5 d rest notNewline notQuote ih =>
      obtain ⟨⟨inner, behind⟩, inside, same⟩ := Option.map_eq_some_iff.mp taken
      cases same
      obtain ⟨rfl, value, quoted⟩ := ih inside
      exact ⟨rfl, d :: value, .escaped notNewline quoted⟩
  | case6 c rest notQuote notBackslash ih =>
      obtain ⟨⟨inner, behind⟩, inside, same⟩ := Option.map_eq_some_iff.mp taken
      cases same
      obtain ⟨rfl, value, quoted⟩ := ih inside
      exact ⟨rfl, c :: value, .plain notQuote notBackslash quoted⟩

/-- The characters of a value are escaped so that the value is read back. -/
theorem spellsValue_escape (value : List Char) : SpellsValue (escape value) value := by
  induction value with
  | nil => exact .nil
  | cons c rest ih =>
      rw [escape]
      split
      next special =>
        refine .escaped ?_ ih
        rintro rfl
        simp at special
      next notSpecial =>
        simp only [Bool.or_eq_true, decide_eq_true_eq, not_or] at notSpecial
        exact .plain notSpecial.2 notSpecial.1 ih

/-! ## One predicate -/

/-- What the name of an attribute looks like. -/
def IsAttributeName : List Char → Prop
  | [] => False
  | first :: rest =>
      (first.isAlpha || first = '_') = true ∧ ∀ c ∈ rest, isWordChar c = true

instance : DecidablePred IsAttributeName
  | [] => inferInstanceAs (Decidable False)
  | first :: rest =>
      decidable_of_iff (((first.isAlpha || first = '_') && rest.all isWordChar) = true)
        (by simp [IsAttributeName])

theorem isAttributeName_of_known {name : List Char} {canonical : String}
    (known : Attribute.canonicalName? (String.ofList name) = some canonical) :
    IsAttributeName name := by
  have all : ∀ spelling ∈ Attribute.spellings, IsAttributeName spelling.toList := by decide
  have isName := all _ (Attribute.mem_spellings_of_canonicalName? known)
  rwa [String.toList_ofList] at isName

theorem isWordChar_of_isAlpha {c : Char} (isAlpha : c.isAlpha = true) : isWordChar c = true := by
  simp [isWordChar, Char.isAlphanum, isAlpha]

theorem isWordChar_of_isDigit {c : Char} (isDigit : c.isDigit = true) : isWordChar c = true := by
  simp [isWordChar, Char.isAlphanum, isDigit]

theorem isWordChar_of_isAttributeName {name : List Char} (isName : IsAttributeName name) :
    ∀ c ∈ name, isWordChar c = true := by
  cases name with
  | nil => exact absurd isName id
  | cons first word =>
      obtain ⟨starts, isWord⟩ := isName
      have firstIsWord : isWordChar first = true := by
        rcases (Bool.or_eq_true _ _).mp starts with isAlpha | isUnderscore
        · exact isWordChar_of_isAlpha isAlpha
        · rw [of_decide_eq_true isUnderscore]
          decide
      exact List.forall_mem_cons.mpr ⟨firstIsWord, isWord⟩

theorem isWordChar_of_isRoleName {role : List Char} (isName : IsRoleName role) :
    ∀ c ∈ role, isWordChar c = true := by
  cases role with
  | nil => exact absurd isName id
  | cons first word =>
      exact List.forall_mem_cons.mpr ⟨isWordChar_of_isAlpha isName.1, isName.2⟩

theorem isWordChar_of_isNumeral {digits : List Char} (isNumeral : IsNumeral digits) :
    ∀ c ∈ digits, isWordChar c = true := by
  rcases isNumeral with rfl | ⟨_, allDigits, _⟩
  · exact List.forall_mem_singleton.mpr rfl
  · exact fun c member => isWordChar_of_isDigit (allDigits c member)

/-- The characters of a predicate as written. -/
def RawPredicate.chars (predicate : RawPredicate) : List Char :=
  '[' :: '@' :: (predicate.name ++ '=' :: '"' :: (predicate.value ++ ['"', ']']))

/-- Whether a predicate as written has a well-formed name and value. -/
def RawPredicate.IsWellFormed (predicate : RawPredicate) : Prop :=
  IsAttributeName predicate.name ∧ ∃ value, SpellsValue predicate.value value

theorem takeWhile_isWordChar_append {word after : List Char}
    (isWord : ∀ c ∈ word, isWordChar c = true)
    (stops : ∀ c ∈ after.head?, isWordChar c = false) :
    (word ++ after).takeWhile isWordChar = word := by
  rw [List.takeWhile_append_of_pos isWord]
  cases after with
  | nil => simp
  | cons stop rest => simp [stops stop rfl]

theorem dropWhile_isWordChar_append {word after : List Char}
    (isWord : ∀ c ∈ word, isWordChar c = true)
    (stops : ∀ c ∈ after.head?, isWordChar c = false) :
    (word ++ after).dropWhile isWordChar = after := by
  rw [List.dropWhile_append_of_pos isWord]
  cases after with
  | nil => rfl
  | cons stop rest => simp [stops stop rfl]

theorem predicateAt?_append {predicate : RawPredicate} (wellFormed : predicate.IsWellFormed)
    (after : List Char) :
    predicateAt? (predicate.chars ++ after) = some (predicate, after) := by
  obtain ⟨name, raw⟩ := predicate
  obtain ⟨isName, value, quoted⟩ := wellFormed
  cases name with
  | nil => exact absurd isName id
  | cons first word =>
      obtain ⟨starts, isWord⟩ := isName
      have stops : ∀ rest : List Char, ∀ c ∈ ('=' :: rest).head?, isWordChar c = false := by
        rintro rest c ⟨⟩
        decide
      simp only [RawPredicate.chars, List.cons_append, List.append_assoc, predicateAt?]
      rw [if_pos starts, dropWhile_isWordChar_append isWord (stops _),
        takeWhile_isWordChar_append isWord (stops _)]
      simp [takeQuoted_append quoted]

theorem predicateAt?_sound {text after : List Char} {predicate : RawPredicate}
    (found : predicateAt? text = some (predicate, after)) :
    text = predicate.chars ++ after ∧ predicate.IsWellFormed := by
  unfold predicateAt? at found
  split at found
  · rename_i first rest
    split at found
    · rename_i starts
      split at found
      · rename_i quoted behindName
        split at found
        · rename_i value behind taken
          cases found
          obtain ⟨rfl, decoded, spelled⟩ := takeQuoted_sound taken
          have whole : rest.takeWhile isWordChar ++ '=' :: '"' :: (value ++ '"' :: ']' :: after) =
              rest := by
            rw [← behindName]
            exact List.takeWhile_append_dropWhile
          refine ⟨?_, ⟨starts, fun c member => List.mem_takeWhile_imp member⟩, decoded, spelled⟩
          simp [RawPredicate.chars, whole]
        · contradiction
      · contradiction
    · contradiction
  · contradiction

/-! ## A block of predicates -/

theorem findPredicates_drop (skip : Nat) (text : List Char) :
    findPredicates skip text = findPredicates 0 (text.drop skip) := by
  induction text generalizing skip with
  | nil => cases skip <;> rfl
  | cons c rest ih =>
      cases skip with
      | zero => rfl
      | succ skip => simp only [findPredicates, List.drop_succ_cons, ih skip]

theorem findPredicates_of_predicateAt? {text after : List Char} {predicate : RawPredicate}
    (found : predicateAt? text = some (predicate, after)) :
    findPredicates 0 text =
      (predicate :: (findPredicates 0 after).1, (findPredicates 0 after).2) := by
  obtain ⟨rfl, _⟩ := predicateAt?_sound found
  rw [RawPredicate.chars, List.cons_append] at found ⊢
  simp only [findPredicates, found]
  rw [findPredicates_drop, List.length_append, Nat.add_sub_cancel, List.drop_left]

/-- A block that holds nothing but predicates begins with one. -/
theorem exists_predicateAt?_of_complete {c : Char} {rest : List Char} {found : List RawPredicate}
    (complete : findPredicates 0 (c :: rest) = (found, false)) :
    ∃ predicate after, predicateAt? (c :: rest) = some (predicate, after) := by
  cases atFront : predicateAt? (c :: rest) with
  | none => simp [findPredicates, atFront] at complete
  | some read => exact ⟨read.1, read.2, rfl⟩

theorem findPredicates_sound {block : List Char} {found : List RawPredicate}
    (complete : findPredicates 0 block = (found, false)) :
    block = found.flatMap RawPredicate.chars ∧
      ∀ predicate ∈ found, predicate.IsWellFormed := by
  induction found generalizing block with
  | nil =>
      cases block with
      | nil => simp
      | cons c rest =>
          obtain ⟨predicate, after, atFront⟩ := exists_predicateAt?_of_complete complete
          simp [findPredicates_of_predicateAt? atFront] at complete
  | cons predicate others ih =>
      cases block with
      | nil => simp [findPredicates] at complete
      | cons c rest =>
          obtain ⟨first, after, atFront⟩ := exists_predicateAt?_of_complete complete
          rw [findPredicates_of_predicateAt? atFront] at complete
          obtain ⟨sameFirst, noJunk⟩ := Prod.mk.inj complete
          obtain ⟨rfl, sameOthers⟩ := List.cons.inj sameFirst
          obtain ⟨rfl, othersWellFormed⟩ := ih (Prod.ext sameOthers noJunk)
          obtain ⟨whole, wellFormed⟩ := predicateAt?_sound atFront
          exact ⟨whole, List.forall_mem_cons.mpr ⟨wellFormed, othersWellFormed⟩⟩

theorem findPredicates_flatMap_chars {predicates : List RawPredicate}
    (wellFormed : ∀ predicate ∈ predicates, predicate.IsWellFormed) :
    findPredicates 0 (predicates.flatMap RawPredicate.chars) = (predicates, false) := by
  induction predicates with
  | nil => rfl
  | cons predicate others ih =>
      obtain ⟨firstWellFormed, othersWellFormed⟩ := List.forall_mem_cons.mp wellFormed
      rw [List.flatMap_cons,
        findPredicates_of_predicateAt? (predicateAt?_append firstWellFormed _),
        ih othersWellFormed]

/-- What a predicate as written asks for. -/
def RawPredicate.Denotes (predicate : RawPredicate) (entry : String × String) : Prop :=
  Attribute.canonicalName? (String.ofList predicate.name) = some entry.1 ∧
    String.ofList (unescape predicate.value) = entry.2

theorem names_insert_perm {known : Dictionary String} {name : String} (value : String)
    (unbound : known.contains name = false) :
    (known.insert name value).names.Perm (name :: known.names) :=
  (Dictionary.entries_insert_perm value unbound).map Prod.fst

/-- A predicate is added exactly when its name is known and its attribute is not there yet. -/
theorem addPredicates_cons_eq_ok_iff {predicate : RawPredicate} {others : List RawPredicate}
    {known result : Dictionary String} :
    addPredicates known (predicate :: others) = .ok result ↔
      ∃ entry, predicate.Denotes entry ∧ known.contains entry.1 = false ∧
        addPredicates (known.insert entry.1 entry.2) others = .ok result := by
  rw [addPredicates]
  cases canonical : Attribute.canonicalName? (String.ofList predicate.name) with
  | none => simp [RawPredicate.Denotes, canonical]
  | some name =>
      constructor
      · intro added
        cases bound : known.contains name with
        | true => simp [bound] at added
        | false =>
            simp only [bound, Bool.false_eq_true, if_false] at added
            exact ⟨(name, _), ⟨canonical, rfl⟩, bound, added⟩
      · rintro ⟨entry, ⟨sameName, sameValue⟩, unbound, added⟩
        obtain rfl : name = entry.1 := Option.some.inj (canonical.symm.trans sameName)
        simp only [unbound, Bool.false_eq_true, if_false, sameValue]
        exact added

/-- Predicates are added exactly when all names are known and no two of them, nor one of them and
an earlier one, belong to the same attribute. -/
theorem addPredicates_eq_ok_iff {predicates : List RawPredicate}
    {known result : Dictionary String} :
    addPredicates known predicates = .ok result ↔
      ∃ entries, List.Forall₂ RawPredicate.Denotes predicates entries ∧
        (entries.map Prod.fst ++ known.names).Nodup ∧
        result.entries.Perm (entries ++ known.entries) := by
  induction predicates generalizing known with
  | nil =>
      simp only [addPredicates, Except.ok.injEq, List.forall₂_nil_left_iff, exists_eq_left,
        List.map_nil, List.nil_append, known.nodup_names, true_and]
      exact ⟨fun same => same ▸ List.Perm.refl _, fun perm => (Dictionary.eq_of_perm perm).symm⟩
  | cons predicate others ih =>
      rw [addPredicates_cons_eq_ok_iff]
      constructor
      · rintro ⟨entry, denotes, unbound, added⟩
        obtain ⟨entries, othersDenote, distinct, perm⟩ := ih.mp added
        have namesPerm := names_insert_perm entry.2 unbound
        have entriesPerm := Dictionary.entries_insert_perm entry.2 unbound
        refine ⟨entry :: entries, .cons denotes othersDenote, ?_, ?_⟩
        · exact ((namesPerm.append_left _).trans List.perm_middle).nodup_iff.mp distinct
        · exact perm.trans ((entriesPerm.append_left _).trans List.perm_middle)
      · rintro ⟨_, denotes, distinct, perm⟩
        cases denotes with
        | @cons _ entry _ entries denotes othersDenote =>
            have unbound : known.contains entry.1 = false := by
              rw [Bool.eq_false_iff]
              intro bound
              obtain ⟨earlier, member⟩ := Dictionary.contains_iff.mp bound
              have named : entry.1 ∈ known.names := List.mem_map.mpr ⟨_, member, rfl⟩
              exact (List.nodup_cons.mp distinct).1 (List.mem_append_right _ named)
            have namesPerm := names_insert_perm entry.2 unbound
            have entriesPerm := Dictionary.entries_insert_perm entry.2 unbound
            refine ⟨entry, denotes, unbound, ih.mpr ⟨entries, othersDenote, ?_, ?_⟩⟩
            · exact ((namesPerm.append_left _).trans List.perm_middle).nodup_iff.mpr distinct
            · exact perm.trans ((entriesPerm.append_left _).trans List.perm_middle).symm

theorem spellsPredicate_iff {piece : List Char} {entry : String × String} :
    SpellsPredicate piece entry ↔
      ∃ predicate : RawPredicate,
        piece = predicate.chars ∧ predicate.IsWellFormed ∧ predicate.Denotes entry := by
  constructor
  · rintro ⟨known, quoted⟩
    exact ⟨⟨_, _⟩, rfl, ⟨isAttributeName_of_known known, _, quoted⟩, known,
      congrArg String.ofList quoted.unescape⟩
  · rintro ⟨⟨name, raw⟩, rfl, ⟨_, value, quoted⟩, known, sameValue⟩
    obtain ⟨canonical, text⟩ := entry
    obtain rfl : String.ofList value = text :=
      (congrArg String.ofList quoted.unescape).symm.trans sameValue
    exact .intro known quoted

theorem forall₂_spellsPredicate_iff {pieces : List (List Char)}
    {entries : List (String × String)} :
    List.Forall₂ SpellsPredicate pieces entries ↔
      ∃ predicates : List RawPredicate, pieces = predicates.map RawPredicate.chars ∧
        (∀ predicate ∈ predicates, predicate.IsWellFormed) ∧
        List.Forall₂ RawPredicate.Denotes predicates entries := by
  constructor
  · intro spelled
    induction spelled with
    | nil => exact ⟨[], rfl, by simp, .nil⟩
    | cons spelledFirst _ ih =>
        obtain ⟨predicate, rfl, wellFormed, denotes⟩ := spellsPredicate_iff.mp spelledFirst
        obtain ⟨predicates, rfl, allWellFormed, allDenote⟩ := ih
        exact ⟨predicate :: predicates, rfl,
          List.forall_mem_cons.mpr ⟨wellFormed, allWellFormed⟩, .cons denotes allDenote⟩
  · rintro ⟨predicates, rfl, wellFormed, denotes⟩
    induction denotes with
    | nil => exact .nil
    | cons denotesFirst _ ih =>
        obtain ⟨firstWellFormed, othersWellFormed⟩ := List.forall_mem_cons.mp wellFormed
        exact .cons (spellsPredicate_iff.mpr ⟨_, rfl, firstWellFormed, denotesFirst⟩)
          (ih othersWellFormed)

/-- A block is read exactly when it is a sequence of predicates that ask for distinct
attributes. -/
theorem readPredicates_eq_ok_iff {block : List Char} {result : Dictionary String} :
    readPredicates block = .ok result ↔
      ∃ pieces entries, block = pieces.flatten ∧
        List.Forall₂ SpellsPredicate pieces entries ∧
        (entries.map Prod.fst).Nodup ∧ result.entries.Perm entries := by
  constructor
  · intro read
    unfold readPredicates at read
    split at read
    · contradiction
    · rename_i predicates added
      split at read
      · contradiction
      · rename_i noJunk
        cases read
        obtain ⟨whole, wellFormed⟩ := findPredicates_sound
          (Prod.ext rfl (Bool.eq_false_iff.mpr noJunk) :
            findPredicates 0 block = ((findPredicates 0 block).1, false))
        obtain ⟨entries, denotes, distinct, perm⟩ := addPredicates_eq_ok_iff.mp added
        refine ⟨_, entries, whole, forall₂_spellsPredicate_iff.mpr ⟨_, rfl, wellFormed, denotes⟩,
          ?_, ?_⟩
        · simpa [Dictionary.names] using distinct
        · simpa using perm
  · rintro ⟨pieces, entries, rfl, spelled, distinct, perm⟩
    obtain ⟨predicates, rfl, wellFormed, denotes⟩ := forall₂_spellsPredicate_iff.mp spelled
    have found := findPredicates_flatMap_chars wellFormed
    have added : addPredicates ∅ predicates = .ok result := by
      refine addPredicates_eq_ok_iff.mpr ⟨entries, denotes, ?_, ?_⟩
      · simpa [Dictionary.names] using distinct
      · simpa using perm
    rw [List.flatMap] at found
    simp [readPredicates, found, added]

end Segment

end Accessibility
