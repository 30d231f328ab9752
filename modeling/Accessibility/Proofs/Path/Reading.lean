import Accessibility.Proofs.Path.Predicates

/-!
# Reading segments

A segment is read as a role, a block in brackets and an index, and the outline of the block is
coarser than the grammar.  Nevertheless the reader accepts exactly the texts of the grammar: an
outline that is no sequence of predicates is refused when the predicates are read.
-/

namespace Accessibility

namespace Segment

/-! ## Roles -/

/-- What stands behind the role of a segment: a bracket, an index or nothing. -/
def FollowsRole (after : List Char) : Prop :=
  ∀ c ∈ after.head?, c = '[' ∨ c = '#'

theorem FollowsRole.stops {after : List Char} (follows : FollowsRole after) :
    ∀ c ∈ after.head?, isWordChar c = false := by
  intro c atHead
  rcases follows c atHead with rfl | rfl <;> decide

theorem takeRole_append {role after : List Char} {name : String}
    (spelled : SpellsRole role name) (follows : FollowsRole after) :
    takeRole (role ++ after) = (if role = [] then none else some name, after) := by
  cases spelled with
  | absent =>
      cases after with
      | nil => rfl
      | cons c rest =>
          rcases follows c rfl with rfl | rfl
          · rfl
          · rfl
  | star => rfl
  | name isName =>
      cases role with
      | nil => exact absurd isName id
      | cons first word =>
          obtain ⟨starts, isWord⟩ := isName
          have notStar : first ≠ '*' := by
            rintro rfl
            contradiction
          simp only [List.cons_append, takeRole, notStar, starts, if_true, if_false,
            takeWhile_isWordChar_append isWord follows.stops,
            dropWhile_isWordChar_append isWord follows.stops, reduceCtorEq]

theorem takeRole_sound {text after : List Char} {role : Option String}
    (taken : takeRole text = (role, after)) :
    ∃ written, text = written ++ after ∧ SpellsRole written (role.getD "") ∧
      (role = none ↔ written = []) := by
  cases text with
  | nil =>
      cases taken
      exact ⟨[], rfl, .absent, by simp⟩
  | cons c rest =>
      simp only [takeRole] at taken
      split at taken
      · rename_i isStar
        cases taken
        exact ⟨['*'], by simp [isStar], .star, by simp⟩
      · split at taken
        · rename_i starts
          cases taken
          refine ⟨c :: rest.takeWhile isWordChar, ?_, .name ⟨starts, ?_⟩, by simp⟩
          · rw [List.cons_append, List.takeWhile_append_dropWhile]
          · exact fun d member => List.mem_takeWhile_imp member
        · cases taken
          exact ⟨[], rfl, .absent, by simp⟩

/-! ## Outlines of blocks -/

/-- The outline after several characters. -/
def Outline.run (outline : Outline) (text : List Char) : Option Outline :=
  text.foldlM Outline.next? outline

theorem Outline.run_append (outline : Outline) (text more : List Char) :
    outline.run (text ++ more) = (outline.run text).bind (Outline.run · more) :=
  List.foldlM_append

theorem Outline.run_cons (outline : Outline) (c : Char) (rest : List Char) :
    outline.run (c :: rest) = (outline.next? c).bind (Outline.run · rest) :=
  List.foldlM_cons

/-- As long as the outline goes on, characters belong to the block. -/
theorem takeBlock_append {outline next : Outline} {text : List Char}
    (goesOn : outline.run text = some next) (rest : List Char) :
    takeBlock outline (text ++ rest) =
      (takeBlock next rest).map fun (block, after) => (text ++ block, after) := by
  induction text generalizing outline with
  | nil =>
      cases goesOn
      simp
  | cons c text ih =>
      rw [Outline.run_cons] at goesOn
      obtain ⟨middle, step, goesOn⟩ := Option.bind_eq_some_iff.mp goesOn
      rw [List.cons_append, takeBlock, step]
      simp only [ih goesOn, Option.map_map]
      rfl

theorem takeBlock_sound {outline : Outline} {text block after : List Char}
    (taken : takeBlock outline text = some (block, after)) : text = block ++ after := by
  induction text generalizing outline block with
  | nil =>
      cases outline <;> simp_all [takeBlock]
  | cons c rest ih =>
      rw [takeBlock] at taken
      split at taken
      · obtain ⟨⟨inner, behind⟩, inside, same⟩ := Option.map_eq_some_iff.mp taken
        cases same
        rw [ih inside, List.cons_append]
      · split at taken
        · cases taken
          rfl
        · contradiction

theorem run_word {word : List Char} (isWord : ∀ c ∈ word, isWordChar c = true) :
    Outline.opened.run word = some .opened := by
  induction word with
  | nil => rfl
  | cons c word ih =>
      obtain ⟨isFirst, isRest⟩ := List.forall_mem_cons.mp isWord
      have notBracket : c ≠ ']' := by
        rintro rfl
        contradiction
      have notQuote : c ≠ '"' := by
        rintro rfl
        contradiction
      rw [Outline.run_cons, Outline.next?, if_neg notBracket, if_neg notQuote]
      exact ih isRest

theorem run_value {raw value : List Char} (quoted : SpellsValue raw value) :
    Outline.quoted.run raw = some .quoted := by
  induction quoted with
  | nil => rfl
  | plain notQuote notBackslash rest ih =>
      rw [Outline.run_cons, Outline.next?, if_neg notQuote, if_neg notBackslash]
      exact ih
  | escaped notNewline rest ih =>
      change Outline.escaped.run (_ :: _) = _
      rw [Outline.run_cons, Outline.next?, if_neg notNewline]
      exact ih

/-- A predicate opens and closes one pair of brackets. -/
theorem run_predicate {piece : List Char} {entry : String × String}
    (spelled : SpellsPredicate piece entry) : Outline.outside.run piece = some .outside := by
  obtain ⟨known, quoted⟩ := spelled
  have isWord := isWordChar_of_isAttributeName (isAttributeName_of_known known)
  have toName : ∀ text, Outline.outside.run ('[' :: '@' :: text) = Outline.opened.run text :=
    fun text => rfl
  have toValue : ∀ text, Outline.opened.run ('=' :: '"' :: text) = Outline.quoted.run text :=
    fun text => rfl
  rw [toName, Outline.run_append, run_word isWord, Option.bind_some, toValue,
    Outline.run_append, run_value quoted]
  rfl

theorem run_predicates {pieces : List (List Char)} {entries : List (String × String)}
    (spelled : List.Forall₂ SpellsPredicate pieces entries) :
    Outline.outside.run pieces.flatten = some .outside := by
  induction spelled with
  | nil => rfl
  | cons spelledFirst _ ih =>
      rw [List.flatten_cons, Outline.run_append, run_predicate spelledFirst]
      exact ih

/-! ## Indexes -/

theorem readIndex_eq_ok_iff {text : List Char} {number : Nat} :
    readIndex text = .ok number ↔
      IsNumeral text ∧ Nat.ofDigitChars 10 text 0 < UInt64.size ∧
        Nat.ofDigitChars 10 text 0 = number := by
  have numeral : IsNumeral text ↔
      ¬ (text.isEmpty || !text.all Char.isDigit ||
        (text.head? = some '0' && text ≠ ['0'])) = true := by
    by_cases isZero : text = ['0']
    · simp [IsNumeral, isZero]
    · simp [IsNumeral, isZero, and_assoc]
  have inRange : indexLimit < Nat.ofDigitChars 10 text 0 ↔
      ¬ Nat.ofDigitChars 10 text 0 < UInt64.size := by
    rw [indexLimit, UInt64.size]
    omega
  rw [readIndex, numeral]
  split
  · rename_i malformed
    simp only [malformed, reduceCtorEq, not_true_eq_false, false_and]
  · rename_i wellFormed
    split
    · rename_i large
      simp only [inRange.mp large, reduceCtorEq, false_and, and_false]
    · rename_i small
      rw [inRange, not_not] at small
      rw [Except.ok.injEq, and_iff_right wellFormed, and_iff_right small]

theorem not_newline_of_isNumeral {digits : List Char} (isNumeral : IsNumeral digits) :
    digits.contains '\n' = false := by
  have allDigits : ∀ c ∈ digits, c.isDigit = true := by
    rcases isNumeral with rfl | ⟨_, allDigits, _⟩
    · simp
    · exact allDigits
  rw [Bool.eq_false_iff, ne_eq, List.contains_iff_mem]
  intro member
  have isDigit := allDigits _ member
  contradiction

/-- The end of a segment is read exactly when it is an index or nothing. -/
theorem spellsIndex_iff {after : List Char} {index : Option Nat} :
    SpellsIndex after index ↔
      ∃ text, indexText? after = some text ∧ readIndex? text = .ok index := by
  constructor
  · rintro (_ | @⟨digits, isNumeral, fits⟩)
    · exact ⟨none, rfl, rfl⟩
    · refine ⟨some digits, ?_, ?_⟩
      · rw [indexText?, not_newline_of_isNumeral isNumeral]
        rfl
      · rw [readIndex?, readIndex_eq_ok_iff.mpr ⟨isNumeral, fits, rfl⟩]
        rfl
  · rintro ⟨text, found, read⟩
    cases after with
    | nil =>
        cases found
        cases read
        exact .absent
    | cons c rest =>
        rw [indexText?] at found
        split at found
        · rename_i isIndex
          cases found
          rw [Bool.and_eq_true, decide_eq_true_eq] at isIndex
          obtain rfl := isIndex.1
          cases number : readIndex rest with
          | error fault => simp [readIndex?, number, Except.map] at read
          | ok value =>
              rw [readIndex?, number] at read
              cases read
              obtain ⟨isNumeral, fits, rfl⟩ := readIndex_eq_ok_iff.mp number
              exact .number isNumeral fits
        · contradiction

/-! ## Whole segments -/

theorem assemble_eq_ok_iff {role : Option String} {block : List Char}
    {index : Option (List Char)} {segment : Segment} :
    assemble role block index = .ok segment ↔
      readPredicates block = .ok segment.predicates ∧ readIndex? index = .ok segment.index ∧
        segment.role = role.getD "" ∧ (role ≠ none ∨ segment.predicates.entries ≠ []) := by
  unfold assemble
  cases readPredicates block with
  | error fault => simp [bind, Except.bind]
  | ok predicates =>
      cases readIndex? index with
      | error fault => simp [bind, Except.bind]
      | ok number =>
          obtain ⟨segmentRole, segmentPredicates, segmentIndex⟩ := segment
          simp only [bind, Except.bind]
          split
          · rename_i bare
            rw [Bool.and_eq_true, Option.isNone_iff_eq_none] at bare
            have noEntries : predicates.entries = [] := List.isEmpty_iff.mp bare.2
            simp only [throw, throwThe, MonadExceptOf.throw, reduceCtorEq, Except.ok.injEq,
              false_iff, not_and, bare.1]
            rintro rfl _ _ (notNone | notEmpty)
            · exact notNone rfl
            · exact notEmpty noEntries
          · rename_i notBare
            have hasPart : role ≠ none ∨ predicates.entries ≠ [] := by
              simpa [Dictionary.isEmpty, ← not_and_or] using notBare
            simp only [pure, Except.pure, Except.ok.injEq, Segment.mk.injEq]
            constructor
            · rintro ⟨rfl, rfl, rfl⟩
              exact ⟨rfl, rfl, rfl, hasPart⟩
            · rintro ⟨rfl, rfl, rfl, _⟩
              exact ⟨rfl, rfl, rfl⟩

theorem followsRole_index {after : List Char} {index : Option Nat}
    (spelled : SpellsIndex after index) : FollowsRole after := by
  cases spelled with
  | absent => simp [FollowsRole]
  | number => simp [FollowsRole]

theorem followsRole_predicates {pieces : List (List Char)} {entries : List (String × String)}
    {after : List Char} (spelled : List.Forall₂ SpellsPredicate pieces entries)
    (follows : FollowsRole after) : FollowsRole (pieces.flatten ++ after) := by
  cases spelled with
  | nil => exact follows
  | cons spelledFirst _ =>
      cases spelledFirst
      simp [FollowsRole]

theorem takeBlock_index {after : List Char} {index : Option Nat}
    (spelled : SpellsIndex after index) : takeBlock .outside after = some ([], after) := by
  cases spelled <;> rfl

/-- Every text of the grammar is read, and as what it means. -/
theorem read_of_spells {text : List Char} {segment : Segment} (spelled : Spells text segment) :
    read text = .ok segment := by
  obtain @⟨role, index, pieces, entries, _, spelledRole, spelledPredicates, distinct, asked,
    spelledIndex, notBare⟩ := spelled
  have follows := followsRole_predicates spelledPredicates (followsRole_index spelledIndex)
  -- The outline allows more than the grammar, so that it cannot stop inside the predicates.
  have outlined : takeBlock .outside (pieces.flatten ++ index) = some (pieces.flatten, index) := by
    rw [takeBlock_append (run_predicates spelledPredicates), takeBlock_index spelledIndex]
    simp
  have notEmpty : role ++ (pieces.flatten ++ index) ≠ [] := by
    rcases notBare with hasRole | hasPieces
    · simp [hasRole]
    · cases spelledPredicates with
      | nil => exact absurd rfl hasPieces
      | cons spelledFirst _ =>
          cases spelledFirst
          simp
  obtain ⟨digits, found, number⟩ := spellsIndex_iff.mp spelledIndex
  have predicates := readPredicates_eq_ok_iff.mpr
    ⟨pieces, entries, rfl, spelledPredicates, distinct, asked⟩
  rw [read, if_neg (by simpa using notEmpty), takeRole_append spelledRole follows]
  simp only [outlined, found]
  refine assemble_eq_ok_iff.mpr ⟨predicates, number, ?_, ?_⟩
  · split
    · rename_i noRole
      subst noRole
      generalize segment.role = name at spelledRole
      cases spelledRole with
      | absent => rfl
      | name isName => exact absurd isName id
    · rfl
  · refine notBare.imp (fun hasRole => by simp [hasRole]) ?_
    intro hasPieces noEntries
    rw [noEntries] at asked
    rw [asked.nil_eq.symm] at spelledPredicates
    exact hasPieces (List.forall₂_nil_right_iff.mp spelledPredicates)

/-- Whatever is read is a text of the grammar, with this meaning. -/
theorem spells_of_read {text : List Char} {segment : Segment} (accepted : read text = .ok segment) :
    Spells text segment := by
  unfold read at accepted
  split at accepted
  · contradiction
  · split at accepted
    rename_i role rest takenRole
    obtain ⟨written, rfl, spelledRole, isAbsent⟩ := takeRole_sound takenRole
    split at accepted
    · contradiction
    · rename_i block after takenBlock
      split at accepted
      · contradiction
      · rename_i index found
        obtain ⟨predicates, number, sameRole, hasPart⟩ := assemble_eq_ok_iff.mp accepted
        obtain ⟨pieces, entries, rfl, spelledPredicates, distinct, asked⟩ :=
          readPredicates_eq_ok_iff.mp predicates
        rw [takeBlock_sound takenBlock]
        refine .intro (sameRole ▸ spelledRole) spelledPredicates distinct asked
          (spellsIndex_iff.mpr ⟨index, found, number⟩) ?_
        refine hasPart.imp (fun present => mt isAbsent.mpr present) ?_
        rintro hasEntries rfl
        cases spelledPredicates
        exact hasEntries asked.eq_nil

/-- A segment is read exactly when the grammar has it. -/
theorem read_eq_ok_iff {text : List Char} {segment : Segment} :
    read text = .ok segment ↔ Spells text segment :=
  ⟨spells_of_read, read_of_spells⟩

theorem parse_eq_ok_iff {text : String} {segment : Segment} :
    parse text = .ok segment ↔ Spells text.toList segment := by
  rw [← read_eq_ok_iff, parse]
  cases read text.toList <;> simp [Except.mapError]

end Segment

end Accessibility
