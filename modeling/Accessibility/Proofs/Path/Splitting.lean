import Accessibility.Proofs.Path.Predicates

/-!
# Splitting paths

Cutting a text at the slashes outside quoted values loses nothing, and a slash between segments
of the grammar is always found, whatever the values in the segments contain.
-/

namespace Accessibility

namespace Path

theorem split?_slash (rest : List Char) :
    split? .outside ('/' :: rest) =
      (split? .outside rest).map fun (first, others) => ([], first :: others) :=
  rfl

theorem split?_cons {quotation : Quotation} {c : Char}
    (noSlash : quotation = .outside → c ≠ '/') (rest : List Char) :
    split? quotation (c :: rest) =
      (split? (quotation.next c) rest).map fun (first, others) => (c :: first, others) := by
  cases quotation with
  | outside => simp [split?, noSlash rfl]
  | inside => simp [split?]
  | escaped => simp [split?]

/-- The pieces with slashes between them are the text. -/
theorem joinWith_of_split? {quotation : Quotation} {text first : List Char}
    {others : List (List Char)} (cut : split? quotation text = some (first, others)) :
    Text.joinWith ['/'] (first :: others) = text := by
  induction text generalizing quotation first others with
  | nil =>
      cases quotation with
      | outside =>
          cases cut
          rfl
      | inside => contradiction
      | escaped => contradiction
  | cons c rest ih =>
      by_cases separator : quotation = .outside ∧ c = '/'
      · obtain ⟨rfl, rfl⟩ := separator
        rw [split?_slash] at cut
        obtain ⟨⟨next, more⟩, cutRest, same⟩ := Option.map_eq_some_iff.mp cut
        cases same
        rw [← ih cutRest]
        rfl
      · rw [split?_cons fun outside slash => separator ⟨outside, slash⟩] at cut
        obtain ⟨⟨next, more⟩, cutRest, same⟩ := Option.map_eq_some_iff.mp cut
        cases same
        rw [← ih cutRest]
        cases others <;> rfl

/-! ## Marks outside quoted values -/

namespace Quotation

/-- Where the search for separators stands after a text. -/
def run (quotation : Quotation) (text : List Char) : Quotation :=
  text.foldl next quotation

@[simp]
theorem run_nil (quotation : Quotation) : quotation.run [] = quotation :=
  rfl

@[simp]
theorem run_cons (quotation : Quotation) (c : Char) (rest : List Char) :
    quotation.run (c :: rest) = (quotation.next c).run rest :=
  rfl

theorem run_append (quotation : Quotation) (text more : List Char) :
    quotation.run (text ++ more) = (quotation.run text).run more :=
  List.foldl_append

/-- Whether a text leads the search from `start` to `stop` and has a mark in quoted values only. -/
structure Spans (mark : Char) (start stop : Quotation) (text : List Char) : Prop where
  run : start.run text = stop
  quoted : ∀ before after, text = before ++ mark :: after → start.run before ≠ outside

variable {mark : Char} {start middle stop : Quotation} {text more : List Char}

theorem Spans.nil (mark : Char) (quotation : Quotation) : quotation.Spans mark quotation [] where
  run := rfl
  quoted := by
    intro before after same
    simp at same

theorem spans_cons_iff {c : Char} :
    start.Spans mark stop (c :: text) ↔
      (start = outside → c ≠ mark) ∧ (start.next c).Spans mark stop text := by
  constructor
  · rintro ⟨run, quoted⟩
    constructor
    · rintro isOutside rfl
      exact quoted [] text rfl isOutside
    · exact ⟨run, fun before after same => quoted (c :: before) after (congrArg (c :: ·) same)⟩
  · rintro ⟨noMark, run, quoted⟩
    refine ⟨run, fun before after same => ?_⟩
    cases before with
    | nil =>
        cases same
        exact fun isOutside => noMark isOutside rfl
    | cons d before =>
        cases same
        exact quoted before after rfl

theorem Spans.cons {c : Char} (noMark : start = outside → c ≠ mark)
    (last : (start.next c).Spans mark stop text) : start.Spans mark stop (c :: text) :=
  spans_cons_iff.mpr ⟨noMark, last⟩

theorem Spans.append (first : start.Spans mark middle text) (last : middle.Spans mark stop more) :
    start.Spans mark stop (text ++ more) := by
  induction text generalizing start with
  | nil =>
      cases first.run
      exact last
  | cons c text ih =>
      obtain ⟨noMark, firstRest⟩ := spans_cons_iff.mp first
      exact .cons noMark (ih firstRest)

theorem spans_of_forall (plain : ∀ c ∈ text, c ≠ '"' ∧ c ≠ mark) :
    outside.Spans mark outside text := by
  induction text with
  | nil => exact .nil mark outside
  | cons c rest ih =>
      obtain ⟨⟨notQuote, notMark⟩, plainRest⟩ := List.forall_mem_cons.mp plain
      apply Spans.cons fun _ => notMark
      rw [next, if_neg notQuote]
      exact ih plainRest

end Quotation

/-! ## Texts without separators -/

/-- Whether a text holds no separator when the search stands at `start`, and leads to
`stop`. -/
def Quotation.Passes (start stop : Quotation) (text : List Char) : Prop :=
  ∀ rest, split? start (text ++ rest) =
    (split? stop rest).map fun (first, others) => (text ++ first, others)

theorem Quotation.Spans.passes {start stop : Quotation} {text : List Char}
    (spans : start.Spans '/' stop text) : start.Passes stop text := by
  intro rest
  induction text generalizing start with
  | nil =>
      cases spans.run
      simp
  | cons c text ih =>
      obtain ⟨noSlash, spansText⟩ := spans_cons_iff.mp spans
      rw [List.cons_append, split?_cons noSlash, ih spansText, Option.map_map]
      rfl

/-- Pieces without separators are found again between slashes. -/
theorem split?_joinWith {first : List Char} {others : List (List Char)}
    (passes : ∀ piece ∈ first :: others, Quotation.outside.Passes .outside piece) :
    split? .outside (Text.joinWith ['/'] (first :: others)) = some (first, others) := by
  induction others generalizing first with
  | nil =>
      have alone := passes first List.mem_cons_self []
      simpa [split?] using alone
  | cons next others ih =>
      obtain ⟨passesFirst, passesOthers⟩ := List.forall_mem_cons.mp passes
      rw [Text.joinWith, List.append_assoc, passesFirst, List.singleton_append, split?_slash,
        ih passesOthers]
      simp

end Path

namespace Segment

open Accessibility.Path (Quotation)

variable {predicate : RawPredicate}

theorem ne_of_isWordChar {c mark : Char} (isWord : isWordChar c = true)
    (notWord : isWordChar mark = false) : c ≠ mark := by
  rintro rfl
  rw [isWord] at notWord
  contradiction

theorem spans_word {word : List Char} (isWord : ∀ c ∈ word, isWordChar c = true) {mark : Char}
    (notWord : isWordChar mark = false) : Quotation.outside.Spans mark .outside word := by
  apply Quotation.spans_of_forall
  intro c member
  exact ⟨ne_of_isWordChar (isWord c member) (by decide),
    ne_of_isWordChar (isWord c member) notWord⟩

theorem spans_role {role : List Char} {name : String} (spelled : SpellsRole role name) :
    Quotation.outside.Spans '/' .outside role := by
  cases spelled with
  | absent => exact .nil _ _
  | star => exact Quotation.spans_of_forall (by simp)
  | name isName => exact spans_word (isWordChar_of_isRoleName isName) (by decide)

theorem spans_value {raw value : List Char} (quoted : SpellsValue raw value) (mark : Char) :
    Quotation.inside.Spans mark .inside raw := by
  induction quoted with
  | nil => exact .nil _ _
  | plain notQuote notBackslash rest ih =>
      apply Quotation.Spans.cons (by simp)
      rw [Quotation.next, if_neg notQuote, if_neg notBackslash]
      exact ih
  | escaped notNewline rest ih =>
      apply Quotation.Spans.cons (by simp)
      apply Quotation.Spans.cons (by simp [Quotation.next])
      exact ih

/-- Behind its opening bracket, a predicate has outside of its value no marks but its own. -/
theorem RawPredicate.exists_spans (wellFormed : predicate.IsWellFormed) {mark : Char}
    (notWord : isWordChar mark = false) (notOwn : mark ∉ ['@', '=', '"', ']']) :
    ∃ rest, predicate.chars = '[' :: rest ∧ Quotation.outside.Spans mark .outside rest := by
  obtain ⟨isName, value, quoted⟩ := wellFormed
  simp only [List.mem_cons, List.not_mem_nil, or_false, not_or] at notOwn
  obtain ⟨notAt, notEquals, notQuote, notBracket⟩ := notOwn
  refine ⟨_, rfl, ?_⟩
  apply Quotation.Spans.cons fun _ => Ne.symm notAt
  apply (spans_word (isWordChar_of_isAttributeName isName) notWord).append
  apply Quotation.Spans.cons fun _ => Ne.symm notEquals
  apply Quotation.Spans.cons fun _ => Ne.symm notQuote
  apply (spans_value quoted mark).append
  apply Quotation.Spans.cons fun _ => Ne.symm notQuote
  apply Quotation.Spans.cons fun _ => Ne.symm notBracket
  exact .nil _ _

theorem RawPredicate.spans (wellFormed : predicate.IsWellFormed) :
    Quotation.outside.Spans '/' .outside predicate.chars := by
  have notWord : isWordChar '/' = false := by decide
  obtain ⟨rest, chars, spans⟩ := exists_spans wellFormed notWord (by decide)
  rw [chars]
  exact .cons (by simp) spans

theorem RawPredicate.spans_flatMap {predicates : List RawPredicate}
    (wellFormed : ∀ predicate ∈ predicates, predicate.IsWellFormed) :
    Quotation.outside.Spans '/' .outside (predicates.flatMap chars) := by
  induction predicates with
  | nil => exact .nil _ _
  | cons predicate others ih =>
      obtain ⟨firstWellFormed, othersWellFormed⟩ := List.forall_mem_cons.mp wellFormed
      exact (spans firstWellFormed).append (ih othersWellFormed)

theorem spans_predicates {pieces : List (List Char)} {entries : List (String × String)}
    (spelled : List.Forall₂ SpellsPredicate pieces entries) :
    Quotation.outside.Spans '/' .outside pieces.flatten := by
  obtain ⟨predicates, rfl, wellFormed, _⟩ := forall₂_spellsPredicate_iff.mp spelled
  exact RawPredicate.spans_flatMap wellFormed

theorem spans_numeral {digits : List Char} (isNumeral : IsNumeral digits) :
    Quotation.outside.Spans '/' .outside ('#' :: digits) :=
  .cons (by simp) (spans_word (isWordChar_of_isNumeral isNumeral) (by decide))

theorem spans_index {after : List Char} {index : Option Nat}
    (spelled : SpellsIndex after index) : Quotation.outside.Spans '/' .outside after := by
  cases spelled with
  | absent => exact .nil _ _
  | number isNumeral => exact spans_numeral isNumeral

/-- A segment of the grammar holds no separator outside its quoted values. -/
theorem spans_of_spells {text : List Char} {segment : Segment} (spelled : Spells text segment) :
    Quotation.outside.Spans '/' .outside text := by
  obtain ⟨spelledRole, spelledPredicates, _, _, spelledIndex, _⟩ := spelled
  exact (spans_role spelledRole).append
    ((spans_predicates spelledPredicates).append (spans_index spelledIndex))

end Segment

end Accessibility
