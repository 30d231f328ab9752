import Accessibility.Proofs.Path.Acceptance
import Mathlib.Logic.Relation

/-!
# Spellings of predicates

Predicates may be written in any order, each with any name of its attribute and with any characters
of its value escaped.  A list of predicates and another spelling of it stand for each other wherever
no quoted value is open: up to an opening bracket outside quoted values, a text of the grammar holds
whole segments, a role and whole predicates.
-/

namespace Accessibility

/-! ## Brackets outside quoted values -/

namespace Path.Quotation

/-- The number of opening brackets in a text outside quoted values. -/
def brackets : Quotation → List Char → Nat
  | _, [] => 0
  | quotation, c :: rest =>
      (if quotation = .outside ∧ c = '[' then 1 else 0) + brackets (quotation.next c) rest

theorem brackets_append (quotation : Quotation) (text more : List Char) :
    quotation.brackets (text ++ more) =
      quotation.brackets text + (quotation.run text).brackets more := by
  induction text generalizing quotation with
  | nil => exact (Nat.zero_add _).symm
  | cons c text ih =>
      rw [List.cons_append, brackets, brackets, ih, Nat.add_assoc]
      rfl

/-- Whether a text leads the search from `start` to `stop` without an opening bracket outside quoted
values. -/
structure Skips (start stop : Quotation) (text : List Char) : Prop where
  run : start.run text = stop
  brackets : start.brackets text = 0

theorem Spans.skips {start stop : Quotation} {text : List Char}
    (spans : start.Spans '[' stop text) : start.Skips stop text where
  run := spans.run
  brackets := by
    induction text generalizing start with
    | nil => rfl
    | cons c text ih =>
        obtain ⟨noBracket, spansText⟩ := spans_cons_iff.mp spans
        rw [Quotation.brackets, if_neg fun opens => noBracket opens.1 opens.2, ih spansText]

end Path.Quotation

namespace Segment

open Accessibility.Path (Quotation)

variable {predicate : RawPredicate}

theorem not_mem_word {word : List Char} (isWord : ∀ c ∈ word, isWordChar c = true) :
    '[' ∉ word := by
  intro member
  have isBracket := isWord '[' member
  contradiction

/-- A predicate begins with a bracket, and there is no other one outside its value. -/
theorem RawPredicate.exists_skips (wellFormed : predicate.IsWellFormed) :
    ∃ rest, predicate.chars = '[' :: rest ∧ Quotation.outside.Skips .outside rest := by
  have notWord : isWordChar '[' = false := by decide
  rcases exists_spans wellFormed notWord (by decide) with ⟨rest, chars, spans⟩
  exact ⟨rest, chars, spans.skips⟩

/-- A part of a predicate that ends outside of its value has no bracket behind it. -/
theorem RawPredicate.eq_nil_of_chars_eq (wellFormed : predicate.IsWellFormed)
    {front rest : List Char} (closed : Quotation.outside.run front = .outside)
    (whole : predicate.chars = front ++ '[' :: rest) : front = [] := by
  rcases exists_skips wellFormed with ⟨inner, chars, skips⟩
  cases front with
  | nil => rfl
  | cons c front =>
      rw [chars, List.cons_append, List.cons.injEq] at whole
      rcases whole with ⟨rfl, rfl⟩
      have none := skips.brackets
      rw [Quotation.brackets_append] at none
      have one : 0 < (Quotation.outside.run front).brackets ('[' :: rest) := by
        have outside : Quotation.outside.run front = .outside := closed
        rw [outside, Quotation.brackets, if_pos ⟨rfl, rfl⟩]
        omega
      omega

theorem not_mem_role {role : List Char} {name : String} (spelled : SpellsRole role name) :
    '[' ∉ role := by
  cases spelled with
  | absent => exact List.not_mem_nil
  | star => decide
  | name isName => exact not_mem_word (isWordChar_of_isRoleName isName)

theorem not_mem_index {after : List Char} {index : Option Nat} (spelled : SpellsIndex after index) :
    '[' ∉ after := by
  cases spelled with
  | absent => exact List.not_mem_nil
  | number isNumeral =>
      rw [List.mem_cons, not_or]
      exact ⟨by decide, not_mem_word (isWordChar_of_isNumeral isNumeral)⟩

/-! ## Where a list of predicates stands -/

/-- A bracket stands behind a text without brackets. -/
theorem exists_append_of_bracket {plain front rest behind : List Char} (noBracket : '[' ∉ plain)
    (same : front ++ '[' :: rest = plain ++ behind) :
    ∃ more, front = plain ++ more ∧ behind = more ++ '[' :: rest := by
  rcases List.append_eq_append_iff.mp same with ⟨more, rfl, atMore⟩ | ⟨more, rfl, rfl⟩
  · cases more with
    | nil => exact ⟨[], by simp, atMore.symm⟩
    | cons c more =>
        cases atMore
        simp at noBracket
  · exact ⟨more, rfl, rfl⟩

/-- A bracket outside quoted values is the first character of a predicate. -/
theorem exists_above_of_bracket {predicates : List RawPredicate}
    (wellFormed : ∀ predicate ∈ predicates, predicate.IsWellFormed) {front rest index : List Char}
    (noBracket : '[' ∉ index) (closed : Quotation.outside.run front = .outside)
    (same : front ++ '[' :: rest = predicates.flatMap RawPredicate.chars ++ index) :
    ∃ above below, predicates = above ++ below ∧ front = above.flatMap RawPredicate.chars ∧
      '[' :: rest = below.flatMap RawPredicate.chars ++ index := by
  induction predicates generalizing front with
  | nil =>
      rw [List.flatMap_nil, List.nil_append] at same
      rw [← same] at noBracket
      simp at noBracket
  | cons predicate others ih =>
      rcases List.forall_mem_cons.mp wellFormed with ⟨firstWellFormed, othersWellFormed⟩
      rw [List.flatMap_cons, List.append_assoc] at same
      rcases List.append_eq_append_iff.mp same with ⟨more, chars, atMore⟩ | ⟨more, rfl, atMore⟩
      -- The bracket stands in the first predicate, or behind it.
      · cases more with
        | nil =>
            rw [List.append_nil] at chars
            have closedHere : Quotation.outside.run [] = .outside := rfl
            rcases ih othersWellFormed closedHere atMore with ⟨above, below, rfl, atFront, whole⟩
            refine ⟨predicate :: above, below, rfl, ?_, whole⟩
            rw [List.flatMap_cons, ← atFront, chars, List.append_nil]
        | cons c more =>
            cases atMore
            cases RawPredicate.eq_nil_of_chars_eq firstWellFormed closed chars
            exact ⟨[], predicate :: others, rfl, rfl, by rw [List.flatMap_cons, chars]; simp⟩
      · rw [Quotation.run_append, (RawPredicate.spans firstWellFormed).run] at closed
        rcases ih othersWellFormed closed atMore.symm with ⟨above, below, rfl, rfl, whole⟩
        exact ⟨predicate :: above, below, rfl, rfl, whole⟩

/-- Where predicates stand at the front, these are the first ones. -/
theorem exists_below_of_append {one predicates : List RawPredicate}
    (wellFormedOne : ∀ predicate ∈ one, predicate.IsWellFormed)
    (wellFormed : ∀ predicate ∈ predicates, predicate.IsWellFormed) {back index : List Char}
    (noBracket : '[' ∉ index)
    (same : one.flatMap RawPredicate.chars ++ back =
      predicates.flatMap RawPredicate.chars ++ index) :
    ∃ below, predicates = one ++ below ∧ back = below.flatMap RawPredicate.chars ++ index := by
  induction one generalizing predicates with
  | nil => exact ⟨predicates, rfl, same⟩
  | cons predicate one ih =>
      rcases List.forall_mem_cons.mp wellFormedOne with ⟨firstWellFormed, othersWellFormed⟩
      rw [List.flatMap_cons, List.append_assoc] at same
      cases predicates with
      | nil =>
          rw [List.flatMap_nil, List.nil_append] at same
          rw [← same] at noBracket
          simp [RawPredicate.chars] at noBracket
      | cons other predicates =>
          rcases List.forall_mem_cons.mp wellFormed with ⟨otherWellFormed, wellFormedBelow⟩
          rw [List.flatMap_cons, List.append_assoc] at same
          have read := predicateAt?_append firstWellFormed (one.flatMap RawPredicate.chars ++ back)
          rw [same, predicateAt?_append otherWellFormed] at read
          rw [Option.some.injEq, Prod.mk.injEq] at read
          rcases read with ⟨rfl, sameRest⟩
          rcases ih othersWellFormed wellFormedBelow sameRest.symm with ⟨below, rfl, whole⟩
          exact ⟨below, rfl, whole⟩

/-- A list of predicates begins with a bracket. -/
theorem exists_bracket {predicates : List RawPredicate} (notEmpty : predicates ≠ [])
    (back : List Char) :
    ∃ rest, predicates.flatMap RawPredicate.chars ++ back = '[' :: rest := by
  cases predicates with
  | nil => exact absurd rfl notEmpty
  | cons predicate others => exact ⟨_, rfl⟩

/-! ## What predicates ask for -/

namespace RawPredicate

/-- What a predicate as written asks for. -/
def demand (predicate : RawPredicate) : String × String :=
  (Attribute.canonicalName (String.ofList predicate.name),
    String.ofList (unescape predicate.value))

/-- Whether the name of a predicate as written is known. -/
def IsKnown (predicate : RawPredicate) : Prop :=
  (Attribute.canonicalName? (String.ofList predicate.name)).isSome = true

theorem denotes_iff {entry : String × String} :
    predicate.Denotes entry ↔ predicate.IsKnown ∧ predicate.demand = entry := by
  rcases entry with ⟨name, value⟩
  rw [Denotes, IsKnown, demand, Attribute.canonicalName]
  cases Attribute.canonicalName? (String.ofList predicate.name) <;> simp

/-- Whether a name is known shows in what the predicate asks for. -/
theorem isKnown_iff :
    predicate.IsKnown ↔ (Attribute.canonicalName? predicate.demand.1).isSome = true := by
  rw [IsKnown, demand, Attribute.canonicalName]
  cases known : Attribute.canonicalName? (String.ofList predicate.name) with
  | none => rw [Option.getD_none, known]
  | some canonical =>
      rw [Option.getD_some, Attribute.canonicalName?_of_canonicalName? known]

theorem forall₂_denotes_iff {predicates : List RawPredicate} {entries : List (String × String)} :
    List.Forall₂ Denotes predicates entries ↔
      (∀ predicate ∈ predicates, predicate.IsKnown) ∧ predicates.map demand = entries := by
  have asPair : Denotes = fun predicate entry => predicate.IsKnown ∧ predicate.demand = entry := by
    funext predicate entry
    rw [denotes_iff]
  rw [asPair, List.forall₂_and_left, ← List.forall₂_map_left_iff, List.forall₂_eq_eq_eq]

/-- Whether two lists of predicates as written ask for the same, in whatever order and spelling. -/
structure Respell (one other : List RawPredicate) : Prop where
  wellFormed : ∀ predicate ∈ one, predicate.IsWellFormed
  wellFormedOther : ∀ predicate ∈ other, predicate.IsWellFormed
  sameDemands : (one.map demand).Perm (other.map demand)

theorem Respell.symm {one other : List RawPredicate} (respell : Respell one other) :
    Respell other one :=
  ⟨respell.wellFormedOther, respell.wellFormed, respell.sameDemands.symm⟩

/-- Another spelling of some predicates among others asks for the same. -/
theorem Respell.among {one other above below : List RawPredicate} (respell : Respell one other)
    (wellFormed : ∀ predicate ∈ above ++ (one ++ below), predicate.IsWellFormed) :
    Respell (above ++ (one ++ below)) (above ++ (other ++ below)) where
  wellFormed := wellFormed
  wellFormedOther := by
    simp only [List.forall_mem_append] at wellFormed ⊢
    exact ⟨wellFormed.1, respell.wellFormedOther, wellFormed.2.2⟩
  sameDemands := by
    simp only [List.map_append]
    exact (respell.sameDemands.append_right _).append_left _

theorem Respell.eq_nil_iff {one other : List RawPredicate} (respell : Respell one other) :
    one = [] ↔ other = [] := by
  have sameLength := respell.sameDemands.length_eq
  rw [List.length_map, List.length_map] at sameLength
  rw [← List.length_eq_zero_iff, ← List.length_eq_zero_iff, sameLength]

theorem Respell.isKnown {one other : List RawPredicate} (respell : Respell one other)
    (known : ∀ predicate ∈ one, predicate.IsKnown) : ∀ predicate ∈ other, predicate.IsKnown := by
  intro predicate member
  have demanded := respell.sameDemands.mem_iff.mpr (List.mem_map_of_mem member)
  rcases List.mem_map.mp demanded with ⟨original, isOriginal, sameDemand⟩
  rw [isKnown_iff, ← sameDemand, ← isKnown_iff]
  exact known original isOriginal

end RawPredicate

open RawPredicate (Respell)

/-- A segment as written is a role, predicates and an index. -/
theorem spells_iff_predicates {text : List Char} {segment : Segment} :
    Spells text segment ↔ ∃ role predicates index,
      text = role ++ (predicates.flatMap RawPredicate.chars ++ index) ∧
        SpellsRole role segment.role ∧ SpellsIndex index segment.index ∧
        (∀ predicate ∈ predicates, predicate.IsWellFormed) ∧
        (∀ predicate ∈ predicates, predicate.IsKnown) ∧
        ((predicates.map RawPredicate.demand).map Prod.fst).Nodup ∧
        segment.predicates.entries.Perm (predicates.map RawPredicate.demand) ∧
        (role ≠ [] ∨ predicates ≠ []) := by
  constructor
  · rintro ⟨spelledRole, spelledPredicates, distinct, asked, spelledIndex, notBare⟩
    rcases forall₂_spellsPredicate_iff.mp spelledPredicates with
      ⟨predicates, rfl, wellFormed, denote⟩
    rcases RawPredicate.forall₂_denotes_iff.mp denote with ⟨known, rfl⟩
    refine ⟨_, predicates, _, rfl, spelledRole, spelledIndex, wellFormed, known, distinct, asked,
      notBare.imp_right ?_⟩
    exact mt (congrArg (List.map RawPredicate.chars))
  · rintro ⟨role, predicates, index, rfl, spelledRole, spelledIndex, wellFormed, known, distinct,
      asked, notBare⟩
    have spelledPredicates := forall₂_spellsPredicate_iff.mpr
      ⟨predicates, rfl, wellFormed, RawPredicate.forall₂_denotes_iff.mpr ⟨known, rfl⟩⟩
    refine .intro spelledRole spelledPredicates distinct asked spelledIndex ?_
    exact notBare.imp_right (mt List.map_eq_nil_iff.mp)

/-- A segment keeps its meaning when its predicates are spelled in another way. -/
theorem Spells.respell {front back : List Char} {one other : List RawPredicate} {segment : Segment}
    (respell : Respell one other) (notEmpty : one ≠ [])
    (closed : Quotation.outside.run front = .outside)
    (spelled : Spells (front ++ (one.flatMap RawPredicate.chars ++ back)) segment) :
    Spells (front ++ (other.flatMap RawPredicate.chars ++ back)) segment := by
  rcases spells_iff_predicates.mp spelled with ⟨role, predicates, index, whole, spelledRole,
    spelledIndex, wellFormed, known, distinct, asked, notBare⟩
  -- The predicates are some above the list, the list itself, and some below it.
  rcases exists_bracket notEmpty back with ⟨rest, opens⟩
  rw [opens] at whole
  rcases exists_append_of_bracket (not_mem_role spelledRole) whole with ⟨more, rfl, behind⟩
  rw [Quotation.run_append, (spans_role spelledRole).run] at closed
  rcases exists_above_of_bracket wellFormed (not_mem_index spelledIndex) closed behind.symm with
    ⟨above, others, rfl, rfl, atList⟩
  rw [← opens] at atList
  rcases exists_below_of_append respell.wellFormed (fun predicate member =>
    wellFormed predicate (List.mem_append_right _ member)) (not_mem_index spelledIndex) atList with
    ⟨below, rfl, rfl⟩
  have respelled := respell.among wellFormed
  refine spells_iff_predicates.mpr ⟨role, above ++ (other ++ below), index, ?_, spelledRole,
    spelledIndex, respelled.wellFormedOther, respelled.isKnown known, ?_, ?_, ?_⟩
  · simp
  · exact (respelled.sameDemands.map Prod.fst).nodup_iff.mp distinct
  · exact asked.trans respelled.sameDemands
  · right
    simp [respell.eq_nil_iff.not.mp notEmpty]

end Segment

namespace Path

/-! ## Pieces of a text around a list of predicates -/

/-- The pieces of a text between slashes outside quoted values. -/
def pieces? (quotation : Quotation) (text : List Char) : Option (List (List Char)) :=
  (split? quotation text).map fun pieces => pieces.1 :: pieces.2

theorem pieces?_slash (rest : List Char) :
    pieces? .outside ('/' :: rest) = (pieces? .outside rest).map ([] :: ·) := by
  rw [pieces?, split?_slash, pieces?, Option.map_map, Option.map_map]
  rfl

theorem pieces?_cons {quotation : Quotation} {c : Char} (noSlash : quotation = .outside → c ≠ '/')
    (rest : List Char) :
    pieces? quotation (c :: rest) =
      (pieces? (quotation.next c) rest).map (List.modifyHead (c :: ·)) := by
  rw [pieces?, split?_cons noSlash, pieces?, Option.map_map, Option.map_map]
  rfl

theorem pieces?_append {start stop : Quotation} {text : List Char}
    (passes : start.Passes stop text) (rest : List Char) :
    pieces? start (text ++ rest) = (pieces? stop rest).map (List.modifyHead (text ++ ·)) := by
  rw [pieces?, passes, pieces?, Option.map_map, Option.map_map]
  rfl

/-- A front of a text holds some whole pieces and the front of the next one, whatever follows. -/
theorem exists_pieces?_append (quotation : Quotation) (before : List Char) :
    ∃ above last,
      Quotation.run (if above = [] then quotation else .outside) last = quotation.run before ∧
      ∀ rest, pieces? quotation (before ++ rest) =
        (pieces? (quotation.run before) rest).map fun pieces =>
          above ++ pieces.modifyHead (last ++ ·) := by
  induction before generalizing quotation with
  | nil =>
      refine ⟨[], [], rfl, fun rest => ?_⟩
      change _ = (pieces? quotation rest).map (List.modifyHead id)
      rw [List.modifyHead_id, Option.map_id]
      rfl
  | cons c before ih =>
      by_cases separator : quotation = .outside ∧ c = '/'
      · rcases separator with ⟨rfl, rfl⟩
        rcases ih .outside with ⟨above, last, run, pieces⟩
        rw [ite_self] at run
        refine ⟨[] :: above, last, run, fun rest => ?_⟩
        rw [List.cons_append, pieces?_slash, pieces, Option.map_map]
        rfl
      · rcases ih (quotation.next c) with ⟨above, last, run, pieces⟩
        have noSlash : quotation = .outside → c ≠ '/' := not_and.mp separator
        cases above with
        | nil =>
            refine ⟨[], c :: last, run, fun rest => ?_⟩
            rw [List.cons_append, pieces?_cons noSlash, pieces, Option.map_map]
            congr 1
            funext found
            exact List.modifyHead_modifyHead
        | cons first above =>
            refine ⟨(c :: first) :: above, last, run, fun rest => ?_⟩
            rw [List.cons_append, pieces?_cons noSlash, pieces, Option.map_map]
            rfl

/-- A text means a path if its pieces behind the scheme mean the segments. -/
theorem spells_iff_pieces? {text : List Char} {path : Path} :
    Spells text path ↔ ∃ body pieces, text = scheme.toList ++ body ∧
      pieces? .outside body = some pieces ∧ List.Forall₂ Segment.Spells pieces path.segments := by
  rw [spells_iff]
  constructor
  · rintro ⟨body, first, others, hasScheme, _, cut, spelled⟩
    refine ⟨body, first :: others, body?_eq_some_iff.mp hasScheme, ?_, spelled⟩
    rw [pieces?, cut]
    rfl
  · rintro ⟨body, pieces, rfl, cut, spelled⟩
    rcases Option.map_eq_some_iff.mp cut with ⟨⟨first, others⟩, split, rfl⟩
    rw [← spells_iff]
    exact ⟨first :: others, congrArg _ (joinWith_of_split? split).symm, spelled⟩

theorem forall₂_append_cons {α β : Type} {related : α → β → Prop} {item other : α}
    (implies : ∀ meaning, related item meaning → related other meaning) {above below : List α}
    {meanings : List β} (pairwise : List.Forall₂ related (above ++ item :: below) meanings) :
    List.Forall₂ related (above ++ other :: below) meanings := by
  induction above generalizing meanings with
  | nil =>
      cases pairwise with
      | cons first rest => exact .cons (implies _ first) rest
  | cons head above ih =>
      cases pairwise with
      | cons first rest => exact .cons first (ih rest)

open Accessibility.Segment (RawPredicate)

/-- A text keeps its meaning when a list of predicates in it is spelled in another way. -/
theorem Spells.respell {before after : List Char} {one other : List RawPredicate} {path : Path}
    (respell : RawPredicate.Respell one other) (closed : Quotation.outside.run before = .outside)
    (spelled : Spells (before ++ (one.flatMap RawPredicate.chars ++ after)) path) :
    Spells (before ++ (other.flatMap RawPredicate.chars ++ after)) path := by
  by_cases isEmpty : one = []
  · rwa [respell.eq_nil_iff.mp isEmpty, ← isEmpty]
  rcases spells_iff_pieces?.mp spelled with ⟨body, pieces, whole, cut, spelledPieces⟩
  -- The list stands behind the scheme, since the scheme has no bracket.
  rcases Segment.exists_bracket isEmpty after with ⟨rest, opens⟩
  rw [opens] at whole
  rcases Segment.exists_append_of_bracket (by decide) whole with ⟨more, rfl, rfl⟩
  rw [← opens] at cut
  rw [Quotation.run_append] at closed
  change Quotation.outside.run more = .outside at closed
  rcases exists_pieces?_append .outside more with ⟨above, last, run, atMore⟩
  rw [ite_self, closed] at run
  rw [atMore, closed, pieces?_append (RawPredicate.spans_flatMap respell.wellFormed).passes,
    Option.map_map, Option.map_eq_some_iff] at cut
  rcases cut with ⟨behind, cut, rfl⟩
  refine spells_iff_pieces?.mpr ⟨more ++ (other.flatMap RawPredicate.chars ++ after),
    above ++ (behind.modifyHead (other.flatMap RawPredicate.chars ++ ·)).modifyHead (last ++ ·),
    List.append_assoc _ _ _, ?_, ?_⟩
  · rw [atMore, closed, pieces?_append (RawPredicate.spans_flatMap respell.wellFormedOther).passes, cut]
    rfl
  · cases behind with
    | nil => exact spelledPieces
    | cons first others =>
        exact forall₂_append_cons (fun _ spelledPiece => spelledPiece.respell respell isEmpty run)
          spelledPieces

/-- Whether a text differs from another in the order and spelling of a list of predicates. -/
inductive Respells : String → String → Prop where
  | intro {before after : List Char} {one other : List RawPredicate}
      (closed : Quotation.outside.run before = .outside)
      (respell : RawPredicate.Respell one other) :
      Respells (String.ofList (before ++ (one.flatMap RawPredicate.chars ++ after)))
        (String.ofList (before ++ (other.flatMap RawPredicate.chars ++ after)))

theorem Respells.parse_eq_ok_iff {text other : String} (respells : Respells text other)
    {path : Path} : parse text = .ok path ↔ parse other = .ok path := by
  rcases respells with ⟨closed, respell⟩
  simp only [Path.parse_eq_ok_iff, String.toList_ofList]
  exact ⟨fun spelled => spelled.respell respell closed,
    fun spelled => spelled.respell respell.symm closed⟩

/-- Texts that differ only in the order and spelling of predicates are read as the same path, or
both refused. -/
theorem parse_respelled {text other : String}
    (respelled : Relation.ReflTransGen Respells text other) :
    (parse text).toOption = (parse other).toOption := by
  induction respelled with
  | refl => rfl
  | @tail middle last _ respells ih =>
      rw [ih]
      cases read : parse middle with
      | ok path => rw [respells.parse_eq_ok_iff.mp read]
      | error error =>
          cases readLast : parse last with
          | error error => rfl
          | ok path =>
              rw [respells.parse_eq_ok_iff.mpr readLast] at read
              contradiction

end Path

end Accessibility
