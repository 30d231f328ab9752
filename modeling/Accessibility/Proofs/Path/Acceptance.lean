import Accessibility.Proofs.Path.Reading
import Accessibility.Proofs.Path.Splitting

/-!
# Accepted paths

The reader of paths accepts exactly the texts of the grammar and gives them their meaning.  Every
other text is refused as malformed, before any tree is looked at.
-/

namespace Accessibility

namespace Segment

theorem not_isBlank_of_isAlpha {c : Char} (isAlpha : c.isAlpha = true) :
    Text.isBlank c = false := by
  have isLetter : 65 ≤ c.toNat ∧ c.toNat ≤ 90 ∨ 97 ≤ c.toNat ∧ c.toNat ≤ 122 := by
    rcases (Bool.or_eq_true c.isUpper c.isLower).mp isAlpha with isUpper | isLower
    · exact Or.inl (of_decide_eq_true isUpper)
    · obtain ⟨atLeast, atMost⟩ := (Bool.and_eq_true _ _).mp isLower
      exact Or.inr ⟨of_decide_eq_true atLeast, of_decide_eq_true atMost⟩
  simp only [Text.isBlank, Bool.or_eq_false_iff, Bool.and_eq_false_iff, decide_eq_false_iff_not,
    beq_eq_false_iff_ne]
  omega

/-- A segment of the grammar does not begin with a blank. -/
theorem exists_not_isBlank_of_spells {text : List Char} {segment : Segment}
    (spelled : Spells text segment) : ∃ c ∈ text, Text.isBlank c = false := by
  obtain @⟨role, index, pieces, entries, _, spelledRole, spelledPredicates, _, _, _, notBare⟩ :=
    spelled
  generalize segment.role = name at spelledRole
  cases spelledRole with
  | absent =>
      cases spelledPredicates with
      | nil => simp at notBare
      | cons spelledFirst _ =>
          cases spelledFirst
          exact ⟨'[', List.mem_cons_self, by decide⟩
  | star => exact ⟨'*', List.mem_cons_self, by decide⟩
  | name isName =>
      cases role with
      | nil => exact absurd isName id
      | cons first word =>
          exact ⟨first, List.mem_cons_self, not_isBlank_of_isAlpha isName.1⟩

theorem kind_of_parse_eq_error {text : String} {error : PathError}
    (refused : parse text = .error error) : error.kind = .malformed := by
  unfold parse at refused
  cases outcome : read text.toList with
  | ok segment => simp [outcome, Except.mapError] at refused
  | error fault =>
      rw [outcome] at refused
      cases refused
      rfl

end Segment

namespace Path

theorem body?_eq_some_iff {text body : List Char} :
    body? text = some body ↔ text = scheme.toList ++ body := by
  rw [body?]
  split
  · rename_i isScheme
    obtain ⟨rest, rfl⟩ := List.isPrefixOf_iff_prefix.mp isScheme
    have behind : (scheme.toList ++ rest).drop scheme.length = rest := by
      rw [← String.length_toList, List.drop_left]
    rw [behind, Option.some.injEq, List.append_cancel_left_eq]
  · rename_i notScheme
    simp only [reduceCtorEq, false_iff]
    rintro rfl
    exact notScheme (List.isPrefixOf_iff_prefix.mpr (List.prefix_append _ _))

theorem mapM_parse_eq_ok_iff {pieces : List (List Char)} {segments : List Segment} :
    pieces.mapM (fun piece => Segment.parse (String.ofList piece)) = .ok segments ↔
      List.Forall₂ Segment.Spells pieces segments := by
  induction pieces generalizing segments with
  | nil => simp [pure, Except.pure, eq_comm]
  | cons piece pieces ih =>
      rw [List.mapM_cons, List.forall₂_cons_left_iff]
      cases read : Segment.parse (String.ofList piece) with
      | error fault =>
          simp only [bind, Except.bind, reduceCtorEq, false_iff]
          rintro ⟨segment, _, spelled, _⟩
          rw [← String.toList_ofList (l := piece), ← Segment.parse_eq_ok_iff, read] at spelled
          contradiction
      | ok segment =>
          have spelledIff : ∀ other, Segment.Spells piece other ↔ segment = other := by
            intro other
            rw [← String.toList_ofList (l := piece), ← Segment.parse_eq_ok_iff, read,
              Except.ok.injEq]
          cases readRest : pieces.mapM fun piece => Segment.parse (String.ofList piece) with
          | error fault =>
              simp only [bind, Except.bind, reduceCtorEq, false_iff]
              rintro ⟨_, others, _, spelled, _⟩
              rw [← ih, readRest] at spelled
              contradiction
          | ok others =>
              have spelledRest : ∀ rest, List.Forall₂ Segment.Spells pieces rest ↔
                  others = rest := by
                intro rest
                rw [← ih, readRest, Except.ok.injEq]
              simp only [bind, Except.bind, pure, Except.pure, Except.ok.injEq, spelledIff,
                spelledRest]
              simp [eq_comm]

theorem segments_injective : Function.Injective segments := by
  rintro ⟨first, rest⟩ ⟨other, others⟩ same
  cases same
  rfl

/-- The segments of a path are read one after the other. -/
theorem map_segments_ofPieces (first : List Char) (others : List (List Char)) :
    (ofPieces first others).map segments =
      (first :: others).mapM fun piece => Segment.parse (String.ofList piece) := by
  rw [List.mapM_cons, ofPieces]
  cases Segment.parse (String.ofList first) with
  | error fault => rfl
  | ok segment => cases others.mapM fun piece => Segment.parse (String.ofList piece) <;> rfl

theorem ofPieces_eq_ok_iff {first : List Char} {others : List (List Char)} {path : Path} :
    ofPieces first others = .ok path ↔
      List.Forall₂ Segment.Spells (first :: others) path.segments := by
  rw [← mapM_parse_eq_ok_iff, ← map_segments_ofPieces]
  cases ofPieces first others with
  | error fault => exact iff_of_false (by simp) (by simp [Except.map])
  | ok found =>
      rw [Except.map, Except.ok.injEq, Except.ok.injEq]
      exact segments_injective.eq_iff.symm

theorem spells_iff {text : List Char} {path : Path} :
    Spells text path ↔ ∃ body first others, body? text = some body ∧
      body.all Text.isBlank = false ∧ split? .outside body = some (first, others) ∧
      List.Forall₂ Segment.Spells (first :: others) path.segments := by
  constructor
  · rintro ⟨pieces, rfl, spelled⟩
    obtain ⟨first, others, spelledFirst, spelledOthers, rfl⟩ :=
      List.forall₂_cons_right_iff.mp spelled
    refine ⟨_, first, others, body?_eq_some_iff.mpr rfl, ?_, ?_, spelled⟩
    · obtain ⟨c, member, notBlank⟩ := Segment.exists_not_isBlank_of_spells spelledFirst
      rw [List.all_eq_false]
      refine ⟨c, ?_, by simp [notBlank]⟩
      cases others with
      | nil => exact member
      | cons next others => simp [Text.joinWith, member]
    · apply split?_joinWith
      exact ((List.forall₂_and_left _ _).mp (spelled.imp fun piece segment spelledPiece =>
        ⟨(Segment.spans_of_spells spelledPiece).passes, spelledPiece⟩)).1
  · rintro ⟨body, first, others, hasScheme, _, cut, spelled⟩
    refine ⟨first :: others, ?_, spelled⟩
    rw [joinWith_of_split? cut]
    exact body?_eq_some_iff.mp hasScheme

/-- A path is read exactly when the grammar has it. -/
theorem parse_eq_ok_iff {text : String} {path : Path} :
    parse text = .ok path ↔ Spells text.toList path := by
  rw [spells_iff, parse]
  cases hasScheme : body? text.toList with
  | none => simp
  | some body =>
      cases blank : body.all Text.isBlank with
      | true =>
          simp only [blank, if_true, reduceCtorEq, false_iff]
          rintro ⟨_, _, _, same, notBlank, _⟩
          cases same
          rw [blank] at notBlank
          contradiction
      | false =>
          cases cut : split? .outside body with
          | none =>
              simp only [blank, cut, Bool.false_eq_true, if_false, reduceCtorEq, false_iff]
              rintro ⟨_, _, _, same, _, found, _⟩
              cases same
              rw [cut] at found
              contradiction
          | some pieces =>
              obtain ⟨first, others⟩ := pieces
              simp only [blank, cut, Bool.false_eq_true, if_false]
              rw [ofPieces_eq_ok_iff]
              constructor
              · intro spelled
                exact ⟨body, first, others, rfl, blank, cut, spelled⟩
              · rintro ⟨_, _, _, same, _, found, spelled⟩
                cases same
                cases cut.symm.trans found
                exact spelled

theorem kind_of_mapM_parse_eq_error {pieces : List (List Char)} {error : PathError}
    (refused : pieces.mapM (fun piece => Segment.parse (String.ofList piece)) = .error error) :
    error.kind = .malformed := by
  induction pieces with
  | nil => contradiction
  | cons piece pieces ih =>
      rw [List.mapM_cons] at refused
      cases read : Segment.parse (String.ofList piece) with
      | error fault =>
          rw [read] at refused
          cases refused
          exact Segment.kind_of_parse_eq_error read
      | ok segment =>
          cases readRest : pieces.mapM fun piece => Segment.parse (String.ofList piece) with
          | error fault =>
              rw [read, readRest] at refused
              cases refused
              exact ih readRest
          | ok others =>
              rw [read, readRest] at refused
              contradiction

theorem kind_of_ofPieces_eq_error {first : List Char} {others : List (List Char)}
    {error : PathError} (refused : ofPieces first others = .error error) :
    error.kind = .malformed := by
  have refusedPieces := map_segments_ofPieces first others
  rw [refused] at refusedPieces
  exact kind_of_mapM_parse_eq_error refusedPieces.symm

/-- A text that is refused is refused for its own sake. -/
theorem kind_of_parse_eq_error {text : String} {error : PathError}
    (refused : parse text = .error error) : error.kind = .malformed := by
  unfold parse at refused
  split at refused
  · cases refused
    rfl
  · split at refused
    · cases refused
      rfl
    · split at refused
      · cases refused
        rfl
      · exact kind_of_ofPieces_eq_error refused

/-- Reading decides the grammar: a text is read as the path that it means, and a text without a
meaning is refused as malformed. -/
theorem parse_decides_grammar (text : String) :
    (∀ path, parse text = .ok path ↔ Spells text.toList path) ∧
      ((∀ path, ¬ Spells text.toList path) →
        ∃ error, parse text = .error error ∧ error.kind = .malformed) := by
  constructor
  · intro path
    exact parse_eq_ok_iff
  · intro meaningless
    cases outcome : parse text with
    | ok path => exact absurd (parse_eq_ok_iff.mp outcome) (meaningless path)
    | error error => exact ⟨error, rfl, kind_of_parse_eq_error outcome⟩

end Path

end Accessibility
