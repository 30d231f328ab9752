import Accessibility.Proofs.Path.Reading
import Accessibility.Proofs.Path.Splitting

/-!
# Pieces of paths

Whether a text ends in a quoted value can be told by a flag that every quote turns; while it is on,
a backslash takes the next character along.  A text is cut at exactly the slashes at which the flag
is off.  It has such a cut unless it ends in a quoted value, it has no other, and the cut finds
again the segments that were joined.
-/

namespace Accessibility

namespace Path

/-- Whether a text ends in a quoted value, given whether it begins in one. -/
def endsQuoted : Bool → List Char → Bool
  | quoted, [] => quoted
  | true, '\\' :: _ :: rest => endsQuoted true rest
  | quoted, c :: rest => endsQuoted (if c = '"' then !quoted else quoted) rest

/-- A text that is in no quoted value at its end, and in one at each of its slashes. -/
structure IsPiece (text : List Char) : Prop where
  closed : endsQuoted false text = false
  quoted : ∀ before after, text = before ++ '/' :: after → endsQuoted false before = true

/-- Pieces that are a text when slashes stand between them. -/
structure IsCut (text : List Char) (pieces : List (List Char)) : Prop where
  nonempty : pieces ≠ []
  joined : Text.joinWith ['/'] pieces = text
  isPiece : ∀ piece ∈ pieces, IsPiece piece

/-! ## The search as a scan -/

namespace Quotation

/-- Where the search stands if it is not behind a backslash. -/
def ofQuoted (quoted : Bool) : Quotation :=
  if quoted then inside else outside

theorem next_ofQuoted {quoted : Bool} {c : Char} (noEscape : ¬(quoted = true ∧ c = '\\')) :
    (ofQuoted quoted).next c = ofQuoted (if c = '"' then !quoted else quoted) := by
  cases quoted with
  | false => by_cases isQuote : c = '"' <;> simp [ofQuoted, next, isQuote]
  | true =>
      have notBackslash : c ≠ '\\' := fun isBackslash => noEscape ⟨rfl, isBackslash⟩
      by_cases isQuote : c = '"' <;> simp [ofQuoted, next, isQuote, notBackslash]

theorem endsQuoted_eq_false_iff {quoted : Bool} {text : List Char} :
    endsQuoted quoted text = false ↔ (ofQuoted quoted).run text = outside := by
  fun_induction endsQuoted quoted text with
  | case1 quoted => cases quoted <;> simp [ofQuoted]
  | case2 _ rest ih => exact ih
  | case3 quoted c rest isLast ih =>
      by_cases isEscape : quoted = true ∧ c = '\\'
      · obtain ⟨rfl, rfl⟩ := isEscape
        -- The backslash is the last character, since it takes none along.
        cases rest with
        | nil => simp [ofQuoted, next, endsQuoted]
        | cons d rest => exact absurd rfl (isLast d rest rfl rfl)
      · rw [ih, run_cons, next_ofQuoted isEscape]

/-- The flag is off where the search stands outside quoted values. -/
theorem endsQuoted_iff {text : List Char} :
    endsQuoted false text = true ↔ outside.run text ≠ outside := by
  rw [← Bool.not_eq_false, endsQuoted_eq_false_iff]
  rfl

end Quotation

open Quotation

theorem isPiece_iff {text : List Char} : IsPiece text ↔ outside.Spans '/' outside text := by
  constructor
  · rintro ⟨closed, quoted⟩
    exact ⟨endsQuoted_eq_false_iff.mp closed,
      fun before after same => endsQuoted_iff.mp (quoted before after same)⟩
  · rintro ⟨run, quoted⟩
    exact ⟨endsQuoted_eq_false_iff.mpr run,
      fun before after same => endsQuoted_iff.mpr (quoted before after same)⟩

/-! ## The cut -/

/-- The search fails only at the end of the text, in a quoted value. -/
theorem split?_eq_none_iff {start : Quotation} {text : List Char} :
    split? start text = none ↔ start.run text ≠ outside := by
  induction text generalizing start with
  | nil => cases start <;> simp [split?]
  | cons c rest ih =>
      by_cases separator : start = outside ∧ c = '/'
      · obtain ⟨rfl, rfl⟩ := separator
        rw [split?_slash, Option.map_eq_none_iff, ih]
        rfl
      · rw [split?_cons (not_and.mp separator), Option.map_eq_none_iff, ih, run_cons]

/-- All pieces that the search finds end outside quoted values and have their slashes in them.  Only
the first one begins where the search does. -/
theorem spans_of_split? {start : Quotation} {text first : List Char} {others : List (List Char)}
    (cut : split? start text = some (first, others)) :
    start.Spans '/' outside first ∧ ∀ piece ∈ others, outside.Spans '/' outside piece := by
  induction text generalizing start first others with
  | nil =>
      cases start with
      | outside =>
          cases cut
          exact ⟨.nil _ _, by simp⟩
      | inside => contradiction
      | escaped => contradiction
  | cons c rest ih =>
      by_cases separator : start = outside ∧ c = '/'
      · obtain ⟨rfl, rfl⟩ := separator
        rw [split?_slash] at cut
        obtain ⟨⟨next, more⟩, cutRest, same⟩ := Option.map_eq_some_iff.mp cut
        cases same
        exact ⟨.nil _ _, List.forall_mem_cons.mpr (ih cutRest)⟩
      · have notSlash : start = outside → c ≠ '/' := not_and.mp separator
        rw [split?_cons notSlash] at cut
        obtain ⟨⟨next, more⟩, cutRest, same⟩ := Option.map_eq_some_iff.mp cut
        cases same
        obtain ⟨spansNext, spansMore⟩ := ih cutRest
        exact ⟨.cons notSlash spansNext, spansMore⟩

theorem isCut_of_split? {text first : List Char} {others : List (List Char)}
    (cut : split? .outside text = some (first, others)) : IsCut text (first :: others) where
  nonempty := List.cons_ne_nil first others
  joined := joinWith_of_split? cut
  isPiece := by
    intro piece member
    exact isPiece_iff.mpr (List.forall_mem_cons.mpr (spans_of_split? cut) piece member)

theorem split?_eq_some_of_isCut {text first : List Char} {others : List (List Char)}
    (isCut : IsCut text (first :: others)) : split? .outside text = some (first, others) := by
  rw [← isCut.joined]
  exact split?_joinWith fun piece member => (isPiece_iff.mp (isCut.isPiece piece member)).passes

/-- A text has no cut if it ends in a quoted value, and else it has exactly the cut that is found.
Segments that can be read are found again between slashes. -/
theorem split?_finds_the_cut (text : List Char) :
    (split? .outside text = none ↔ endsQuoted false text = true) ∧
      (endsQuoted false text = false → ∃ first others,
        split? .outside text = some (first, others) ∧
        ∀ pieces, IsCut text pieces ↔ pieces = first :: others) ∧
      ∀ first others,
        (∀ piece ∈ first :: others, ∃ segment,
          Segment.parse (String.ofList piece) = .ok segment) →
        split? .outside (Text.joinWith ['/'] (first :: others)) = some (first, others) := by
  have fails : split? .outside text = none ↔ endsQuoted false text = true := by
    rw [split?_eq_none_iff, endsQuoted_iff]
  refine ⟨fails, ?_, ?_⟩
  · intro closed
    cases cut : split? .outside text with
    | none =>
        rw [fails.mp cut] at closed
        contradiction
    | some found =>
        obtain ⟨first, others⟩ := found
        refine ⟨first, others, rfl, fun pieces => ⟨?_, ?_⟩⟩
        · intro isCut
          obtain ⟨one, more, rfl⟩ := List.exists_cons_of_ne_nil isCut.nonempty
          cases cut.symm.trans (split?_eq_some_of_isCut isCut)
          rfl
        · rintro rfl
          exact isCut_of_split? cut
  · intro first others areSegments
    apply split?_joinWith
    intro piece member
    obtain ⟨segment, read⟩ := areSegments piece member
    have spelled := Segment.parse_eq_ok_iff.mp read
    rw [String.toList_ofList] at spelled
    exact (Segment.spans_of_spells spelled).passes

theorem split?_finds_the_cut_of_quoted_slash :
    let window := "AXWindow[@AXTitle=\"a/b \\\"c\\\" #2\"]".toList
    let button := "AXButton".toList
    let text := Text.joinWith ['/'] [window, button]
    (∀ piece ∈ [window, button], ∃ segment,
        Segment.parse (String.ofList piece) = .ok segment) ∧
      endsQuoted false text = false ∧
      split? .outside text = some (window, [button]) ∧
      ∀ pieces, IsCut text pieces ↔ pieces = [window, button] := by
  intro window button text
  have areSegments : ∀ piece ∈ [window, button], ∃ segment,
      Segment.parse (String.ofList piece) = .ok segment := by
    intro piece member
    rcases List.mem_pair.mp member with rfl | rfl
    · exact ⟨({ role := "AXWindow" } : Segment).withPredicate "AXTitle" "a/b \"c\" #2",
        by decide +kernel⟩
    · exact ⟨{ role := "AXButton" }, by decide +kernel⟩
  have closed : endsQuoted false text = false := by
    decide +kernel
  obtain ⟨_, hasCut, finds⟩ := split?_finds_the_cut text
  have found := finds window [button] areSegments
  obtain ⟨first, others, cut, only⟩ := hasCut closed
  cases found.symm.trans cut
  exact ⟨areSegments, closed, found, only⟩

end Path

end Accessibility
