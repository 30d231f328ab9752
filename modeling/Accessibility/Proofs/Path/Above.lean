import Accessibility.Proofs.Path.Distinct

/-!
# Paths above others

A path is above another if it is a part of it from the top on.  The written form then begins with
that of the path above, up to a slash, and of two written paths only these do: a slash in a quoted
value ends no written path.
-/

namespace Accessibility

theorem Text.joinWith_append (separator first : List Char) (pieces : List (List Char))
    (next : List Char) (others : List (List Char)) :
    joinWith separator (first :: pieces ++ next :: others) =
      joinWith separator (first :: pieces) ++ separator ++ joinWith separator (next :: others) := by
  induction pieces generalizing first with
  | nil => rfl
  | cons piece pieces ih =>
      have below := ih piece
      rw [List.cons_append] at below ⊢
      rw [List.cons_append, joinWith, below, joinWith]
      simp only [List.append_assoc]

namespace Path

variable {path other : Path}

/-- Whether a path is a part of another from the top on, and not all of it. -/
def IsAbove (path other : Path) : Prop :=
  ∃ below, below ≠ [] ∧ other.segments = path.segments ++ below

theorem IsAbove.length_lt (above : path.IsAbove other) : path.length < other.length := by
  rcases above with ⟨below, notEmpty, split⟩
  have count := congrArg List.length split
  rw [length_segments, List.length_append, length_segments] at count
  have positive := List.length_pos_iff.mpr notEmpty
  omega

theorem isWritable_of_parse {text : String} (read : parse text = .ok path) :
    ∀ segment ∈ path.segments, segment.IsWritable := by
  intro segment member
  have wellFormed := isWellFormed_of_parse read segment member
  exact ⟨wellFormed.role, wellFormed.canonical⟩

/-- Behind joined pieces without separators the search for separators begins anew after a slash. -/
theorem split?_joinWith_append {first : List Char} {others : List (List Char)}
    (passes : ∀ piece ∈ first :: others, Quotation.outside.Passes .outside piece)
    (rest : List Char) :
    split? .outside (Text.joinWith ['/'] (first :: others) ++ '/' :: rest) =
      (split? .outside rest).map fun (next, more) => (first, others ++ next :: more) := by
  induction others generalizing first with
  | nil =>
      rw [Text.joinWith_singleton, passes first List.mem_cons_self, split?_slash, Option.map_map]
      congr 1
      funext pieces
      simp
  | cons piece others ih =>
      rcases List.forall_mem_cons.mp passes with ⟨passesFirst, passesOthers⟩
      rw [Text.joinWith, List.append_assoc, List.append_assoc, passesFirst, List.singleton_append,
        split?_slash, ih passesOthers, Option.map_map, Option.map_map]
      congr 1
      funext pieces
      simp

/-- A written path begins with the written form of every path above it, up to a slash. -/
theorem IsAbove.exists_toList_render (above : path.IsAbove other) :
    ∃ rest, other.render.toList = path.render.toList ++ '/' :: rest := by
  rcases above with ⟨below, notEmpty, split⟩
  cases below with
  | nil => contradiction
  | cons next below =>
      refine ⟨Text.joinWith ['/'] (next.chars :: below.map Segment.chars), ?_⟩
      have joined := Text.joinWith_append ['/'] path.first.chars (path.rest.map Segment.chars)
        next.chars (below.map Segment.chars)
      rw [toList_render, toList_render, chars, chars, split, List.map_append, List.map_cons,
        segments, List.map_cons, joined]
      simp only [List.append_assoc, List.singleton_append]

/-- Written paths begin, up to a slash, with the written forms of the paths above them and with
those of no others. -/
theorem isAbove_iff (writable : ∀ segment ∈ path.segments, segment.IsWritable)
    (otherWritable : ∀ segment ∈ other.segments, segment.IsWritable) :
    path.IsAbove other ↔ ∃ rest, other.render.toList = path.render.toList ++ '/' :: rest := by
  constructor
  · exact IsAbove.exists_toList_render
  · rintro ⟨rest, begins⟩
    rw [toList_render, toList_render, chars, chars, List.append_assoc,
      List.append_cancel_left_eq] at begins
    have pieces := congrArg (split? .outside) begins
    rw [split?_chars otherWritable, segments, List.map_cons,
      split?_joinWith_append (passes_map_chars writable)] at pieces
    rcases Option.map_eq_some_iff.mp pieces.symm with ⟨⟨next, more⟩, _, same⟩
    rw [Prod.mk.injEq] at same
    have written : other.segments.map Segment.chars =
        path.segments.map Segment.chars ++ next :: more := by
      rw [segments, segments, List.map_cons, List.map_cons, ← same.1, ← same.2, List.cons_append]
    rcases List.map_eq_append_iff.mp written with ⟨upper, below, split, sameUpper, sameBelow⟩
    have upperWritable : ∀ segment ∈ upper, segment.IsWritable := by
      intro segment member
      apply otherWritable
      rw [split]
      exact List.mem_append_left below member
    refine ⟨below, ?_, ?_⟩
    · rintro rfl
      contradiction
    · rw [split, Segment.eq_of_map_chars_eq upperWritable writable sameUpper]

end Path

end Accessibility
