import Accessibility.Proofs.Path.RoundTrip

/-!
# Distinct paths are written differently

A segment with a role that can be written and with predicates of canonical names is told from any
other by its written form, however large its index is.  So are paths of such segments, whatever the
values in them contain.
-/

namespace Accessibility

namespace Segment

/-- A segment whose role and predicates can be written. -/
structure IsWritable (segment : Segment) : Prop where
  role : IsRole segment.role
  canonical : ∀ entry ∈ segment.predicates.entries,
    Attribute.canonicalName? entry.1 = some entry.1

/-- The written form of the predicates. -/
def blockChars (segment : Segment) : List Char :=
  (segment.predicates.entries.map fun entry => predicateChars entry.1 entry.2).flatten

theorem chars_eq (segment : Segment) :
    segment.chars =
      roleChars segment.role ++ (segment.blockChars ++ indexChars segment.index) := by
  rw [chars, List.flatMap, blockChars]

variable {segment other : Segment}

/-! ## Taking a written segment apart -/

theorem IsWritable.spelledPredicates (writable : segment.IsWritable) :
    List.Forall₂ SpellsPredicate
      (segment.predicates.entries.map fun entry => predicateChars entry.1 entry.2)
      segment.predicates.entries :=
  spellsPredicates_predicateChars writable.canonical

theorem followsRole_indexChars (index : Option Nat) : FollowsRole (indexChars index) := by
  cases index <;> simp [FollowsRole, indexChars]

theorem takeRole_chars (writable : segment.IsWritable) :
    takeRole segment.chars =
      (some segment.role, segment.blockChars ++ indexChars segment.index) := by
  have follows := followsRole_predicates writable.spelledPredicates
    (followsRole_indexChars segment.index)
  rw [chars_eq, blockChars, takeRole_append (spellsRole_roleChars writable.role) follows,
    if_neg (roleChars_ne_nil segment.role)]

theorem takeBlock_blockChars (writable : segment.IsWritable) :
    takeBlock .outside (segment.blockChars ++ indexChars segment.index) =
      some (segment.blockChars, indexChars segment.index) := by
  have ends : takeBlock .outside (indexChars segment.index) =
      some ([], indexChars segment.index) := by
    cases segment.index <;> rfl
  rw [blockChars, takeBlock_append (run_predicates writable.spelledPredicates), ends]
  simp

theorem readPredicates_blockChars (writable : segment.IsWritable) :
    readPredicates segment.blockChars = .ok segment.predicates :=
  readPredicates_eq_ok_iff.mpr
    ⟨_, _, rfl, writable.spelledPredicates, segment.predicates.nodup_names, List.Perm.refl _⟩

theorem indexChars_injective : Function.Injective indexChars := by
  rintro (_ | one) (_ | other) same
  · rfl
  · cases same
  · cases same
  · have digits : Nat.toDigits 10 one = Nat.toDigits 10 other := List.tail_eq_of_cons_eq same
    have read := congrArg (Nat.ofDigitChars 10 · 0) digits
    simpa only [Nat.ofDigitChars_ten_toDigits] using congrArg some read

/-- A segment that can be written is the only one with its written form. -/
theorem eq_of_chars_eq (writable : segment.IsWritable) (otherWritable : other.IsWritable)
    (same : segment.chars = other.chars) : segment = other := by
  have roles := congrArg takeRole same
  rw [takeRole_chars writable, takeRole_chars otherWritable, Prod.mk.injEq,
    Option.some_inj] at roles
  rcases roles with ⟨sameRole, afterRole⟩
  have blocks := congrArg (takeBlock .outside) afterRole
  rw [takeBlock_blockChars writable, takeBlock_blockChars otherWritable, Option.some_inj,
    Prod.mk.injEq] at blocks
  rcases blocks with ⟨sameBlock, sameIndex⟩
  have predicates := congrArg readPredicates sameBlock
  rw [readPredicates_blockChars writable, readPredicates_blockChars otherWritable,
    Except.ok.injEq] at predicates
  cases segment
  cases other
  simp only [Segment.mk.injEq]
  exact ⟨sameRole, predicates, indexChars_injective sameIndex⟩

theorem spans_chars (writable : segment.IsWritable) :
    Path.Quotation.outside.Spans '/' .outside segment.chars := by
  have spansIndex : Path.Quotation.outside.Spans '/' .outside (indexChars segment.index) := by
    cases segment.index with
    | none => exact .nil _ _
    | some number => exact spans_numeral (isNumeral_toDigits number)
  rw [chars_eq]
  exact (spans_role (spellsRole_roleChars writable.role)).append
    ((spans_predicates writable.spelledPredicates).append spansIndex)

theorem eq_of_map_chars_eq {segments others : List Segment}
    (writable : ∀ segment ∈ segments, segment.IsWritable)
    (otherWritable : ∀ segment ∈ others, segment.IsWritable)
    (same : segments.map chars = others.map chars) : segments = others := by
  induction segments generalizing others with
  | nil => exact (List.map_eq_nil_iff.mp same.symm).symm
  | cons first rest ih =>
      cases others with
      | nil => cases same
      | cons other others =>
          rcases List.forall_mem_cons.mp writable with ⟨writableFirst, writableRest⟩
          rcases List.forall_mem_cons.mp otherWritable with ⟨writableOther, writableOthers⟩
          rcases List.cons.inj same with ⟨sameFirst, sameRest⟩
          rw [eq_of_chars_eq writableFirst writableOther sameFirst,
            ih writableRest writableOthers sameRest]

end Segment

namespace Path

theorem passes_map_chars {path : Path} (writable : ∀ segment ∈ path.segments, segment.IsWritable) :
    ∀ piece ∈ path.segments.map Segment.chars, Quotation.outside.Passes .outside piece := by
  intro piece member
  rcases List.mem_map.mp member with ⟨segment, onPath, rfl⟩
  exact (Segment.spans_chars (writable segment onPath)).passes

theorem split?_chars {path : Path} (writable : ∀ segment ∈ path.segments, segment.IsWritable) :
    split? .outside (Text.joinWith ['/'] (path.segments.map Segment.chars)) =
      some (path.first.chars, path.rest.map Segment.chars) :=
  split?_joinWith (passes_map_chars writable)

/-- A path of segments that can be written is the only one with its written form. -/
theorem eq_of_render_eq {path other : Path}
    (writable : ∀ segment ∈ path.segments, segment.IsWritable)
    (otherWritable : ∀ segment ∈ other.segments, segment.IsWritable)
    (same : path.render = other.render) : path = other := by
  have sameChars := congrArg String.toList same
  rw [toList_render, toList_render, chars, chars, List.append_cancel_left_eq] at sameChars
  have samePieces := congrArg (split? .outside) sameChars
  rw [split?_chars writable, split?_chars otherWritable, Option.some_inj,
    Prod.mk.injEq] at samePieces
  rcases samePieces with ⟨sameFirst, sameRest⟩
  apply segments_injective
  exact Segment.eq_of_map_chars_eq writable otherWritable (congrArg₂ List.cons sameFirst sameRest)

end Path

end Accessibility
