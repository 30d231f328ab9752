import Accessibility.Text.Search
import Mathlib.Data.List.Infix

/-!
# Occurrences and pieces

What it means to find a text in another, and to split a text at a separator.  Separators are found
from left to right: no occurrence begins in a piece, be it one that overlaps the separator behind
the piece.
-/

namespace Accessibility.Text

theorem occursIn_iff {needle text : List Char} :
    occursIn needle text = true ↔ needle <:+: text := by
  induction text with
  | nil => rw [occursIn, List.isEmpty_iff, List.infix_nil]
  | cons c rest ih =>
      rw [occursIn, Bool.or_eq_true, List.isPrefixOf_iff_prefix, ih, List.infix_cons_iff]

/-- A text and its pieces: the last piece holds no separator, and no separator begins in a piece
before the one that ends it. -/
inductive Splits (separator : List Char) : List Char → List (List Char) → Prop
  | last {piece : List Char} (absent : ¬separator <:+: piece) : Splits separator piece [piece]
  | more {piece text : List Char} {pieces : List (List Char)}
      (absent : ¬separator <:+: piece ++ separator.dropLast)
      (rest : Splits separator text pieces) :
      Splits separator (piece ++ separator ++ text) (piece :: pieces)

variable {separator text : List Char} {pieces : List (List Char)}

/-! ## Steps of splitting -/

theorem splitFrom_skipped (separator skipped text : List Char) :
    splitFrom separator skipped.length (skipped ++ text) = splitFrom separator 0 text := by
  induction skipped with
  | nil => rfl
  | cons c skipped ih => exact ih

theorem splitOn_of_isPrefix (notEmpty : separator ≠ []) (text : List Char) :
    splitOn separator (separator ++ text) = [] :: splitOn separator text := by
  cases separator with
  | nil => contradiction
  | cons c separator =>
      have found : (c :: separator).isPrefixOf (c :: (separator ++ text)) = true :=
        List.isPrefixOf_iff_prefix.mpr (List.prefix_append _ text)
      rw [splitOn, List.cons_append, splitFrom, if_pos found, List.length_cons,
        Nat.add_sub_cancel, splitFrom_skipped, splitOn]

theorem splitOn_cons {c : Char} (absent : ¬separator <+: c :: text) :
    splitOn separator (c :: text) = (splitOn separator text).modifyHead (c :: ·) := by
  rw [splitOn, splitFrom, if_neg (mt List.isPrefixOf_iff_prefix.mp absent), splitOn,
    List.modifyHead_cons]

theorem append_dropLast_isPrefix (piece separator text : List Char) :
    piece ++ separator.dropLast <+: piece ++ separator ++ text := by
  rw [List.append_assoc, List.prefix_append_right_inj]
  exact (List.dropLast_prefix separator).trans (List.prefix_append _ text)

theorem splitOn_of_absent (absent : ¬separator <:+: text) :
    splitOn separator text = [text] := by
  induction text with
  | nil => rfl
  | cons c text ih =>
      rw [List.infix_cons_iff, not_or] at absent
      rw [splitOn_cons absent.1, ih absent.2, List.modifyHead_cons]

/-- What stands before the first separator is the first piece. -/
theorem splitOn_append {piece : List Char} (notEmpty : separator ≠ [])
    (absent : ¬separator <:+: piece ++ separator.dropLast) (text : List Char) :
    splitOn separator (piece ++ separator ++ text) = piece :: splitOn separator text := by
  induction piece with
  | nil => exact splitOn_of_isPrefix notEmpty text
  | cons c piece ih =>
      rw [List.cons_append, List.infix_cons_iff, not_or] at absent
      have notFirst : ¬separator <+: c :: (piece ++ separator ++ text) := by
        -- A separator at the front would end before the last character of the one behind the piece.
        intro isFirst
        apply absent.1
        apply List.prefix_of_prefix_length_le isFirst
          (append_dropLast_isPrefix (c :: piece) separator text)
        rw [List.length_append, List.length_cons, List.length_dropLast]
        omega
      rw [List.cons_append, List.cons_append, splitOn_cons notFirst, ih absent.2,
        List.modifyHead_cons]

/-! ## The pieces of a text -/

theorem Splits.cons {c : Char} (absent : ¬separator <+: c :: text)
    (splits : Splits separator text pieces) :
    Splits separator (c :: text) (pieces.modifyHead (c :: ·)) := by
  cases splits with
  | last absentLater =>
      apply Splits.last
      rw [List.infix_cons_iff, not_or]
      exact ⟨absent, absentLater⟩
  | @more piece text pieces absentLater rest =>
      rw [List.modifyHead_cons, ← List.cons_append, ← List.cons_append]
      refine Splits.more ?_ rest
      rw [List.cons_append, List.infix_cons_iff, not_or]
      exact ⟨fun isFirst =>
        absent (isFirst.trans (append_dropLast_isPrefix (c :: piece) separator text)), absentLater⟩

theorem splits_splitOn (notEmpty : separator ≠ []) (text : List Char) :
    Splits separator text (splitOn separator text) := by
  cases text with
  | nil =>
      apply Splits.last
      rwa [List.infix_nil]
  | cons c text =>
      by_cases isFirst : separator <+: c :: text
      · rcases isFirst with ⟨rest, split⟩
        have shorter : rest.length < (c :: text).length := by
          have positive := List.length_pos_iff.mpr notEmpty
          rw [← split, List.length_append]
          omega
        rw [← split, splitOn_of_isPrefix notEmpty]
        refine @Splits.more _ [] _ _ (fun inside => ?_) (splits_splitOn notEmpty rest)
        have tooLong := inside.length_le
        have positive := List.length_pos_iff.mpr notEmpty
        rw [List.nil_append, List.length_dropLast] at tooLong
        omega
      · rw [splitOn_cons isFirst]
        exact (splits_splitOn notEmpty text).cons isFirst
termination_by text.length
decreasing_by
  · exact shorter
  · exact Nat.lt_add_one _

end Accessibility.Text
