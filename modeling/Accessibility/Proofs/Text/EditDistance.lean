import Accessibility.Text.EditDistance
import Mathlib.Order.Bounds.Basic
import Mathlib.Order.MinMax

/-!
# Edit distances

A text turns into another by edits made from its front to its end.  The table of distances grows at
the ends of the two texts instead, but the same edits made the other way round are as many.  A row
of the table therefore holds the distances of one part of the source from all parts of the target,
and the last cell that of the whole texts.
-/

namespace Accessibility.Text

/-- Whether a text turns into another by a number of edits: passing over both, every character is
kept, or it is substituted, deleted or inserted by one edit. -/
inductive Edits : List Char → List Char → Nat → Prop
  | nothing : Edits [] [] 0
  | keep (c : Char) {source target : List Char} {edits : Nat} (rest : Edits source target edits) :
      Edits (c :: source) (c :: target) edits
  | substitute (c d : Char) {source target : List Char} {edits : Nat}
      (rest : Edits source target edits) : Edits (c :: source) (d :: target) (edits + 1)
  | delete (c : Char) {source target : List Char} {edits : Nat}
      (rest : Edits source target edits) : Edits (c :: source) target (edits + 1)
  | insert (d : Char) {source target : List Char} {edits : Nat}
      (rest : Edits source target edits) : Edits source (d :: target) (edits + 1)

variable {source target before after : List Char} {edits more : Nat}

namespace Edits

/-- What turns a text into another can be undone by as many edits. -/
theorem symm (turns : Edits source target edits) : Edits target source edits := by
  induction turns with
  | nothing => exact .nothing
  | keep c _ ih => exact .keep c ih
  | substitute c d _ ih => exact .substitute d c ih
  | delete c _ ih => exact .insert c ih
  | insert d _ ih => exact .delete d ih

theorem append (turns : Edits source target edits) (turnsNext : Edits before after more) :
    Edits (source ++ before) (target ++ after) (more + edits) := by
  induction turns with
  | nothing => exact turnsNext
  | keep c _ ih => exact .keep c ih
  | substitute c d _ ih => exact .substitute c d ih
  | delete c _ ih => exact .delete c ih
  | insert d _ ih => exact .insert d ih

/-- Edits can be made from the end of the texts as well. -/
theorem reverse (turns : Edits source target edits) :
    Edits source.reverse target.reverse edits := by
  induction turns with
  | nothing => exact .nothing
  | keep c _ ih => simpa using ih.append (.keep c .nothing)
  | substitute c d _ ih => simpa [Nat.add_comm] using ih.append (.substitute c d .nothing)
  | delete c _ ih => simpa [Nat.add_comm] using ih.append (.delete c .nothing)
  | insert d _ ih => simpa [Nat.add_comm] using ih.append (.insert d .nothing)

/-- An edit adds at most one character. -/
theorem length_le (turns : Edits source target edits) :
    target.length ≤ source.length + edits := by
  induction turns with
  | nothing => exact Nat.le_refl 0
  | keep _ _ ih | substitute _ _ _ ih | delete _ _ ih | insert _ _ ih =>
      simp only [List.length_cons] at ih ⊢
      omega

end Edits

theorem edits_reverse_iff :
    Edits source.reverse target.reverse edits ↔ Edits source target edits :=
  ⟨fun turns => by simpa using turns.reverse, Edits.reverse⟩

theorem edits_comm_iff : Edits source target edits ↔ Edits target source edits :=
  ⟨Edits.symm, Edits.symm⟩

/-- Whether a number is the least number of edits that turn a text into another. -/
def IsDistance (source target : List Char) (distance : Nat) : Prop :=
  IsLeast {edits | Edits source target edits} distance

namespace IsDistance

variable {c d : Char} {left above corner : Nat}

/-- A text is made from nothing by inserting its characters. -/
theorem from_nil (target : List Char) : IsDistance [] target target.length := by
  constructor
  · induction target with
    | nil => exact .nothing
    | cons d target ih => exact .insert d ih
  · intro edits turns
    simpa using Edits.length_le turns

theorem symm {distance : Nat} (isDistance : IsDistance source target distance) :
    IsDistance target source distance := by
  simpa only [IsDistance, edits_comm_iff] using isDistance

/-- A cell of the table is determined by those to the left of it, above it and in the corner. -/
theorem cell (isLeft : IsDistance (c :: source) target left)
    (isAbove : IsDistance source (d :: target) above)
    (isCorner : IsDistance source target corner) :
    IsDistance (c :: source) (d :: target)
      (min (min (above + 1) (left + 1)) (corner + if c = d then 0 else 1)) := by
  have deleted : Edits (c :: source) (d :: target) (above + 1) := .delete c isAbove.1
  have inserted : Edits (c :: source) (d :: target) (left + 1) := .insert d isLeft.1
  have passed : Edits (c :: source) (d :: target) (corner + if c = d then 0 else 1) := by
    split
    next same => exact same ▸ .keep c isCorner.1
    next => exact .substitute c d isCorner.1
  constructor
  · exact min_rec' (Edits _ _) (min_rec' (Edits _ _) deleted inserted) passed
  · -- The first of the edits tells from which cell the others are counted.
    intro edits turns
    cases turns with
    | keep _ rest =>
        have fewest := isCorner.2 rest
        rw [if_pos rfl]
        omega
    | substitute _ _ rest =>
        have fewest := isCorner.2 rest
        split <;> omega
    | delete _ rest =>
        have fewest := isAbove.2 rest
        omega
    | insert _ rest =>
        have fewest := isLeft.2 rest
        omega

end IsDistance

/-- Whether a list holds the distances of a text from the parts of a target: first from the part
that was passed, then from those with more and more of the rest.  All parts are reversed. -/
inductive IsRow (source : List Char) : List Char → List Char → List Nat → Prop
  | last {passed : List Char} {distance : Nat} (isDistance : IsDistance source passed distance) :
      IsRow source passed [] [distance]
  | more {passed rest : List Char} {d : Char} {distance : Nat} {cells : List Nat}
      (isDistance : IsDistance source passed distance)
      (others : IsRow source (d :: passed) rest cells) :
      IsRow source passed (d :: rest) (distance :: cells)

namespace IsRow

variable {passed rest : List Char} {cells : List Nat}

theorem exists_head (isRow : IsRow source passed rest cells) :
    ∃ distance others, cells = distance :: others ∧ IsDistance source passed distance := by
  cases isRow with
  | last isDistance => exact ⟨_, _, rfl, isDistance⟩
  | more isDistance _ => exact ⟨_, _, rfl, isDistance⟩

theorem isDistance_getLastD (isRow : IsRow source passed rest cells) (fallback : Nat) :
    IsDistance source (rest.reverse ++ passed) (cells.getLastD fallback) := by
  induction isRow generalizing fallback with
  | last isDistance => exact isDistance
  | more _ _ ih =>
      rw [List.reverse_cons, List.append_assoc, List.getLastD_cons]
      exact ih _

/-- The first row counts the characters of the parts. -/
theorem first (passed rest : List Char) :
    IsRow [] passed rest (List.range' passed.length (rest.length + 1)) := by
  induction rest generalizing passed with
  | nil => exact .last (.from_nil passed)
  | cons d rest ih => exact .more (.from_nil passed) (ih (d :: passed))

/-- The cells below a row make a row. -/
theorem next {c : Char} {left : Nat} (upper : IsRow source passed rest cells)
    (isLeft : IsDistance (c :: source) passed left) :
    IsRow (c :: source) passed rest (left :: distanceCells c left rest cells) := by
  induction upper generalizing left with
  | last => exact .last isLeft
  | more isCorner others ih =>
      rcases others.exists_head with ⟨above, upper, rfl, isAbove⟩
      exact .more isLeft (ih (isLeft.cell isAbove isCorner))

/-- The rows below a row lead to that of the whole source. -/
theorem distanceRow {begun : List Char} (isRow : IsRow begun [] target cells)
    (source : List Char) :
    IsRow (source.reverse ++ begun) [] target
      (Text.distanceRow target begun.length cells source) := by
  induction source generalizing begun cells with
  | nil => exact isRow
  | cons c source ih =>
      rw [List.reverse_cons, List.append_assoc]
      exact ih (isRow.next (IsDistance.from_nil (c :: begun)).symm)

end IsRow

/-- The edit distance is the least number of edits that turn one text into the other. -/
theorem isDistance_editDistance (source target : List Char) :
    IsDistance source target (editDistance source target) := by
  have whole := ((IsRow.first [] target).distanceRow source).isDistance_getLastD 0
  rw [List.append_nil, List.append_nil, List.length_nil, ← List.range_eq_range'] at whole
  simp only [IsDistance, edits_reverse_iff] at whole
  exact whole

theorem editDistance_comm (source target : List Char) :
    editDistance source target = editDistance target source :=
  (isDistance_editDistance source target).unique (isDistance_editDistance target source).symm

end Accessibility.Text
