import Accessibility.Menu.Path
import Accessibility.Proofs.Text.Splitting
import Accessibility.Proofs.Text.Trimming

/-!
# The grammar of menu paths

What a text must look like to be a menu path, and what its titles are.  The grammar is given apart
from the readers: titles stand between separators, with any blanks around each of them.  A mark at
the end of a title, or a separator in it, could be taken for one that ends the title; a title has
neither.
-/

namespace Accessibility.MenuPath

open Text (AreBlanks)

/-- Whether a text is not empty and has neither a blank nor a mark at its ends. -/
structure StandsAlone (text : List Char) : Prop where
  notEmpty : text ≠ []
  trimmed : Text.trim text = text
  noMarkFirst : ¬mark <+: text
  noMarkLast : ¬mark <:+ text

/-- Whether a text can be a title in a menu path. -/
structure IsTitle (title : String) : Prop extends StandsAlone title.toList where
  noSeparator : ¬MenuItem.separator.toList <:+: title.toList

/-- A title with blanks around it. -/
inductive SpellsTitle : List Char → String → Prop
  | intro {before after : List Char} {title : String} (isTitle : IsTitle title)
      (blanksBefore : AreBlanks before) (blanksAfter : AreBlanks after) :
      SpellsTitle (before ++ title.toList ++ after) title

/-- A menu path as written, and its titles. -/
inductive Spells : List Char → List String → Prop
  | last {piece : List Char} {title : String} (spelled : SpellsTitle piece title) :
      Spells piece [title]
  | more {piece text : List Char} {title : String} {titles : List String}
      (spelled : SpellsTitle piece title) (rest : Spells text titles) :
      Spells (piece ++ MenuItem.separator.toList ++ text) (title :: titles)

instance : DecidablePred IsTitle := fun title =>
  decidable_of_iff
    (title.toList ≠ [] ∧ Text.trim title.toList = title.toList ∧ ¬mark <+: title.toList ∧
      ¬mark <:+ title.toList ∧ ¬MenuItem.separator.toList <:+: title.toList)
    ⟨fun ⟨notEmpty, trimmed, noMarkFirst, noMarkLast, noSeparator⟩ =>
      ⟨⟨notEmpty, trimmed, noMarkFirst, noMarkLast⟩, noSeparator⟩,
    fun ⟨⟨notEmpty, trimmed, noMarkFirst, noMarkLast⟩, noSeparator⟩ =>
      ⟨notEmpty, trimmed, noMarkFirst, noMarkLast, noSeparator⟩⟩

/-! ## The ends of a text -/

theorem StandsAlone.noMarkFirst_append {first : List Char} (begins : StandsAlone first)
    (more : List Char) : ¬mark <+: first ++ more := by
  intro marked
  apply begins.noMarkFirst
  exact List.prefix_of_prefix_length_le marked (List.prefix_append first more)
    (List.length_pos_iff.mpr begins.notEmpty)

theorem StandsAlone.noMarkLast_append {last : List Char} (ends : StandsAlone last)
    (before : List Char) : ¬mark <:+ before ++ last := by
  intro marked
  apply ends.noMarkLast
  exact List.suffix_of_suffix_length_le marked (List.suffix_append before last)
    (List.length_pos_iff.mpr ends.notEmpty)

/-- A text stands alone if its beginning and its end do. -/
theorem StandsAlone.append {first last : List Char} (begins : StandsAlone first)
    (ends : StandsAlone last) (middle : List Char) : StandsAlone (first ++ middle ++ last) where
  notEmpty := by simp [begins.notEmpty]
  trimmed := by
    rw [Text.trim_eq_self_iff]
    constructor
    · rw [List.append_assoc, List.head?_append_of_ne_nil _ begins.notEmpty]
      exact (Text.trim_eq_self_iff.mp begins.trimmed).1
    · rw [List.getLast?_append_of_ne_nil _ ends.notEmpty]
      exact (Text.trim_eq_self_iff.mp ends.trimmed).2
  noMarkFirst := by
    rw [List.append_assoc]
    exact begins.noMarkFirst_append _
  noMarkLast := ends.noMarkLast_append _

theorem standsAlone_iff {piece : List Char} (trimmed : Text.trim piece = piece) :
    StandsAlone piece ↔ isMisplaced piece = false := by
  rw [isMisplaced, Bool.or_eq_false_iff, Bool.or_eq_false_iff, ← Bool.not_eq_true,
    ← Bool.not_eq_true, ← Bool.not_eq_true, List.isEmpty_iff, List.isPrefixOf_iff_prefix,
    List.isSuffixOf_iff_suffix]
  constructor
  · rintro ⟨notEmpty, _, noMarkFirst, noMarkLast⟩
    exact ⟨⟨notEmpty, noMarkFirst⟩, noMarkLast⟩
  · rintro ⟨⟨notEmpty, noMarkFirst⟩, noMarkLast⟩
    exact ⟨notEmpty, trimmed, noMarkFirst, noMarkLast⟩

/-! ## Separators near blanks -/

/-- Blanks before a text add no separator to it, unless it begins with a mark. -/
theorem separator_infix_of_blanks_before {before text : List Char} (blanks : AreBlanks before)
    (noMark : ¬mark <+: text) (inside : MenuItem.separator.toList <:+: before ++ text) :
    MenuItem.separator.toList <:+: text := by
  induction before with
  | nil => exact inside
  | cons c before ih =>
      rcases List.forall_mem_cons.mp blanks with ⟨_, blanksLater⟩
      rw [List.cons_append, List.infix_cons_iff] at inside
      rcases inside with atFront | later
      · have marked : ['>', ' '] <+: before ++ text := (List.cons_prefix_cons.mp atFront).2
        cases before with
        | nil => exact absurd ((List.prefix_append mark [' ']).trans marked) noMark
        | cons d before =>
            have isMark : '>' = d := (List.cons_prefix_cons.mp marked).1
            have isBlank := blanksLater d List.mem_cons_self
            rw [← isMark] at isBlank
            contradiction
      · exact ih blanksLater later

/-- Blanks behind a text add no separator to it, unless it ends with a mark. -/
theorem separator_infix_of_blanks_after {text after : List Char} (blanks : AreBlanks after)
    (noMark : ¬mark <:+ text) (inside : MenuItem.separator.toList <:+: text ++ after) :
    MenuItem.separator.toList <:+: text := by
  rw [← List.reverse_infix] at inside ⊢
  rw [List.reverse_append] at inside
  apply separator_infix_of_blanks_before blanks.reverse _ inside
  rwa [← List.reverse_suffix, List.reverse_reverse]

/-- A title ends at the next separator, whatever blanks are around it. -/
theorem SpellsTitle.noSeparator {piece : List Char} {title : String}
    (spelled : SpellsTitle piece title) :
    ¬MenuItem.separator.toList <:+: piece ++ MenuItem.separator.toList.dropLast := by
  cases spelled with
  | @intro before after _ isTitle blanksBefore blanksAfter =>
      intro inside
      have split : before ++ title.toList ++ after ++ MenuItem.separator.toList.dropLast =
          before ++ (title.toList ++ (after ++ [' '])) ++ ['>'] := by
        simp [MenuItem.separator]
      rw [split, List.infix_concat_iff] at inside
      rcases inside with ⟨front, atEnd⟩ | earlier
      · -- A separator ends with a blank, not with a mark.
        have lastChar := congrArg List.getLast? atEnd
        simp [MenuItem.separator] at lastChar
      · apply isTitle.noSeparator
        apply separator_infix_of_blanks_after (blanksAfter.append Text.areBlanks_space)
          isTitle.noMarkLast
        exact separator_infix_of_blanks_before blanksBefore
          (isTitle.toStandsAlone.noMarkFirst_append _) earlier

end Accessibility.MenuPath
