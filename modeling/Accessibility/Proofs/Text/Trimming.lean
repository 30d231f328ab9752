import Accessibility.Text.Blank
import Mathlib.Data.List.TakeWhile

/-!
# Trimmed text

A text is its trimmed form with blanks around it, and blanks around a text do not change its
trimmed form.  A trimmed text is one whose first and last characters are no blanks.
-/

namespace Accessibility.Text

/-- Whether a text consists of blanks. -/
def AreBlanks (text : List Char) : Prop :=
  ∀ c ∈ text, isBlank c = true

theorem areBlanks_nil : AreBlanks [] :=
  List.forall_mem_nil _

theorem areBlanks_space : AreBlanks [' '] := by
  intro c member
  rw [List.mem_singleton.mp member]
  rfl

theorem AreBlanks.append {text more : List Char} (blanks : AreBlanks text)
    (moreBlanks : AreBlanks more) : AreBlanks (text ++ more) :=
  List.forall_mem_append.mpr ⟨blanks, moreBlanks⟩

theorem AreBlanks.reverse {text : List Char} (blanks : AreBlanks text) :
    AreBlanks text.reverse :=
  fun c member => blanks c (List.mem_reverse.mp member)

/-! ## The two ends -/

theorem exists_trimStart (text : List Char) :
    ∃ before, AreBlanks before ∧ text = before ++ trimStart text :=
  ⟨text.takeWhile isBlank, fun _ => List.mem_takeWhile_imp, List.takeWhile_append_dropWhile.symm⟩

theorem trimStart_append_of_areBlanks {before : List Char} (blanks : AreBlanks before)
    (text : List Char) : trimStart (before ++ text) = trimStart text :=
  List.dropWhile_append_of_pos blanks

theorem exists_trimEnd (text : List Char) :
    ∃ after, AreBlanks after ∧ text = trimEnd text ++ after := by
  rcases exists_trimStart text.reverse with ⟨before, blanks, split⟩
  refine ⟨before.reverse, blanks.reverse, ?_⟩
  rw [trimEnd, ← List.reverse_append, ← split, List.reverse_reverse]

theorem trimEnd_append_of_areBlanks {after : List Char} (blanks : AreBlanks after)
    (text : List Char) : trimEnd (text ++ after) = trimEnd text := by
  rw [trimEnd, List.reverse_append, trimStart_append_of_areBlanks blanks.reverse, trimEnd]

/-- Blanks behind a text stay behind what trimming its start leaves, unless it leaves nothing. -/
theorem trimEnd_trimStart_append {after : List Char} (blanks : AreBlanks after)
    (text : List Char) : trimEnd (trimStart (text ++ after)) = trimEnd (trimStart text) := by
  rw [trimStart, List.dropWhile_append]
  split
  · rename_i nothing
    rw [List.dropWhile_eq_nil_iff.mpr blanks, trimStart, List.isEmpty_iff.mp nothing]
  · exact trimEnd_append_of_areBlanks blanks _

theorem not_isBlank_of_mem_head?_trimStart {text : List Char} {c : Char}
    (isFirst : c ∈ (trimStart text).head?) : isBlank c = false := by
  have first := List.head?_dropWhile_not isBlank text
  rw [show text.dropWhile isBlank = trimStart text from rfl, Option.mem_def.mp isFirst] at first
  exact first

/-- A text that does not begin with a blank keeps its start. -/
theorem trimStart_eq_self {text : List Char} (firm : ∀ c ∈ text.head?, isBlank c = false) :
    trimStart text = text := by
  cases text with
  | nil => rfl
  | cons c rest => exact List.dropWhile_cons_of_neg (Bool.not_eq_true _ ▸ firm c rfl)

/-! ## Both ends -/

theorem trim_append {before after : List Char} (blanksBefore : AreBlanks before)
    (blanksAfter : AreBlanks after) (text : List Char) :
    trim (before ++ text ++ after) = trim text := by
  rw [trim, List.append_assoc, trimStart_append_of_areBlanks blanksBefore,
    trimEnd_trimStart_append blanksAfter, trim]

/-- A text is its trimmed form with blanks around it. -/
theorem exists_trim (text : List Char) :
    ∃ before after, AreBlanks before ∧ AreBlanks after ∧
      text = before ++ trim text ++ after := by
  rcases exists_trimStart text with ⟨before, blanksBefore, splitStart⟩
  rcases exists_trimEnd (trimStart text) with ⟨after, blanksAfter, splitEnd⟩
  refine ⟨before, after, blanksBefore, blanksAfter, ?_⟩
  rw [List.append_assoc, trim, ← splitEnd, ← splitStart]

@[simp]
theorem trim_trim (text : List Char) : trim (trim text) = trim text := by
  rcases exists_trim text with ⟨before, after, blanksBefore, blanksAfter, split⟩
  calc
    trim (trim text) = trim (before ++ trim text ++ after) :=
      (trim_append blanksBefore blanksAfter _).symm
    _ = trim text := by rw [← split]

/-- The trimmed texts are those without a blank at their ends. -/
theorem trim_eq_self_iff {text : List Char} :
    trim text = text ↔
      (∀ c ∈ text.head?, isBlank c = false) ∧ ∀ c ∈ text.getLast?, isBlank c = false := by
  constructor
  · intro trimmed
    constructor
    · intro c isFirst
      apply @not_isBlank_of_mem_head?_trimStart text
      rcases exists_trimEnd (trimStart text) with ⟨after, _, split⟩
      rw [split, ← trim, trimmed, List.head?_append, Option.mem_def.mp isFirst]
      rfl
    · intro c isLast
      apply @not_isBlank_of_mem_head?_trimStart (trimStart text).reverse
      rw [← List.getLast?_reverse, ← trimEnd, ← trim, trimmed]
      exact isLast
  · rintro ⟨firm, firmEnd⟩
    rw [trim, trimStart_eq_self firm, trimEnd, trimStart_eq_self, List.reverse_reverse]
    rwa [List.head?_reverse]

end Accessibility.Text
