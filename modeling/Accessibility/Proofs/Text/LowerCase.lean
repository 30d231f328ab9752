import Accessibility.Text.LowerCase
import Mathlib.Data.List.Infix

/-!
# Lower-casing parts of a text

Only the form of a capital sigma depends on what stands around it.  The lower-case form of a text is
therefore a part of that of every text around it if each of its sigmas has a cased or uncased
character on those sides that count.  If one does not, a letter before or behind the text changes
its form, and then the forms of this kind are too few for the lower-case form to be found anywhere.
-/

namespace Accessibility.Text

/-- The lower-case form of a capital sigma, with the text before it, the last character first, and
the text behind it. -/
def sigmaForm (before after : List Char) : Char :=
  if meetsCased before && !meetsCased after then 'ς' else 'σ'

/-- The form of a capital sigma in a text that stands between two others. -/
def sigmaFormWithin (outerBefore outerAfter before after : List Char) : Char :=
  sigmaForm (before ++ outerBefore) (after ++ outerAfter)

/-- Lower-cases a text whose capital sigmas have given forms; `before` holds the characters already
passed, the last one first. -/
def lowerWith (form : List Char → List Char → Char) (before : List Char) : List Char → List Char
  | [] => []
  | c :: rest =>
      (if c = 'Σ' then [form before rest] else lowerChar c) ++ lowerWith form (c :: before) rest

variable {form other : List Char → List Char → Char} {text : List Char} {c : Char}

theorem lowerFrom_append (outer before text after : List Char) :
    lowerFrom (before ++ outer) (text ++ after) =
      lowerWith (sigmaFormWithin outer after) before text ++
        lowerFrom (text.reverse ++ (before ++ outer)) after := by
  induction text generalizing before with
  | nil => rfl
  | cons c text ih =>
      have step := ih (c :: before)
      rw [List.cons_append] at step
      rw [List.cons_append, lowerFrom, step, lowerWith, sigmaFormWithin, sigmaForm,
        List.reverse_cons, List.append_assoc, List.append_assoc]
      split <;> [split; skip] <;> rfl

/-- The lower-case form of a text with its sigmas alone. -/
theorem lower_eq_lowerWith (text : List Char) : lower text = lowerWith sigmaForm [] text := by
  have alone := lowerFrom_append [] [] text []
  have sameForm : sigmaFormWithin [] [] = sigmaForm := by
    funext before after
    rw [sigmaFormWithin, List.append_nil, List.append_nil]
  rwa [List.append_nil, List.append_nil, lowerFrom, List.append_nil, sameForm] at alone

theorem lower_append_append (before text after : List Char) :
    lower (before ++ text ++ after) =
      lowerWith (sigmaFormWithin [] (text ++ after)) [] before ++
        lowerWith (sigmaFormWithin before.reverse after) [] text ++
          lowerFrom (text.reverse ++ before.reverse) after := by
  have first := lowerFrom_append [] [] before (text ++ after)
  have second := lowerFrom_append before.reverse [] text after
  rw [List.nil_append] at second
  rw [List.append_nil, List.append_nil, second] at first
  rw [lower, List.append_assoc, first, List.append_assoc]

theorem lowerWith_congr {before : List Char}
    (same : ∀ front back, text = front ++ 'Σ' :: back →
      form (front.reverse ++ before) back = other (front.reverse ++ before) back) :
    lowerWith form before text = lowerWith other before text := by
  induction text generalizing before with
  | nil => rfl
  | cons c text ih =>
      have later : lowerWith form (c :: before) text = lowerWith other (c :: before) text := by
        apply ih
        intro front back split
        have sameForm := same (c :: front) back (congrArg (c :: ·) split)
        rwa [List.reverse_cons, List.append_assoc] at sameForm
      rw [lowerWith, lowerWith, later]
      split
      · rename_i isSigma
        subst isSigma
        rw [show form before text = other before text from same [] text rfl]
      · rfl

/-- A text in its surroundings has the same lower-case form there as alone if its capital sigmas
have. -/
theorem lower_infix_of_same_forms {before after : List Char}
    (same : ∀ front back, text = front ++ 'Σ' :: back →
      sigmaFormWithin before.reverse after front.reverse back = sigmaForm front.reverse back) :
    lower text <:+: lower (before ++ text ++ after) := by
  have sameText : lowerWith (sigmaFormWithin before.reverse after) [] text = lower text := by
    rw [lower_eq_lowerWith]
    apply lowerWith_congr
    intro front back split
    rw [List.append_nil]
    exact same front back split
  rw [lower_append_append, sameText]
  exact List.infix_append _ _ _

/-! ## Sigmas that are settled -/

/-- Whether the first character that is not case-ignorable is cased, if there is such a one. -/
def firstSeen? (text : List Char) : Option Bool :=
  (text.dropWhile isCaseIgnorable).head?.map isCased

theorem meetsCased_eq (text : List Char) : meetsCased text = (firstSeen? text == some true) := by
  rw [meetsCased, firstSeen?]
  cases text.dropWhile isCaseIgnorable with
  | nil => rfl
  | cons c rest => cases cased : isCased c <;> simp [cased]

theorem firstSeen?_append (text more : List Char) :
    firstSeen? (text ++ more) = (firstSeen? text).or (firstSeen? more) := by
  rw [firstSeen?, List.dropWhile_append, firstSeen?]
  cases text.dropWhile isCaseIgnorable with
  | nil => rfl
  | cons c rest => rfl

theorem sigmaForm_eq_final_iff {before after : List Char} :
    sigmaForm before after = 'ς' ↔
      firstSeen? before = some true ∧ firstSeen? after ≠ some true := by
  rw [sigmaForm, meetsCased_eq, meetsCased_eq]
  by_cases casedBefore : firstSeen? before = some true <;>
    by_cases casedAfter : firstSeen? after = some true <;> simp [casedBefore, casedAfter]

theorem sigmaForm_eq_medial_iff {before after : List Char} :
    sigmaForm before after = 'σ' ↔
      (firstSeen? before = some true → firstSeen? after = some true) := by
  rw [sigmaForm, meetsCased_eq, meetsCased_eq]
  by_cases casedBefore : firstSeen? before = some true <;>
    by_cases casedAfter : firstSeen? after = some true <;> simp [casedBefore, casedAfter]

/-- Whether what is before a capital sigma, the last character first, and what is behind it settle
its form: it is not final with an uncased character before or a cased one behind, and is final with
a cased character before and an uncased one behind. -/
def IsSettled (before after : List Char) : Prop :=
  firstSeen? before = some false ∨ firstSeen? after = some true ∨
    firstSeen? before = some true ∧ firstSeen? after = some false

instance (before after : List Char) : Decidable (IsSettled before after) :=
  inferInstanceAs (Decidable (_ ∨ _ ∨ _ ∧ _))

/-- Whether the forms of all capital sigmas of a text are settled by the text itself. -/
def AreSigmasSettled (text : List Char) : Prop :=
  ∀ before after, text = before ++ 'Σ' :: after → IsSettled before.reverse after

/-- What stands around each occurrence of a character, by the indices of these. -/
theorem forall_split_iff {holds : List Char → List Char → Prop} :
    (∀ front back, text = front ++ c :: back → holds front back) ↔
      ∀ i : Fin text.length, text[i] = c → holds (text.take i) (text.drop (i + 1)) := by
  constructor
  · intro always i isChar
    apply always
    rw [← isChar, Fin.getElem_fin, List.getElem_cons_drop, List.take_append_drop]
  · rintro always front back rfl
    simpa using always ⟨front.length, by simp⟩

instance (text : List Char) : Decidable (AreSigmasSettled text) :=
  decidable_of_iff _ forall_split_iff.symm

theorem IsSettled.sigmaFormWithin_eq {before after : List Char} (settled : IsSettled before after)
    (outerBefore outerAfter : List Char) :
    sigmaFormWithin outerBefore outerAfter before after = sigmaForm before after := by
  rw [sigmaFormWithin, sigmaForm, sigmaForm, meetsCased_eq, meetsCased_eq, meetsCased_eq,
    meetsCased_eq, firstSeen?_append, firstSeen?_append]
  rcases settled with uncasedBefore | casedAfter | ⟨casedBefore, uncasedAfter⟩
  · simp [uncasedBefore]
  · simp [casedAfter]
  · simp [casedBefore, uncasedAfter]

theorem AreSigmasSettled.lower_infix (settled : AreSigmasSettled text) {whole : List Char}
    (inside : text <:+: whole) : lower text <:+: lower whole := by
  rcases inside with ⟨before, after, rfl⟩
  apply lower_infix_of_same_forms
  intro front back split
  exact (settled front back split).sigmaFormWithin_eq before.reverse after

/-! ## Sigmas that are not settled -/

section Counting

variable (fewer : ∀ before after, form before after = c → other before after = c)

include fewer

theorem count_lowered_le (before : List Char) (d : Char) (rest : List Char) :
    (if d = 'Σ' then [form before rest] else lowerChar d).count c ≤
      (if d = 'Σ' then [other before rest] else lowerChar d).count c := by
  split
  · rw [List.count_singleton, List.count_singleton]
    simp only [beq_iff_eq]
    split
    · rename_i isForm
      rw [if_pos (fewer before rest isForm)]
    · exact Nat.zero_le _
  · exact Nat.le_refl _

theorem count_lowerWith_le (before text : List Char) :
    (lowerWith form before text).count c ≤ (lowerWith other before text).count c := by
  induction text generalizing before with
  | nil => exact Nat.le_refl 0
  | cons d text ih =>
      rw [lowerWith, lowerWith, List.count_append, List.count_append]
      exact Nat.add_le_add (count_lowered_le fewer before d text) (ih (d :: before))

theorem count_lowerWith_lt {before front back : List Char}
    (differs : form (front.reverse ++ before) back ≠ c)
    (isForm : other (front.reverse ++ before) back = c) :
    (lowerWith form before (front ++ 'Σ' :: back)).count c <
      (lowerWith other before (front ++ 'Σ' :: back)).count c := by
  induction front generalizing before with
  | nil =>
      rw [List.reverse_nil, List.nil_append] at differs isForm
      have here : [form before back].count c < [other before back].count c := by
        rw [isForm, List.count_singleton_self]
        simp [differs]
      rw [List.nil_append, lowerWith, lowerWith, if_pos rfl, if_pos rfl, List.count_append,
        List.count_append]
      exact Nat.add_lt_add_of_lt_of_le here (count_lowerWith_le fewer ('Σ' :: before) back)
  | cons d front ih =>
      rw [List.reverse_cons, List.append_assoc] at differs isForm
      rw [List.cons_append, lowerWith, lowerWith, List.count_append, List.count_append]
      exact Nat.add_lt_add_of_le_of_lt (count_lowered_le fewer before d _) (ih differs isForm)

end Counting

/-- A text whose lower-case form has fewer characters of a kind among others is not found there. -/
theorem not_lower_infix_of_fewer {before after front back : List Char}
    (fewer : ∀ inner behind, sigmaFormWithin before.reverse after inner behind = c →
      sigmaForm inner behind = c)
    (differs : sigmaFormWithin before.reverse after front.reverse back ≠ c)
    (isForm : sigmaForm front.reverse back = c)
    (noneBefore : ∀ form : List Char → List Char → Char, (lowerWith form [] before).count c = 0)
    (noneAfter : ∀ passed, (lowerFrom passed after).count c = 0) :
    ¬lower (front ++ 'Σ' :: back) <:+: lower (before ++ (front ++ 'Σ' :: back) ++ after) := by
  intro inside
  have counted := inside.sublist.count_le c
  rw [lower_append_append, lower_eq_lowerWith, List.count_append, List.count_append,
    noneBefore, noneAfter] at counted
  rw [← List.append_nil front.reverse] at differs isForm
  have less := count_lowerWith_lt fewer differs isForm
  omega

theorem firstSeen?_append_letter (text : List Char) (notUncased : firstSeen? text ≠ some false) :
    firstSeen? (text ++ ['a']) = some true := by
  have letter : firstSeen? ['a'] = some true := by decide +kernel
  rw [firstSeen?_append, letter]
  rcases seen : firstSeen? text with _ | _ | _
  · rfl
  · exact absurd seen notUncased
  · rfl

/-- A letter before a text makes a sigma final that is not so alone. -/
theorem not_lower_infix_letter_before {front back : List Char}
    (nothingBefore : firstSeen? front.reverse = none) (notCased : firstSeen? back ≠ some true) :
    ¬lower (front ++ 'Σ' :: back) <:+: lower (['a'] ++ (front ++ 'Σ' :: back) ++ []) := by
  apply @not_lower_infix_of_fewer 'σ'
  · intro inner behind
    rw [sigmaFormWithin, sigmaForm_eq_medial_iff, sigmaForm_eq_medial_iff, List.append_nil]
    intro medial cased
    exact medial (firstSeen?_append_letter inner (by simp [cased]))
  · rw [sigmaFormWithin, Ne, sigmaForm_eq_medial_iff, List.append_nil]
    exact fun medial => notCased (medial (firstSeen?_append_letter _ (by simp [nothingBefore])))
  · simp [sigmaForm_eq_medial_iff, nothingBefore]
  · exact fun form => rfl
  · exact fun passed => rfl

/-- A letter behind a text makes a sigma one that is not final. -/
theorem not_lower_infix_letter_behind {front back : List Char}
    (casedBefore : firstSeen? front.reverse = some true) (nothingBehind : firstSeen? back = none) :
    ¬lower (front ++ 'Σ' :: back) <:+: lower ([] ++ (front ++ 'Σ' :: back) ++ ['a']) := by
  apply @not_lower_infix_of_fewer 'ς'
  · intro inner behind
    rw [sigmaFormWithin, sigmaForm_eq_final_iff, sigmaForm_eq_final_iff, List.reverse_nil,
      List.append_nil]
    rintro ⟨casedBefore, notCased⟩
    refine ⟨casedBefore, fun cased => notCased ?_⟩
    exact firstSeen?_append_letter behind (by simp [cased])
  · rw [sigmaFormWithin, Ne, sigmaForm_eq_final_iff]
    exact fun final => final.2 (firstSeen?_append_letter back (by simp [nothingBehind]))
  · simp [sigmaForm_eq_final_iff, casedBefore, nothingBehind]
  · exact fun form => rfl
  · exact fun passed => rfl

/-- A text with a sigma that is not settled is a part of a text whose lower-case form does not have
that of the part. -/
theorem exists_not_lower_infix (unsettled : ¬AreSigmasSettled text) :
    ∃ whole, text <:+: whole ∧ ¬lower text <:+: lower whole := by
  simp only [AreSigmasSettled, not_forall] at unsettled
  rcases unsettled with ⟨front, back, rfl, unsettled⟩
  rw [IsSettled, not_or, not_or] at unsettled
  rcases unsettled with ⟨notUncased, notCased, notFinal⟩
  rcases seenBefore : firstSeen? front.reverse with _ | _ | _
  · exact ⟨_, List.infix_append _ _ _, not_lower_infix_letter_before seenBefore notCased⟩
  · contradiction
  · have nothingBehind : firstSeen? back = none := by
      rcases seenBehind : firstSeen? back with _ | _ | _
      · rfl
      · exact absurd ⟨seenBefore, seenBehind⟩ notFinal
      · contradiction
    exact ⟨_, List.infix_append _ _ _, not_lower_infix_letter_behind seenBefore nothingBehind⟩

end Accessibility.Text
