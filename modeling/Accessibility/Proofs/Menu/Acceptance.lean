import Accessibility.Menu.Search
import Accessibility.Proofs.Menu.Grammar

/-!
# Acceptance of menu paths

Exactly the texts of the grammar are accepted as menu paths, and reading one finds the titles that
it spells.  Blanks at the ends of a text are trimmed before it is checked but not before it is read:
both find the same titles, since what is left of a text of the grammar is one itself.  Written again
from its titles, a menu path means what it meant before.
-/

namespace Accessibility

namespace MenuPath

open Text (AreBlanks)

variable {text before after : List Char} {title : String} {titles : List String}

/-! ## Titles found in a text -/

theorem SpellsTitle.isTitle {piece : List Char} (spelled : SpellsTitle piece title) :
    IsTitle title := by
  cases spelled with
  | intro isTitle _ _ => exact isTitle

theorem SpellsTitle.trim_eq {piece : List Char} (spelled : SpellsTitle piece title) :
    Text.trim piece = title.toList := by
  cases spelled with
  | intro isTitle blanksBefore blanksAfter =>
      rw [Text.trim_append blanksBefore blanksAfter, isTitle.trimmed]

theorem Spells.isTitle (spelled : Spells text titles) : ∀ title ∈ titles, IsTitle title := by
  induction spelled with
  | last spelledTitle => exact List.forall_mem_singleton.mpr spelledTitle.isTitle
  | more spelledTitle _ ih => exact List.forall_mem_cons.mpr ⟨spelledTitle.isTitle, ih⟩

/-- The pieces of a menu path are its titles. -/
theorem Spells.pieces_eq (spelled : Spells text titles) :
    pieces text = titles.map String.toList := by
  induction spelled with
  | last spelledTitle =>
      have absent := mt List.infix_append_of_infix_left spelledTitle.noSeparator
      rw [pieces, Text.splitOn_of_absent absent, List.map_singleton, spelledTitle.trim_eq,
        List.map_singleton]
  | more spelledTitle rest ih =>
      rw [pieces] at ih ⊢
      rw [Text.splitOn_append (by decide) spelledTitle.noSeparator, List.map_cons,
        spelledTitle.trim_eq, ih, List.map_cons]

theorem components_of_spells {text : String} (spelled : Spells text.toList titles) :
    components text = titles := by
  have allKept : (titles.map String.toList).filter (fun piece => !piece.isEmpty) =
      titles.map String.toList := by
    rw [List.filter_eq_self, List.forall_mem_map]
    intro title member
    simp [(spelled.isTitle title member).notEmpty]
  rw [components, spelled.pieces_eq, allKept, List.map_map]
  simp

/-! ## Blanks around a menu path -/

theorem SpellsTitle.pad {piece : List Char} (spelled : SpellsTitle piece title)
    (blanksBefore : AreBlanks before) (blanksAfter : AreBlanks after) :
    SpellsTitle (before ++ piece ++ after) title := by
  cases spelled with
  | @intro innerBefore innerAfter _ isTitle innerBlanksBefore innerBlanksAfter =>
      have padded := SpellsTitle.intro isTitle (blanksBefore.append innerBlanksBefore)
        (innerBlanksAfter.append blanksAfter)
      simpa only [List.append_assoc] using padded

theorem Spells.padBefore (spelled : Spells text titles) (blanks : AreBlanks before) :
    Spells (before ++ text) titles := by
  cases spelled with
  | last spelledTitle =>
      have padded := Spells.last (spelledTitle.pad blanks Text.areBlanks_nil)
      rwa [List.append_nil] at padded
  | more spelledTitle rest =>
      have padded := Spells.more (spelledTitle.pad blanks Text.areBlanks_nil) rest
      simpa only [List.append_nil, List.append_assoc] using padded

theorem Spells.padAfter (spelled : Spells text titles) (blanks : AreBlanks after) :
    Spells (text ++ after) titles := by
  induction spelled with
  | last spelledTitle => exact .last (spelledTitle.pad Text.areBlanks_nil blanks)
  | more spelledTitle rest ih =>
      rw [List.append_assoc]
      exact .more spelledTitle ih

/-- What a menu path is without the blanks at its ends is a menu path with the same titles. -/
theorem Spells.exists_core (spelled : Spells text titles) :
    ∃ before core after, AreBlanks before ∧ AreBlanks after ∧ text = before ++ core ++ after ∧
      StandsAlone core ∧ Spells core titles := by
  induction spelled with
  | @last _ title spelledTitle =>
      cases spelledTitle with
      | @intro before after _ isTitle blanksBefore blanksAfter =>
          have bare := SpellsTitle.intro isTitle Text.areBlanks_nil Text.areBlanks_nil
          rw [List.nil_append, List.append_nil] at bare
          exact ⟨before, title.toList, after, blanksBefore, blanksAfter, rfl,
            isTitle.toStandsAlone, .last bare⟩
  | @more _ _ title _ spelledTitle rest ih =>
      cases spelledTitle with
      | @intro before inner _ isTitle blanksBefore blanksInner =>
          rcases ih with ⟨next, core, after, blanksNext, blanksAfter, rfl, alone, spelledCore⟩
          have bare := SpellsTitle.intro isTitle Text.areBlanks_nil blanksInner
          refine ⟨before, title.toList ++ (inner ++ MenuItem.separator.toList ++ next) ++ core,
            after, blanksBefore, blanksAfter, ?_, isTitle.toStandsAlone.append alone _, ?_⟩
          · simp only [List.append_assoc]
          · have spelledRest := Spells.more bare (spelledCore.padBefore blanksNext)
            simpa only [List.nil_append, List.append_assoc] using spelledRest

/-- Trimming leaves a menu path with the same titles. -/
theorem Spells.trim (spelled : Spells text titles) :
    StandsAlone (Text.trim text) ∧ Spells (Text.trim text) titles := by
  rcases spelled.exists_core with ⟨before, core, after, blanksBefore, blanksAfter, rfl, alone, same⟩
  rw [Text.trim_append blanksBefore blanksAfter, alone.trimmed]
  exact ⟨alone, same⟩

/-! ## The texts that are accepted -/

theorem validate_eq_ok_iff {text : String} :
    validate text = .ok () ↔
      StandsAlone (Text.trim text.toList) ∧
        ∀ piece ∈ pieces (Text.trim text.toList), isMisplaced piece = false := by
  rw [standsAlone_iff (Text.trim_trim _), isMisplaced, validate]
  cases (Text.trim text.toList).isEmpty <;> cases mark.isPrefixOf (Text.trim text.toList) <;>
    cases mark.isSuffixOf (Text.trim text.toList) <;> simp

theorem spellsTitle_trim {piece : List Char} (absent : ¬MenuItem.separator.toList <:+: piece)
    (placed : isMisplaced (Text.trim piece) = false) :
    SpellsTitle piece (String.ofList (Text.trim piece)) := by
  rcases Text.exists_trim piece with ⟨before, after, blanksBefore, blanksAfter, split⟩
  have alone := (standsAlone_iff (Text.trim_trim piece)).mpr placed
  have isTitle : IsTitle (String.ofList (Text.trim piece)) := by
    rw [← @String.toList_ofList (Text.trim piece)] at alone
    refine ⟨alone, fun inside => absent ?_⟩
    rw [String.toList_ofList] at inside
    rw [split]
    exact inside.trans (List.infix_append before _ after)
  have spelled := SpellsTitle.intro isTitle blanksBefore blanksAfter
  rwa [String.toList_ofList, ← split] at spelled

/-- A text whose pieces have no misplaced marks spells them. -/
theorem spells_pieces (placed : ∀ piece ∈ pieces text, isMisplaced piece = false) :
    Spells text ((pieces text).map String.ofList) := by
  have notEmpty : MenuItem.separator.toList ≠ [] := by decide
  have splits := Text.splits_splitOn notEmpty text
  rw [pieces] at placed ⊢
  generalize Text.splitOn MenuItem.separator.toList text = found at splits placed ⊢
  induction splits with
  | last absent =>
      rw [List.map_singleton, List.forall_mem_singleton] at placed
      exact .last (spellsTitle_trim absent placed)
  | more absent rest ih =>
      rw [List.map_cons, List.forall_mem_cons] at placed
      exact .more (spellsTitle_trim (mt List.infix_append_of_infix_left absent) placed.1)
        (ih placed.2)

theorem validate_eq_ok_iff_spells {text : String} :
    validate text = .ok () ↔ ∃ titles, Spells text.toList titles := by
  rw [validate_eq_ok_iff]
  constructor
  · rintro ⟨_, placed⟩
    rcases Text.exists_trim text.toList with ⟨before, after, blanksBefore, blanksAfter, split⟩
    have spelled := ((spells_pieces placed).padBefore blanksBefore).padAfter blanksAfter
    rw [← split] at spelled
    exact ⟨_, spelled⟩
  · rintro ⟨titles, spelled⟩
    rcases spelled.trim with ⟨alone, spelledCore⟩
    refine ⟨alone, ?_⟩
    rw [spelledCore.pieces_eq, List.forall_mem_map]
    intro title member
    have isTitle := spelledCore.isTitle title member
    exact (standsAlone_iff isTitle.trimmed).mp isTitle.toStandsAlone

/-! ## Menu paths written from their titles -/

theorem spells_join {titles : List String} (notEmpty : titles ≠ [])
    (areTitles : ∀ title ∈ titles, IsTitle title) : Spells (join titles).toList titles := by
  rw [join, String.toList_ofList]
  induction titles with
  | nil => contradiction
  | cons title titles ih =>
      rcases List.forall_mem_cons.mp areTitles with ⟨isTitle, areTitlesLater⟩
      have bare := SpellsTitle.intro isTitle Text.areBlanks_nil Text.areBlanks_nil
      rw [List.nil_append, List.append_nil] at bare
      cases titles with
      | nil => exact .last bare
      | cons next titles => exact .more bare (ih (List.cons_ne_nil _ _) areTitlesLater)

theorem Spells.ne_nil (spelled : Spells text titles) : titles ≠ [] := by
  cases spelled <;> exact List.cons_ne_nil _ _

/-- What a menu path leads to depends on its titles alone. -/
theorem resolve_eq_resolve_join {text : String} (spelled : Spells text.toList titles)
    (hierarchy : MenuHierarchy) (limit : Nat) :
    hierarchy.resolve text limit = hierarchy.resolve (join titles) limit := by
  have spelledAgain := spells_join spelled.ne_nil spelled.isTitle
  rw [MenuHierarchy.resolve, MenuHierarchy.resolve, validate_eq_ok_iff_spells.mpr ⟨_, spelled⟩,
    validate_eq_ok_iff_spells.mpr ⟨_, spelledAgain⟩, components_of_spells spelled,
    components_of_spells spelledAgain]

/-- The texts of the grammar are accepted and no others.  Their titles are found, and written again
from them they have the same titles and lead to the same. -/
theorem validate_decides_grammar (text : String) :
    (validate text = .ok () ↔ ∃ titles, Spells text.toList titles) ∧
      ∀ titles, Spells text.toList titles →
        components text = titles ∧ validate (join titles) = .ok () ∧
          components (join titles) = titles ∧
          ∀ (hierarchy : MenuHierarchy) (limit : Nat),
            hierarchy.resolve text limit = hierarchy.resolve (join titles) limit := by
  refine ⟨validate_eq_ok_iff_spells, ?_⟩
  intro titles spelled
  have spelledAgain := spells_join spelled.ne_nil spelled.isTitle
  exact ⟨components_of_spells spelled, validate_eq_ok_iff_spells.mpr ⟨titles, spelledAgain⟩,
    components_of_spells spelledAgain, resolve_eq_resolve_join spelled⟩

theorem validate_decides_grammar_padded :
    let text := "\tFile  > Save As\u00a0"
    validate text = .ok () ∧ Spells text.toList ["File", "Save As"] ∧
      validate "File > Save As" = .ok () ∧
        components "File > Save As" = ["File", "Save As"] := by
  intro text
  have valid : validate text = .ok () := by decide +kernel
  rcases (validate_decides_grammar text).1.mp valid with ⟨titles, spelled⟩
  rcases (validate_decides_grammar text).2 titles spelled with ⟨found, validAgain, foundAgain, -⟩
  have titlesOfText : components text = ["File", "Save As"] := by decide +kernel
  rw [titlesOfText] at found
  subst found
  have joined : join ["File", "Save As"] = "File > Save As" := by decide +kernel
  rw [joined] at validAgain foundAgain
  exact ⟨valid, spelled, validAgain, foundAgain⟩

end MenuPath

end Accessibility
