import Accessibility.Proofs.Path.Acceptance

/-!
# Written paths read back

A path comes back from its written form exactly when its roles can be written and its predicates
go by canonical names.  The paths that reading yields are of this kind, so that reading, writing
and reading again gives what was read first.
-/

namespace Accessibility

namespace Segment

/-- A segment whose written form means the segment. -/
structure IsWellFormed (segment : Segment) : Prop where
  role : IsRole segment.role
  canonical : ∀ entry ∈ segment.predicates.entries,
    Attribute.canonicalName? entry.1 = some entry.1
  /-- The index fits a machine word. -/
  index : ∀ index ∈ segment.index, index < UInt64.size

/-! ## Written forms are in the grammar -/

theorem spellsRole_roleChars {role : String} (isRole : IsRole role) :
    SpellsRole (roleChars role) role := by
  rw [roleChars]
  split
  · rename_i isEmpty
    rw [String.isEmpty_iff.mp isEmpty]
    exact .star
  · rename_i notEmpty
    rcases isRole with rfl | isName
    · contradiction
    · have spelled := SpellsRole.name isName
      rwa [String.ofList_toList] at spelled

theorem roleChars_ne_nil (role : String) : roleChars role ≠ [] := by
  rw [roleChars]
  split
  · simp
  · rename_i notEmpty
    rwa [ne_eq, String.toList_eq_nil_iff, ← String.isEmpty_iff]

theorem spellsPredicate_predicateChars {name canonical : String} (value : String)
    (known : Attribute.canonicalName? name = some canonical) :
    SpellsPredicate (predicateChars name value) (canonical, value) := by
  have spelled : SpellsPredicate (predicateChars name value)
      (canonical, String.ofList value.toList) := by
    apply SpellsPredicate.intro
    · rw [String.ofList_toList]
      exact known
    · exact spellsValue_escape value.toList
  rwa [String.ofList_toList] at spelled

theorem spellsPredicates_predicateChars {entries : List (String × String)}
    (canonical : ∀ entry ∈ entries, Attribute.canonicalName? entry.1 = some entry.1) :
    List.Forall₂ SpellsPredicate (entries.map fun entry => predicateChars entry.1 entry.2)
      entries := by
  rw [List.forall₂_map_left_iff, List.forall₂_same]
  intro entry member
  exact spellsPredicate_predicateChars entry.2 (canonical entry member)

theorem head?_toDigits_ne_zero {number : Nat} (positive : 0 < number) :
    (Nat.toDigits 10 number).head? ≠ some '0' := by
  induction number using Nat.strong_induction_on with
  | _ number ih =>
      by_cases small : number < 10
      · have digits : ∀ digit < 10, 0 < digit → [Nat.digitChar digit].head? ≠ some '0' := by
          decide
        rw [Nat.toDigits_of_lt_base small]
        exact digits number small positive
      · rw [Nat.toDigits_of_base_le (by decide) (by omega), List.head?_append_of_ne_nil]
        · exact ih (number / 10) (by omega) (by omega)
        · exact Nat.toDigits_ne_nil

theorem isNumeral_toDigits (number : Nat) : IsNumeral (Nat.toDigits 10 number) := by
  rcases Nat.eq_zero_or_pos number with rfl | positive
  · exact Or.inl rfl
  · apply Or.inr
    refine ⟨Nat.toDigits_ne_nil, ?_, head?_toDigits_ne_zero positive⟩
    intro c member
    exact Nat.isDigit_of_mem_toDigits (by decide) (by decide) member

theorem spellsIndex_indexChars {index : Option Nat} (fits : ∀ number ∈ index, number < UInt64.size) :
    SpellsIndex (indexChars index) index := by
  cases index with
  | none => exact .absent
  | some number =>
      have value : Nat.ofDigitChars 10 (Nat.toDigits 10 number) 0 = number :=
        Nat.ofDigitChars_ten_toDigits
      have spelled := SpellsIndex.number (isNumeral_toDigits number)
        (value.symm ▸ fits number rfl)
      rwa [value] at spelled

/-- The written form of a well-formed segment means the segment. -/
theorem spells_chars {segment : Segment} (wellFormed : segment.IsWellFormed) :
    Spells segment.chars segment := by
  rw [chars, List.flatMap]
  exact .intro (spellsRole_roleChars wellFormed.role)
    (spellsPredicates_predicateChars wellFormed.canonical)
    segment.predicates.nodup_names (List.Perm.refl _)
    (spellsIndex_indexChars wellFormed.index) (Or.inl (roleChars_ne_nil segment.role))

/-! ## What the grammar means is well-formed -/

theorem isRole_of_spellsRole {text : List Char} {role : String} (spelled : SpellsRole text role) :
    IsRole role := by
  cases spelled with
  | absent => exact Or.inl rfl
  | star => exact Or.inl rfl
  | name isName =>
      apply Or.inr
      rwa [String.toList_ofList]

theorem canonical_of_spellsPredicate {piece : List Char} {entry : String × String}
    (spelled : SpellsPredicate piece entry) :
    Attribute.canonicalName? entry.1 = some entry.1 := by
  obtain ⟨known, _⟩ := spelled
  exact Attribute.canonicalName?_of_canonicalName? known

theorem canonical_of_spellsPredicates {pieces : List (List Char)}
    {entries : List (String × String)} (spelled : List.Forall₂ SpellsPredicate pieces entries) :
    ∀ entry ∈ entries, Attribute.canonicalName? entry.1 = some entry.1 := by
  induction spelled with
  | nil => simp
  | cons spelledFirst _ ih =>
      exact List.forall_mem_cons.mpr ⟨canonical_of_spellsPredicate spelledFirst, ih⟩

/-- Whatever a text means as a segment is a well-formed segment. -/
theorem isWellFormed_of_spells {text : List Char} {segment : Segment}
    (spelled : Spells text segment) : segment.IsWellFormed := by
  obtain ⟨spelledRole, spelledPredicates, _, asked, spelledIndex, _⟩ := spelled
  constructor
  · exact isRole_of_spellsRole spelledRole
  · intro entry member
    exact canonical_of_spellsPredicates spelledPredicates entry (asked.mem_iff.mp member)
  · intro number present
    rw [Option.mem_def] at present
    rw [present] at spelledIndex
    cases spelledIndex
    assumption

end Segment

namespace Path

/-- The written form of a path with well-formed segments means the path. -/
theorem spells_chars {path : Path}
    (wellFormed : ∀ segment ∈ path.segments, segment.IsWellFormed) :
    Spells path.chars path := by
  refine ⟨path.segments.map Segment.chars, rfl, ?_⟩
  rw [List.forall₂_map_left_iff, List.forall₂_same]
  intro segment member
  exact Segment.spells_chars (wellFormed segment member)

theorem isWellFormed_of_spells {text : List Char} {path : Path} (spelled : Spells text path) :
    ∀ segment ∈ path.segments, segment.IsWellFormed := by
  obtain ⟨pieces, -, spelledPieces⟩ := spelled
  generalize path.segments = segments at spelledPieces
  induction spelledPieces with
  | nil => simp
  | cons spelledFirst _ ih =>
      exact List.forall_mem_cons.mpr ⟨Segment.isWellFormed_of_spells spelledFirst, ih⟩

/-- Reading yields well-formed segments only. -/
theorem isWellFormed_of_parse {text : String} {path : Path} (read : parse text = .ok path) :
    ∀ segment ∈ path.segments, segment.IsWellFormed :=
  isWellFormed_of_spells (parse_eq_ok_iff.mp read)

/-- The written form of a path is read as the path exactly when its segments are well-formed. -/
theorem parse_render_eq_ok_iff {path : Path} :
    parse path.render = .ok path ↔ ∀ segment ∈ path.segments, segment.IsWellFormed := by
  constructor
  · exact isWellFormed_of_parse
  · intro wellFormed
    rw [parse_eq_ok_iff, toList_render]
    exact spells_chars wellFormed

/-- Writing and reading are inverse to each other exactly on the paths whose roles can be written
and whose predicates go by canonical names; among them are all paths that reading yields. -/
theorem render_parse_inverse :
    (∀ path : Path,
      (∀ segment ∈ path.segments, ∀ index ∈ segment.index, index < UInt64.size) →
        (parse path.render = .ok path ↔
          ∀ segment ∈ path.segments, Segment.IsRole segment.role ∧
            ∀ entry ∈ segment.predicates.entries,
              Attribute.canonicalName? entry.1 = some entry.1)) ∧
      ∀ (text : String) (path : Path),
        parse text = .ok path → parse path.render = .ok path := by
  constructor
  · intro path words
    rw [parse_render_eq_ok_iff]
    constructor
    · intro wellFormed segment member
      exact ⟨(wellFormed segment member).role, (wellFormed segment member).canonical⟩
    · intro written segment member
      obtain ⟨isRole, canonical⟩ := written segment member
      exact ⟨isRole, canonical, words segment member⟩
  · intro text path read
    exact parse_render_eq_ok_iff.mpr (isWellFormed_of_parse read)

theorem render_parse_inverse_quoted :
    let path : Path :=
      { first := { role := "AXWindow", index := some 3 },
        rest := [({} : Segment).withPredicate "title" "a/b]\" \\"] }
    (∀ segment ∈ path.segments, ∀ index ∈ segment.index, index < UInt64.size) ∧
      parse path.render = .ok path :=
  ⟨by decide, (render_parse_inverse.1 _ (by decide)).mpr (by decide)⟩

end Path

end Accessibility
