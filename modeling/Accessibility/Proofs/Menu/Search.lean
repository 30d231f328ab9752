import Accessibility.Menu.Search
import Accessibility.Proofs.Text.LowerCase
import Accessibility.Proofs.Text.Splitting

/-!
# What a search in menus finds

A menu path that is accepted is a path of the menus, or a part of one in some case, or like one, or
is not found, in this order.  The stages differ at a limit of none: parts of paths are looked for
before the list is cut off, paths that are alike after it.  A path that contains the query as it is
written contains it in some case as well, unless a capital sigma has another form there.
-/

namespace Accessibility

namespace MenuPath

/-- Whether a path contains a query in some case. -/
def IsPartOf (query path : String) : Prop :=
  lowered query <:+: lowered path

/-- Whether a path has points for a query. -/
def IsLike (query path : String) : Prop :=
  0 < score (loweredTitles query) (loweredTitles path)

instance (query path : String) : Decidable (IsPartOf query path) :=
  inferInstanceAs (Decidable (_ <:+: _))

instance (query path : String) : Decidable (IsLike query path) :=
  inferInstanceAs (Decidable (_ < _))

variable {query path : String} {paths : List String} {limit : Nat}

/-! ## The lists of the stages -/

theorem mem_partialMatches_iff :
    path ∈ partialMatches query paths ↔ path ∈ paths ∧ IsPartOf query path := by
  rw [partialMatches, List.mem_mergeSort, List.mem_filter, Text.occursIn_iff, IsPartOf]

theorem partialMatches_eq_nil_iff :
    partialMatches query paths = [] ↔ ¬∃ path ∈ paths, IsPartOf query path := by
  rw [List.eq_nil_iff_forall_not_mem]
  simp only [mem_partialMatches_iff, not_exists]

/-- The paths that have points for a query, in the order in which they are suggested. -/
def ranked (query : String) (paths : List String) : List String :=
  (((paths.map fun path => (score (loweredTitles query) (loweredTitles path), path)).filter
    fun candidate => 0 < candidate.1).mergeSort
      fun one other => (compareScored one other).isLE).map Prod.snd

theorem suggestions_eq (query : String) (paths : List String) (limit : Nat) :
    suggestions query paths limit = (ranked query paths).take limit := by
  rw [suggestions, ranked, List.map_take]

theorem mem_ranked_iff : path ∈ ranked query paths ↔ path ∈ paths ∧ IsLike query path := by
  simp only [ranked, List.mem_map, List.mem_mergeSort, List.mem_filter, decide_eq_true_eq, IsLike]
  constructor
  · rintro ⟨_, ⟨⟨path, member, rfl⟩, positive⟩, rfl⟩
    exact ⟨member, positive⟩
  · rintro ⟨member, positive⟩
    exact ⟨_, ⟨⟨path, member, rfl⟩, positive⟩, rfl⟩

theorem suggestions_eq_nil_iff :
    suggestions query paths limit = [] ↔ limit = 0 ∨ ¬∃ path ∈ paths, IsLike query path := by
  rw [suggestions_eq, List.take_eq_nil_iff, List.eq_nil_iff_forall_not_mem]
  simp only [mem_ranked_iff, not_exists]

/-- Whether a list holds some of the paths, at most `limit`, and one at least if the limit allows
it. -/
structure IsSelection (paths : List String) (limit : Nat) (found : List String) : Prop where
  subset : ∀ path ∈ found, path ∈ paths
  length_le : found.length ≤ limit
  notEmpty : 0 < limit → found ≠ []

theorem isSelection_take {whole : List String} (subset : ∀ path ∈ whole, path ∈ paths)
    (notEmpty : whole ≠ []) (limit : Nat) : IsSelection paths limit (whole.take limit) where
  subset path member := subset path (List.mem_of_mem_take member)
  length_le := List.length_take_le limit whole
  notEmpty positive := by
    rw [Ne, List.take_eq_nil_iff, not_or]
    exact ⟨Nat.pos_iff_ne_zero.mp positive, notEmpty⟩

theorem isSelection_partialMatches (isPart : ∃ path ∈ paths, IsPartOf query path) (limit : Nat) :
    IsSelection paths limit ((partialMatches query paths).take limit) := by
  refine isSelection_take ?_ (mt partialMatches_eq_nil_iff.mp (not_not_intro isPart)) limit
  exact fun path member => (mem_partialMatches_iff.mp member).1

theorem isSelection_suggestions (isLike : ∃ path ∈ paths, IsLike query path) (limit : Nat) :
    IsSelection paths limit (suggestions query paths limit) := by
  rcases isLike with ⟨path, member, like⟩
  rw [suggestions_eq]
  refine isSelection_take ?_ (List.ne_nil_of_mem (mem_ranked_iff.mpr ⟨member, like⟩)) limit
  exact fun path member => (mem_ranked_iff.mp member).1

/-! ## The stages -/

section Stages

variable {text : String}

/-- An accepted menu path is looked up in stages, each of which is reached if those before it found
nothing. -/
theorem resolve_eq (valid : validate text = .ok ()) (hierarchy : MenuHierarchy) (limit : Nat) :
    let query := join (components text)
    hierarchy.resolve text limit =
      if query ∈ hierarchy.paths then .ok (.exact query)
      else if partialMatches query hierarchy.paths ≠ [] then
        .ok (.partialMatch ((partialMatches query hierarchy.paths).take limit))
      else if suggestions query hierarchy.paths limit = [] then
        .error (.notFound query hierarchy.applicationId)
      else .ok (.suggestions (suggestions query hierarchy.paths limit)) := by
  rw [MenuHierarchy.resolve, valid]
  simp only [MenuHierarchy.containsPath, List.contains_iff_mem, Bool.not_eq_true',
    List.isEmpty_eq_false_iff, List.isEmpty_iff]

/-- What comes of each stage. -/
theorem resolve_cases (valid : validate text = .ok ()) (hierarchy : MenuHierarchy) (limit : Nat) :
    let query := join (components text)
    let result := hierarchy.resolve text limit
    let isPart := ∃ path ∈ hierarchy.paths, IsPartOf query path
    let isLike := ∃ path ∈ hierarchy.paths, IsLike query path
    query ∈ hierarchy.paths ∧ result = .ok (.exact query) ∨
      query ∉ hierarchy.paths ∧ (isPart ∧ (∃ found, result = .ok (.partialMatch found) ∧
          IsSelection hierarchy.paths limit found) ∨
        ¬isPart ∧ (isLike ∧ 0 < limit ∧ (∃ found, result = .ok (.suggestions found) ∧
            IsSelection hierarchy.paths limit found) ∨
          (isLike → limit = 0) ∧ result = .error (.notFound query hierarchy.applicationId))) := by
  intro query result isPart isLike
  have stages : result = _ := resolve_eq valid hierarchy limit
  by_cases listed : query ∈ hierarchy.paths
  · rw [if_pos listed] at stages
    exact Or.inl ⟨listed, stages⟩
  · rw [if_neg listed] at stages
    refine Or.inr ⟨listed, ?_⟩
    by_cases part : isPart
    · rw [if_pos (mt partialMatches_eq_nil_iff.mp (not_not_intro part))] at stages
      exact Or.inl ⟨part, _, stages, isSelection_partialMatches part limit⟩
    · rw [if_neg (not_not_intro (partialMatches_eq_nil_iff.mpr part))] at stages
      refine Or.inr ⟨part, ?_⟩
      by_cases nothing : suggestions query hierarchy.paths limit = []
      · rw [if_pos nothing] at stages
        refine Or.inr ⟨fun like => ?_, stages⟩
        exact (suggestions_eq_nil_iff.mp nothing).resolve_right (not_not_intro like)
      · rw [if_neg nothing] at stages
        rw [suggestions_eq_nil_iff, not_or, not_not] at nothing
        rcases nothing with ⟨notZero, like⟩
        exact Or.inl ⟨like, Nat.pos_iff_ne_zero.mpr notZero, _, stages,
          isSelection_suggestions like limit⟩

/-- An accepted menu path is exactly one of what it can be: a path of the menus, a part of one in
some case, like one, or not found.  What is like a path is found only if there is room for it. -/
theorem resolve_classifies (valid : validate text = .ok ()) (hierarchy : MenuHierarchy)
    (limit : Nat) :
    let query := join (components text)
    let result := hierarchy.resolve text limit
    let isListed := query ∈ hierarchy.paths
    let isPart := ∃ path ∈ hierarchy.paths, IsPartOf query path
    let isLike := ∃ path ∈ hierarchy.paths, IsLike query path
    (result = .ok (.exact query) ↔ isListed) ∧
      ((∃ found, result = .ok (.partialMatch found)) ↔ ¬isListed ∧ isPart) ∧
      ((∃ found, result = .ok (.suggestions found)) ↔
        ¬isListed ∧ ¬isPart ∧ isLike ∧ 0 < limit) ∧
      (result = .error (.notFound query hierarchy.applicationId) ↔
        ¬isListed ∧ ¬isPart ∧ (isLike → limit = 0)) ∧
      ∀ found, result = .ok (.partialMatch found) ∨ result = .ok (.suggestions found) →
        IsSelection hierarchy.paths limit found := by
  intro query result isListed isPart isLike
  rcases resolve_cases valid hierarchy limit with
    ⟨(listed : isListed), (outcome : result = .ok (.exact query))⟩ | ⟨(notListed : ¬isListed),
      ⟨(part : isPart), found, (outcome : result = _), selection⟩ | ⟨(noPart : ¬isPart),
        ⟨(like : isLike), positive, found, (outcome : result = _), selection⟩ |
        ⟨(noRoom : isLike → limit = 0), (outcome : result = .error (.notFound query _))⟩⟩⟩
  · simp [outcome, listed]
  · simp [outcome, notListed, part, selection]
  · have notZero : limit ≠ 0 := Nat.pos_iff_ne_zero.mp positive
    simp [outcome, notListed, noPart, like, positive, notZero, selection]
  · have noSuggestions : ¬(isLike ∧ 0 < limit) := fun ⟨like, positive⟩ =>
      Nat.ne_of_gt positive (noRoom like)
    simpa [outcome, notListed, noPart, noSuggestions] using noRoom

theorem resolve_classifies_exchanged_letters :
    let hierarchy := MenuHierarchy.capturedAt "app" [{ title := "File" }] 0 0
    validate "Fiel" = .ok () ∧ (∃ found, hierarchy.resolve "Fiel" 1 = .ok (.suggestions found)) ∧
      hierarchy.resolve "Fiel" 0 = .error (.notFound "Fiel" "app") := by
  intro hierarchy
  have valid : validate "Fiel" = .ok () := by decide +kernel
  have query : join (components "Fiel") = "Fiel" := by decide +kernel
  have paths : hierarchy.paths = ["File"] := by decide +kernel
  have noPart : ¬IsPartOf "Fiel" "File" := by decide +kernel
  have like : IsLike "Fiel" "File" := by decide +kernel
  have suggested := (resolve_classifies valid hierarchy 1).2.2.1
  have missed := (resolve_classifies valid hierarchy 0).2.2.2.1
  simp only [query, paths, List.mem_singleton, exists_eq_left] at suggested missed
  exact ⟨valid, suggested.mpr ⟨by decide, noPart, like, Nat.one_pos⟩,
    missed.mpr ⟨by decide, noPart, fun _ => trivial⟩⟩

/-- A menu path that is like one of the menus is not found at a limit of none, and one that is a
part of one is given without any. -/
theorem not_forall_resolve_classifies :
    (¬∀ (text : String) (hierarchy : MenuHierarchy) (limit : Nat), validate text = .ok () →
      ((∃ found, hierarchy.resolve text limit = .ok (.suggestions found)) ↔
        join (components text) ∉ hierarchy.paths ∧
          (¬∃ path ∈ hierarchy.paths, IsPartOf (join (components text)) path) ∧
          ∃ path ∈ hierarchy.paths, IsLike (join (components text)) path)) ∧
      ¬∀ (text : String) (hierarchy : MenuHierarchy) (limit : Nat) (found : List String),
        validate text = .ok () → hierarchy.resolve text limit = .ok (.partialMatch found) →
        found ≠ [] := by
  let hierarchy := MenuHierarchy.capturedAt "app" [{ title := "File" }] 0 0
  have paths : hierarchy.paths = ["File"] := by decide +kernel
  constructor
  · intro always
    have missed : hierarchy.resolve "Fiel" 0 = .error (.notFound "Fiel" "app") := by
      decide +kernel
    have query : join (components "Fiel") = "Fiel" := by decide +kernel
    have promised := always "Fiel" hierarchy 0 (by decide +kernel)
    simp only [missed, query, paths, List.mem_singleton, exists_eq_left] at promised
    rcases promised.mpr ⟨by decide, by decide +kernel, by decide +kernel⟩ with ⟨_, found⟩
    contradiction
  · intro always
    exact always "Fil" hierarchy 0 [] (by decide +kernel) (by decide +kernel) rfl

end Stages

/-! ## Parts as they are written -/

/-- A path that contains a query as it is written is found if the capital sigmas of the query have
the same forms in the path as in the query.  Every such path is found if and only if the query
settles these forms itself. -/
theorem mem_partialMatches_of_contains (query : String) :
    (∀ (before after : List Char) (paths : List String),
      (∀ front back, query.toList = front ++ 'Σ' :: back →
        Text.sigmaFormWithin before.reverse after front.reverse back =
          Text.sigmaForm front.reverse back) →
      String.ofList (before ++ query.toList ++ after) ∈ paths →
        String.ofList (before ++ query.toList ++ after) ∈ partialMatches query paths) ∧
      ((∀ (paths : List String), ∀ path ∈ paths, query.toList <:+: path.toList →
          path ∈ partialMatches query paths) ↔
        Text.AreSigmasSettled query.toList) := by
  refine ⟨?_, ?_, ?_⟩
  · intro before after paths sameForms member
    have inside := Text.lower_infix_of_same_forms sameForms
    refine mem_partialMatches_iff.mpr ⟨member, ?_⟩
    rwa [IsPartOf, lowered, lowered, String.toList_ofList]
  · intro always
    by_contra unsettled
    rcases Text.exists_not_lower_infix unsettled with ⟨whole, inside, missed⟩
    rw [← String.toList_ofList (l := whole)] at inside missed
    have found := always [String.ofList whole] _ (List.mem_singleton_self _) inside
    exact missed (mem_partialMatches_iff.mp found).2
  · intro settled paths path member inside
    exact mem_partialMatches_iff.mpr ⟨member, settled.lower_infix inside⟩

theorem mem_partialMatches_of_contains_sigma :
    (∀ front back, "ΑΣ".toList = front ++ 'Σ' :: back →
      Text.sigmaFormWithin [] " > Β".toList front.reverse back =
        Text.sigmaForm front.reverse back) ∧
      "ΑΣ > Β" ∈ partialMatches "ΑΣ" ["ΑΣ > Β"] ∧
      Text.AreSigmasSettled "ΑΣΑ".toList ∧ "ΓΑΣΑΣ" ∈ partialMatches "ΑΣΑ" ["ΓΑΣΑΣ"] := by
  have sameForms : ∀ front back, "ΑΣ".toList = front ++ 'Σ' :: back →
      Text.sigmaFormWithin [] " > Β".toList front.reverse back =
        Text.sigmaForm front.reverse back :=
    Text.forall_split_iff.mpr (by decide +kernel)
  have whole : String.ofList ([] ++ "ΑΣ".toList ++ " > Β".toList) = "ΑΣ > Β" := by
    decide +kernel
  have found := (mem_partialMatches_of_contains "ΑΣ").1 [] " > Β".toList _ sameForms
    (List.mem_singleton_self _)
  have settled : Text.AreSigmasSettled "ΑΣΑ".toList := by decide +kernel
  refine ⟨sameForms, whole ▸ found, settled, ?_⟩
  exact (mem_partialMatches_of_contains "ΑΣΑ").2.mpr settled _ _ (List.mem_singleton_self _)
    (by decide +kernel)

/-- A capital sigma at the end of a query is taken for one at the end of a word. -/
theorem not_forall_mem_partialMatches_of_contains :
    ¬∀ (query : String) (paths : List String), ∀ path ∈ paths,
      query.toList <:+: path.toList → path ∈ partialMatches query paths := by
  intro always
  have found := always "ΑΣ" ["ΑΣΑ"] "ΑΣΑ" (List.mem_singleton_self _) (by decide +kernel)
  have missed : ¬IsPartOf "ΑΣ" "ΑΣΑ" := by decide +kernel
  exact missed (mem_partialMatches_iff.mp found).2

end MenuPath

end Accessibility
