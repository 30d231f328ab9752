import Accessibility.Dictionary
import Mathlib.Data.List.Nodup

/-!
# Entries of dictionaries

A dictionary is seen through the membership of its entries: a look-up finds exactly the entries,
an insertion replaces the entry under its name, and the entries in any order determine the
dictionary.
-/

namespace Accessibility.Dictionary

universe u v

variable {α : Type u}

@[simp]
theorem entries_emptyCollection : (∅ : Dictionary α).entries = [] :=
  rfl

theorem lookupEntry_eq_some_iff {name : String} {value : α} {entries : List (String × α)}
    (ordered : entries.Pairwise fun earlier later => earlier.1 < later.1) :
    lookupEntry name entries = some value ↔ (name, value) ∈ entries := by
  induction entries with
  | nil => simp [lookupEntry]
  | cons head rest ih =>
      obtain ⟨below, restOrdered⟩ := List.pairwise_cons.mp ordered
      rw [lookupEntry, List.mem_cons]
      by_cases atHead : name = head.1
      · rw [if_pos atHead]
        have notInRest : (name, value) ∉ rest := by
          intro inRest
          have smaller : head.1 < name := below _ inRest
          rw [← atHead] at smaller
          exact String.lt_irrefl name smaller
        constructor
        · intro found
          exact Or.inl (Prod.ext atHead (Option.some.inj found).symm)
        · rintro (same | inRest)
          · rw [← same]
          · exact absurd inRest notInRest
      · rw [if_neg atHead, ih restOrdered]
        constructor
        · exact Or.inr
        · rintro (same | inRest)
          · exact absurd (congrArg Prod.fst same) atHead
          · exact inRest

/-- A look-up finds exactly the entries. -/
theorem get?_eq_some_iff {dictionary : Dictionary α} {name : String} {value : α} :
    dictionary.get? name = some value ↔ (name, value) ∈ dictionary.entries :=
  lookupEntry_eq_some_iff dictionary.ordered

theorem contains_iff {dictionary : Dictionary α} {name : String} :
    dictionary.contains name = true ↔ ∃ value, (name, value) ∈ dictionary.entries := by
  rw [contains, Option.isSome_iff_exists]
  exact exists_congr fun value => get?_eq_some_iff

theorem contains_of_isEmpty {dictionary : Dictionary α} (nothing : dictionary.isEmpty = true)
    (name : String) : dictionary.contains name = false := by
  rw [Bool.eq_false_iff]
  intro bound
  rcases contains_iff.mp bound with ⟨value, member⟩
  rw [List.isEmpty_iff.mp nothing] at member
  contradiction

theorem mem_names_iff {dictionary : Dictionary α} {name : String} :
    name ∈ dictionary.names ↔ ∃ value, dictionary.get? name = some value := by
  simp [names, get?_eq_some_iff]

/-- The entries after an insertion are the new one and those under other names. -/
theorem mem_entries_insert {dictionary : Dictionary α} {name : String} {value : α}
    {entry : String × α} :
    entry ∈ (dictionary.insert name value).entries ↔
      entry = (name, value) ∨ entry.1 ≠ name ∧ entry ∈ dictionary.entries := by
  obtain ⟨other, found⟩ := entry
  rw [← get?_eq_some_iff, get?_insert, ← get?_eq_some_iff]
  by_cases same : other = name
  · simp [same, eq_comm]
  · simp [same]

theorem not_isEmpty_insert (name : String) (value : α) (dictionary : Dictionary α) :
    ¬(dictionary.insert name value).isEmpty = true := by
  intro nothing
  have member : (name, value) ∈ (dictionary.insert name value).entries :=
    mem_entries_insert.mpr (Or.inl rfl)
  rw [List.isEmpty_iff.mp nothing] at member
  contradiction

theorem pairwise_names (dictionary : Dictionary α) : dictionary.names.Pairwise (· < ·) :=
  List.pairwise_map.mpr dictionary.ordered

theorem nodup_names (dictionary : Dictionary α) : dictionary.names.Nodup := by
  apply dictionary.pairwise_names.imp
  intro earlier later before same
  rw [same] at before
  exact String.lt_irrefl _ before

theorem nodup_entries (dictionary : Dictionary α) : dictionary.entries.Nodup :=
  dictionary.nodup_names.of_map Prod.fst

/-- The entries determine a dictionary, in whatever order they are listed. -/
theorem eq_of_perm {one other : Dictionary α} (same : one.entries.Perm other.entries) :
    one = other := by
  have entries : one.entries = other.entries := by
    apply List.Perm.eq_of_pairwise _ one.ordered other.ordered same
    intro left right _ _ before after
    exact absurd (String.lt_trans before after) (String.lt_irrefl _)
  cases one
  cases other
  congr

/-- What is found under every name determines a dictionary. -/
theorem eq_of_get?_eq {one other : Dictionary α} (same : ∀ name, one.get? name = other.get? name) :
    one = other := by
  apply eq_of_perm
  rw [List.perm_ext_iff_of_nodup one.nodup_entries other.nodup_entries]
  rintro ⟨name, value⟩
  rw [← get?_eq_some_iff, same, get?_eq_some_iff]

/-- The insertion of a new name adds an entry and leaves the others. -/
theorem entries_insert_perm {dictionary : Dictionary α} {name : String} (value : α)
    (unbound : dictionary.contains name = false) :
    (dictionary.insert name value).entries.Perm ((name, value) :: dictionary.entries) := by
  have notEntry : ∀ found, (name, found) ∉ dictionary.entries := by
    intro found member
    rw [contains_iff.mpr ⟨found, member⟩] at unbound
    contradiction
  refine (List.perm_ext_iff_of_nodup (nodup_entries _) ?_).mpr ?_
  · exact List.nodup_cons.mpr ⟨notEntry value, nodup_entries _⟩
  · intro entry
    rw [mem_entries_insert, List.mem_cons]
    refine or_congr_right (and_iff_right_of_imp ?_)
    rintro member rfl
    exact notEntry entry.2 member

@[simp]
theorem get?_insertIfNew (name other : String) (value : α) (dictionary : Dictionary α) :
    (dictionary.insertIfNew name value).get? other =
      (dictionary.get? other).or (if other = name then some value else none) := by
  unfold insertIfNew contains
  by_cases same : other = name
  · subst same
    cases isBound : dictionary.get? other <;> simp [isBound]
  · split <;> simp [same]

/-- The first entry whose name is of some kind is the one with the least such name. -/
theorem find?_eq_some_of_least {dictionary : Dictionary α} (kind : String → Prop)
    [DecidablePred kind] {entry : String × α} (member : entry ∈ dictionary.entries)
    (isOfKind : kind entry.1)
    (least : ∀ other ∈ dictionary.entries, kind other.1 → ¬other.1 < entry.1) :
    (dictionary.entries.find? fun other => kind other.1) = some entry := by
  rcases List.append_of_mem member with ⟨before, after, split⟩
  have ordered := dictionary.ordered
  rw [split, List.pairwise_append] at ordered
  apply List.find?_eq_some_iff_append.mpr
  refine ⟨decide_eq_true isOfKind, before, after, split, ?_⟩
  intro other isBefore
  have isEntry : other ∈ dictionary.entries := by
    rw [split]
    exact List.mem_append_left _ isBefore
  have smaller := ordered.2.2 other isBefore entry List.mem_cons_self
  simpa using fun ofKind => least other isEntry ofKind smaller

/-- No name of some kind comes before that of the first entry whose name is of the kind. -/
theorem not_lt_of_find?_eq_some {dictionary : Dictionary α} (kind : String → Prop)
    [DecidablePred kind] {entry : String × α}
    (first : (dictionary.entries.find? fun other => kind other.1) = some entry) :
    ∀ other ∈ dictionary.entries, kind other.1 → ¬other.1 < entry.1 := by
  intro other isEntry ofKind smaller
  rcases List.find?_eq_some_iff_append.mp first with ⟨_, before, after, split, others⟩
  have ordered := dictionary.ordered
  rw [split] at isEntry ordered
  rcases List.mem_append.mp isEntry with isBefore | isAfter
  · simpa [ofKind] using others other isBefore
  · rcases List.mem_cons.mp isAfter with rfl | isAfter
    · exact String.lt_irrefl _ smaller
    · have larger := (List.pairwise_cons.mp (List.pairwise_append.mp ordered).2.1).1 other isAfter
      exact String.lt_irrefl _ (String.lt_trans larger smaller)

/-! ## What the entries give -/

variable {β : Type v}

/-- What the entries give, under the same names. -/
def filterMap (pick : String → α → Option β) (dictionary : Dictionary α) : Dictionary β where
  entries := dictionary.entries.filterMap fun entry => (pick entry.1 entry.2).map (entry.1, ·)
  ordered := by
    apply List.Pairwise.filterMap _ _ dictionary.ordered
    intro entry other smaller picked isPicked otherPicked otherIsPicked
    rcases Option.map_eq_some_iff.mp isPicked with ⟨value, _, rfl⟩
    rcases Option.map_eq_some_iff.mp otherIsPicked with ⟨otherValue, _, rfl⟩
    exact smaller

theorem get?_filterMap (pick : String → α → Option β) (dictionary : Dictionary α) (name : String) :
    (dictionary.filterMap pick).get? name = (dictionary.get? name).bind (pick name) := by
  ext value
  rw [get?_eq_some_iff, filterMap, List.mem_filterMap, Option.bind_eq_some_iff]
  constructor
  · rintro ⟨entry, isEntry, isPicked⟩
    rcases Option.map_eq_some_iff.mp isPicked with ⟨picked, given, same⟩
    cases same
    exact ⟨entry.2, get?_eq_some_iff.mpr isEntry, given⟩
  · rintro ⟨found, isFound, given⟩
    exact ⟨(name, found), get?_eq_some_iff.mp isFound, by rw [given, Option.map_some]⟩

theorem map_snd_entries_filterMap (pick : String → α → Option β) (dictionary : Dictionary α) :
    (dictionary.filterMap pick).entries.map Prod.snd =
      dictionary.entries.filterMap fun entry => pick entry.1 entry.2 := by
  rw [filterMap, List.map_filterMap]
  simp only [Option.map_map, Function.comp_def, Option.map_id']

end Accessibility.Dictionary
