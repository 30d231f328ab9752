/-!
# Dictionaries

Finite maps from names to values, kept as a list of entries in increasing order of names.  The
order is by code point and part of the type, so two dictionaries with the same entries are
equal, and listing one needs no sorting.
-/

namespace Accessibility

universe u

/-- A finite map from names to values. -/
structure Dictionary (α : Type u) where
  /-- The entries in increasing order of names. -/
  entries : List (String × α)
  ordered : entries.Pairwise fun earlier later => earlier.1 < later.1
  deriving DecidableEq, Repr

namespace Dictionary

variable {α : Type u}

/-- The entry list with `name` bound to `value`, in the place where the order wants it. -/
def insertEntry (name : String) (value : α) : List (String × α) → List (String × α)
  | [] => [(name, value)]
  | entry :: rest =>
      if name < entry.1 then (name, value) :: entry :: rest
      else if name = entry.1 then (name, value) :: rest
      else entry :: insertEntry name value rest

/-- An entry after an insertion is the new one or was there before. -/
theorem mem_insertEntry {name : String} {value : α} {entries : List (String × α)}
    {entry : String × α} (member : entry ∈ insertEntry name value entries) :
    entry = (name, value) ∨ entry ∈ entries := by
  induction entries with
  | nil => simpa [insertEntry] using member
  | cons head rest ih =>
      simp only [insertEntry] at member
      split at member
      · simpa using member
      · split at member
        · rcases List.mem_cons.1 member with same | inRest
          · exact Or.inl same
          · exact Or.inr (List.mem_cons_of_mem _ inRest)
        · rcases List.mem_cons.1 member with same | inRest
          · exact Or.inr (same ▸ List.mem_cons_self)
          · rcases ih inRest with same | inTail
            · exact Or.inl same
            · exact Or.inr (List.mem_cons_of_mem _ inTail)

/-- An insertion keeps the order of names. -/
theorem ordered_insertEntry (name : String) (value : α) {entries : List (String × α)}
    (ordered : entries.Pairwise fun earlier later => earlier.1 < later.1) :
    (insertEntry name value entries).Pairwise fun earlier later => earlier.1 < later.1 := by
  induction entries with
  | nil => simp [insertEntry]
  | cons head rest ih =>
      obtain ⟨below, restOrdered⟩ := List.pairwise_cons.1 ordered
      simp only [insertEntry]
      split
      next before =>
        refine List.pairwise_cons.2 ⟨fun entry member => ?_, ordered⟩
        rcases List.mem_cons.1 member with same | inRest
        · exact same ▸ before
        · exact String.lt_trans before (below entry inRest)
      next notBefore =>
        split
        next same => exact List.pairwise_cons.2 ⟨fun entry member => same ▸ below entry member,
          restOrdered⟩
        next different =>
          refine List.pairwise_cons.2 ⟨fun entry member => ?_, ih restOrdered⟩
          rcases mem_insertEntry member with same | inRest
          · subst same
            rcases Std.lt_trichotomy head.1 name with after | same | before
            · exact after
            · exact absurd same.symm different
            · exact absurd before notBefore
          · exact below entry inRest

/-- The dictionary without entries. -/
def empty : Dictionary α :=
  ⟨[], List.Pairwise.nil⟩

instance : Inhabited (Dictionary α) :=
  ⟨empty⟩

instance : EmptyCollection (Dictionary α) :=
  ⟨empty⟩

/-- Two dictionaries are the same for `==` when their entries are, one by one. -/
instance [BEq α] : BEq (Dictionary α) :=
  ⟨fun left right => left.entries == right.entries⟩

/-- The dictionary with `name` bound to `value`, whatever it was bound to before. -/
def insert (name : String) (value : α) (dictionary : Dictionary α) : Dictionary α :=
  ⟨insertEntry name value dictionary.entries, ordered_insertEntry name value dictionary.ordered⟩

/-- The value of the first entry under `name`. -/
def lookupEntry (name : String) : List (String × α) → Option α
  | [] => none
  | entry :: rest => if name = entry.1 then some entry.2 else lookupEntry name rest

/-- The value bound to `name`. -/
def get? (dictionary : Dictionary α) (name : String) : Option α :=
  lookupEntry name dictionary.entries

/-- Whether `name` is bound. -/
def contains (dictionary : Dictionary α) (name : String) : Bool :=
  (dictionary.get? name).isSome

/-- The dictionary with `name` bound to `value` unless it is bound already. -/
def insertIfNew (name : String) (value : α) (dictionary : Dictionary α) : Dictionary α :=
  if dictionary.contains name then dictionary else dictionary.insert name value

/-- Binds the entries from first to last, so that the last of several with one name stays. -/
def ofList (entries : List (String × α)) : Dictionary α :=
  entries.foldl (fun dictionary entry => dictionary.insert entry.1 entry.2) empty

/-- Whether nothing is bound. -/
def isEmpty (dictionary : Dictionary α) : Bool :=
  dictionary.entries.isEmpty

/-- The bound names in increasing order. -/
def names (dictionary : Dictionary α) : List String :=
  dictionary.entries.map (·.1)

/-- A look-up sees the last insertion under its name and is not affected by any other. -/
theorem lookupEntry_insertEntry (name other : String) (value : α)
    (entries : List (String × α)) :
    lookupEntry other (insertEntry name value entries) =
      if other = name then some value else lookupEntry other entries := by
  induction entries with
  | nil => rfl
  | cons head rest ih =>
      simp only [insertEntry]
      split
      next => simp [lookupEntry]
      next =>
        split
        next same => by_cases otherSame : other = name <;> simp [lookupEntry, otherSame, ← same]
        next different =>
          by_cases atHead : other = head.1
          · simp [lookupEntry, atHead, Ne.symm different]
          · simp [lookupEntry, atHead, ih]

@[simp]
theorem get?_insert (name other : String) (value : α) (dictionary : Dictionary α) :
    (dictionary.insert name value).get? other =
      if other = name then some value else dictionary.get? other :=
  lookupEntry_insertEntry name other value dictionary.entries

end Dictionary

/-- A finite set of names, listed in increasing order. -/
abbrev NameSet :=
  Dictionary Unit

/-- The set of the names in a list. -/
def NameSet.ofNames (names : List String) : NameSet :=
  Dictionary.ofList (names.map (·, ()))

end Accessibility
