import Accessibility.Menu.Path
import Mathlib.Data.List.Nodup

/-!
# Items of menus

Every item of some menus has a position, which tells the way to it from the menu bar on, and titles
on that way.  The menus are listed in the order of the positions, in which an item comes before
those below it and with them before its later siblings.  The listed paths are those of the titles.
-/

namespace Accessibility

/-- The number of a menu in the menu bar, then those of the items chosen in one submenu after
another. -/
abbrev MenuPosition :=
  List Nat

/-- An item with its position and the titles on the way to it. -/
structure PlacedItem where
  position : MenuPosition
  titles : List String
  item : MenuItem

namespace PlacedItem

/-- The item as it is placed if its menus are a submenu. -/
def below (number : Nat) (title : String) (placed : PlacedItem) : PlacedItem :=
  { placed with position := number :: placed.position, titles := title :: placed.titles }

/-- The item as it is placed behind one more menu. -/
def later (placed : PlacedItem) : PlacedItem :=
  { placed with position := placed.position.modifyHead (· + 1) }

/-- The path of the item, behind some leading text. -/
def entry (leading : String) (placed : PlacedItem) : MenuEntry :=
  ⟨leading ++ MenuPath.join placed.titles, placed.item.elementPath⟩

end PlacedItem

namespace MenuItem

/-- Whether a position leads through these titles to an item. -/
inductive Leads : List MenuItem → MenuPosition → List String → MenuItem → Prop
  | here {menus : List MenuItem} {number : Nat} {item : MenuItem}
      (isItem : menus[number]? = some item) : Leads menus [number] [item.title] item
  | further {menus : List MenuItem} {number : Nat} {item found : MenuItem}
      {position : MenuPosition} {titles : List String} (isItem : menus[number]? = some item)
      (leads : Leads item.children position titles found) :
      Leads menus (number :: position) (item.title :: titles) found

mutual

/-- The items of a menu, each before those below it. -/
def placed : MenuItem → List PlacedItem
  | ⟨title, elementPath, enabled, shortcut, children⟩ =>
      ⟨[0], [title], ⟨title, elementPath, enabled, shortcut, children⟩⟩ ::
        (placedAll children).map (.below 0 title)

/-- The items of a list of menus. -/
def placedAll : List MenuItem → List PlacedItem
  | [] => []
  | item :: rest => placed item ++ (placedAll rest).map .later

end

/-- What carries over from the first submenu and from the other menus holds of all menus. -/
theorem forest_induction {motive : List MenuItem → Prop} (nil : motive [])
    (cons : ∀ item rest, motive item.children → motive rest → motive (item :: rest)) :
    (menus : List MenuItem) → motive menus
  | [] => nil
  | ⟨_, _, _, _, children⟩ :: rest =>
      cons _ rest (forest_induction nil cons children) (forest_induction nil cons rest)

theorem placedAll_cons (item : MenuItem) (rest : List MenuItem) :
    placedAll (item :: rest) =
      ⟨[0], [item.title], item⟩ :: (placedAll item.children).map (.below 0 item.title) ++
        (placedAll rest).map .later := by
  cases item
  rw [placedAll, placed]

theorem sizeAll_cons (item : MenuItem) (rest : List MenuItem) :
    sizeAll (item :: rest) = 1 + sizeAll item.children + sizeAll rest := by
  cases item
  rw [sizeAll, size]

theorem entriesAll_cons (leading : String) (item : MenuItem) (rest : List MenuItem) :
    entriesAll leading (item :: rest) =
      ⟨leading ++ item.title, item.elementPath⟩ ::
          entriesAll (leading ++ item.title ++ separator) item.children ++
        entriesAll leading rest := by
  cases item
  rw [entriesAll, entries]

variable {menus rest : List MenuItem} {item first : MenuItem} {position : MenuPosition}
  {titles : List String}

/-! ## Ways to items -/

theorem Leads.position_ne_nil (leads : Leads menus position titles item) : position ≠ [] := by
  cases leads <;> exact List.cons_ne_nil _ _

theorem Leads.titles_ne_nil (leads : Leads menus position titles item) : titles ≠ [] := by
  cases leads <;> exact List.cons_ne_nil _ _

theorem Leads.later (leads : Leads rest position titles item) (first : MenuItem) :
    Leads (first :: rest) (position.modifyHead (· + 1)) titles item := by
  cases leads with
  | here isItem => exact .here isItem
  | further isItem leads => exact .further isItem leads

/-- A way begins with a menu of the first title and ends there or goes on below. -/
theorem leads_title_cons {title : String}
    (leads : Leads menus position (title :: titles) item) :
    ∃ number first, menus[number]? = some first ∧ first.title = title ∧
      (titles = [] ∧ position = [number] ∧ item = first ∨
        ∃ positionBelow, position = number :: positionBelow ∧
          Leads first.children positionBelow titles item) := by
  generalize same : title :: titles = allTitles at leads
  cases leads with
  | here isItem =>
      cases same
      exact ⟨_, _, isItem, rfl, Or.inl ⟨rfl, rfl, rfl⟩⟩
  | further isItem leads =>
      cases same
      exact ⟨_, _, isItem, rfl, Or.inr ⟨_, rfl, leads⟩⟩

/-- A way begins with the first menu, and may end there, or is a way through the other menus. -/
theorem leads_cons_cases (leads : Leads (first :: rest) position titles item) :
    position = [0] ∧ titles = [first.title] ∧ item = first ∨
      (∃ positionBelow titlesBelow, position = 0 :: positionBelow ∧
        titles = first.title :: titlesBelow ∧
        Leads first.children positionBelow titlesBelow item) ∨
      ∃ positionLater, position = positionLater.modifyHead (· + 1) ∧
        Leads rest positionLater titles item := by
  cases leads with
  | @here _ number _ isItem =>
      cases number with
      | zero =>
          cases isItem
          exact Or.inl ⟨rfl, rfl, rfl⟩
      | succ number => exact Or.inr (Or.inr ⟨[number], rfl, .here isItem⟩)
  | @further _ number _ _ positionBelow titlesBelow isItem leads =>
      cases number with
      | zero =>
          cases isItem
          exact Or.inr (Or.inl ⟨positionBelow, titlesBelow, rfl, rfl, leads⟩)
      | succ number => exact Or.inr (Or.inr ⟨number :: positionBelow, rfl, .further isItem leads⟩)

/-! ## The listed items -/

/-- The items are listed with the ways that lead to them. -/
theorem mem_placedAll_iff :
    ⟨position, titles, item⟩ ∈ placedAll menus ↔ Leads menus position titles item := by
  induction menus using forest_induction generalizing position titles with
  | nil =>
      constructor
      · intro member
        contradiction
      · rintro (isItem | isItem) <;> contradiction
  | cons first rest ihBelow ihLater =>
      rw [placedAll_cons, List.mem_append, List.mem_cons, List.mem_map, List.mem_map]
      constructor
      · rintro ((same | ⟨⟨positionBelow, titlesBelow, found⟩, member, same⟩) |
          ⟨⟨positionLater, titlesLater, found⟩, member, same⟩)
        · cases same
          exact .here rfl
        · cases same
          exact .further rfl (ihBelow.mp member)
        · cases same
          exact (ihLater.mp member).later first
      · intro leads
        rcases leads_cons_cases leads with
          ⟨rfl, rfl, rfl⟩ | ⟨positionBelow, titlesBelow, rfl, rfl, leadsBelow⟩ |
          ⟨positionLater, rfl, leadsLater⟩
        · exact Or.inl (Or.inl rfl)
        · exact Or.inl (Or.inr ⟨_, ihBelow.mpr leadsBelow, rfl⟩)
        · exact Or.inr ⟨_, ihLater.mpr leadsLater, rfl⟩

theorem exists_position_eq_cons {placed : PlacedItem} (member : placed ∈ placedAll menus) :
    ∃ number rest, placed.position = number :: rest :=
  List.exists_cons_of_ne_nil (mem_placedAll_iff.mp member).position_ne_nil

/-- The items are listed in the order of their positions. -/
theorem pairwise_placedAll (menus : List MenuItem) :
    (placedAll menus).Pairwise fun one other => one.position < other.position := by
  induction menus using forest_induction with
  | nil => exact List.Pairwise.nil
  | cons first rest ihBelow ihLater =>
      rw [placedAll_cons, List.pairwise_append, List.pairwise_cons, List.pairwise_map,
        List.pairwise_map]
      refine ⟨⟨?_, ?_⟩, ?_, ?_⟩
      · rw [List.forall_mem_map]
        intro placed member
        rcases exists_position_eq_cons member with ⟨number, more, position⟩
        simp [PlacedItem.below, position]
      · refine ihBelow.imp fun before => ?_
        exact List.cons_lt_cons_iff.mpr (Or.inr ⟨rfl, before⟩)
      · refine ihLater.imp_of_mem fun {one other} member memberOther before => ?_
        rcases exists_position_eq_cons member with ⟨number, more, position⟩
        rcases exists_position_eq_cons memberOther with ⟨otherNumber, otherMore, otherPosition⟩
        rw [position, otherPosition, List.cons_lt_cons_iff] at before
        simpa [PlacedItem.later, position, otherPosition, List.cons_lt_cons_iff] using before
      · -- Every position in the first menu begins with zero, and the others do not.
        intro one member other memberOther
        rcases List.mem_map.mp memberOther with ⟨placed, isPlaced, rfl⟩
        rcases exists_position_eq_cons isPlaced with ⟨number, more, position⟩
        rcases List.mem_cons.mp member with rfl | memberBelow
        · simp [PlacedItem.later, position, List.cons_lt_cons_iff]
        · rcases List.mem_map.mp memberBelow with ⟨placedBelow, _, rfl⟩
          simp [PlacedItem.below, PlacedItem.later, position, List.cons_lt_cons_iff]

theorem length_placedAll (menus : List MenuItem) : (placedAll menus).length = sizeAll menus := by
  induction menus using forest_induction with
  | nil => rfl
  | cons first rest ihBelow ihLater =>
      rw [placedAll_cons, sizeAll_cons, List.length_append, List.length_cons, List.length_map,
        List.length_map, ihBelow, ihLater, Nat.add_comm 1]

/-! ## The listed paths -/

theorem append_join_cons (leading title : String) {titles : List String} (notEmpty : titles ≠ []) :
    leading ++ MenuPath.join (title :: titles) =
      leading ++ title ++ separator ++ MenuPath.join titles := by
  cases titles with
  | nil => contradiction
  | cons next titles =>
      rw [← String.toList_inj]
      simp [MenuPath.join, Text.joinWith]

/-- The listed paths are those of the titles on the ways to the items. -/
theorem entriesAll_eq (leading : String) (menus : List MenuItem) :
    entriesAll leading menus = (placedAll menus).map (PlacedItem.entry leading) := by
  induction menus using forest_induction generalizing leading with
  | nil => rfl
  | cons first rest ihBelow ihLater =>
      have alone : leading ++ first.title = leading ++ MenuPath.join [first.title] := by
        rw [MenuPath.join, List.map_singleton, Text.joinWith_singleton, String.ofList_toList]
      have below :
          (placedAll first.children).map (PlacedItem.entry (leading ++ first.title ++ separator)) =
            (placedAll first.children).map (PlacedItem.entry leading ∘ .below 0 first.title) := by
        apply List.map_congr_left
        intro placed member
        have notEmpty := (mem_placedAll_iff.mp member).titles_ne_nil
        rw [PlacedItem.entry, ← append_join_cons leading first.title notEmpty]
        rfl
      rw [entriesAll_cons, ihBelow, ihLater, below, alone, placedAll_cons, List.map_append,
        List.map_cons, List.map_map, List.map_map]
      rfl

end MenuItem

end Accessibility
