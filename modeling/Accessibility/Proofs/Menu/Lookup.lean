import Accessibility.Proofs.Menu.Acceptance
import Accessibility.Proofs.Menu.Items

/-!
# Items found by their paths

If siblings have different titles that can stand in menu paths, then the titles on the way to an
item tell the item, and the path tells the titles.  Each listed path is then that of one item and
leads to it, and no other text does.
-/

namespace Accessibility

namespace MenuItem

/-- Whether siblings have different titles, which can stand in menu paths, on every level. -/
inductive AreNamed : List MenuItem → Prop
  | intro {menus : List MenuItem} (distinct : (menus.map title).Nodup)
      (areTitles : ∀ item ∈ menus, MenuPath.IsTitle item.title)
      (below : ∀ item ∈ menus, AreNamed item.children) : AreNamed menus

variable {menus : List MenuItem} {item found : MenuItem} {position other : MenuPosition}
  {titles otherTitles : List String}

theorem areNamed_iff :
    AreNamed menus ↔ (menus.map title).Nodup ∧
      (∀ item ∈ menus, MenuPath.IsTitle item.title) ∧ ∀ item ∈ menus, AreNamed item.children :=
  ⟨fun ⟨distinct, areTitles, below⟩ => ⟨distinct, areTitles, below⟩,
    fun ⟨distinct, areTitles, below⟩ => .intro distinct areTitles below⟩

/-- The titles on a way can stand in menu paths. -/
theorem Leads.isTitle (leads : Leads menus position titles item) (named : AreNamed menus) :
    ∀ title ∈ titles, MenuPath.IsTitle title := by
  induction leads with
  | here isItem =>
      rcases areNamed_iff.mp named with ⟨_, areTitles, _⟩
      exact List.forall_mem_singleton.mpr (areTitles _ (List.mem_of_getElem? isItem))
  | further isItem _ ih =>
      rcases areNamed_iff.mp named with ⟨_, areTitles, below⟩
      have member := List.mem_of_getElem? isItem
      exact List.forall_mem_cons.mpr ⟨areTitles _ member, ih (below _ member)⟩

theorem number_eq_of_title_eq {number otherNumber : Nat} (named : AreNamed menus)
    (isItem : menus[number]? = some item) (isFound : menus[otherNumber]? = some found)
    (same : item.title = found.title) : number = otherNumber := by
  have distinct := (areNamed_iff.mp named).1
  rcases List.getElem?_eq_some_iff.mp isItem with ⟨inside, rfl⟩
  rcases List.getElem?_eq_some_iff.mp isFound with ⟨otherInside, rfl⟩
  rw [← List.length_map title] at inside otherInside
  have sameTitle : (menus.map title)[number] = (menus.map title)[otherNumber] := by
    rw [List.getElem_map, List.getElem_map]
    exact same
  exact distinct.getElem_inj_iff.mp sameTitle

/-- The titles on the way to an item tell the item. -/
theorem Leads.unique (leads : Leads menus position titles item) (named : AreNamed menus)
    (leadsOther : Leads menus other titles found) : position = other ∧ item = found := by
  induction leads generalizing other with
  | here isItem =>
      rcases leads_title_cons leadsOther with
        ⟨number, first, isFirst, same, ⟨_, rfl, rfl⟩ | ⟨_, _, leadsBelow⟩⟩
      · cases number_eq_of_title_eq named isItem isFirst same.symm
        exact ⟨rfl, Option.some.inj (isItem.symm.trans isFirst)⟩
      · exact absurd rfl leadsBelow.titles_ne_nil
  | further isItem leads ih =>
      rcases leads_title_cons leadsOther with
        ⟨number, first, isFirst, same, ⟨rfl, _⟩ | ⟨positionBelow, rfl, leadsBelow⟩⟩
      · exact absurd rfl leads.titles_ne_nil
      · cases number_eq_of_title_eq named isItem isFirst same.symm
        cases isItem.symm.trans isFirst
        have below := (areNamed_iff.mp named).2.2 _ (List.mem_of_getElem? isItem)
        rcases ih below leadsBelow with ⟨rfl, rfl⟩
        exact ⟨rfl, rfl⟩

/-- The path of an item tells the item. -/
theorem Leads.unique_of_join_eq (leads : Leads menus position titles item) (named : AreNamed menus)
    (leadsOther : Leads menus other otherTitles found)
    (same : MenuPath.join titles = MenuPath.join otherTitles) :
    position = other ∧ titles = otherTitles ∧ item = found := by
  have spelled := MenuPath.spells_join leads.titles_ne_nil (leads.isTitle named)
  have spelledOther := MenuPath.spells_join leadsOther.titles_ne_nil (leadsOther.isTitle named)
  have sameTitles : titles = otherTitles := by
    rw [← MenuPath.components_of_spells spelled, same, MenuPath.components_of_spells spelledOther]
  subst sameTitles
  rcases leads.unique named leadsOther with ⟨samePosition, sameItem⟩
  exact ⟨samePosition, rfl, sameItem⟩

end MenuItem

namespace MenuHierarchy

open MenuItem

variable {hierarchy : MenuHierarchy} {position : MenuPosition} {titles : List String}
  {item : MenuItem}

theorem entries_eq (hierarchy : MenuHierarchy) :
    hierarchy.entries = (placedAll hierarchy.menus).map (PlacedItem.entry "") :=
  entriesAll_eq "" hierarchy.menus

theorem paths_eq (hierarchy : MenuHierarchy) :
    hierarchy.paths =
      (placedAll hierarchy.menus).map fun placed => MenuPath.join placed.titles := by
  rw [paths, entries_eq, List.map_map]
  apply List.map_congr_left
  intro placed _
  exact String.empty_append

theorem length_paths (hierarchy : MenuHierarchy) :
    hierarchy.paths.length = hierarchy.totalItems := by
  rw [paths_eq, List.length_map, length_placedAll, totalItems]

theorem mem_paths_iff {path : String} :
    path ∈ hierarchy.paths ↔
      ∃ position titles item, MenuItem.Leads hierarchy.menus position titles item ∧
        path = MenuPath.join titles := by
  rw [paths_eq, List.mem_map]
  constructor
  · rintro ⟨⟨position, titles, item⟩, member, rfl⟩
    exact ⟨position, titles, item, mem_placedAll_iff.mp member, rfl⟩
  · rintro ⟨position, titles, item, leads, rfl⟩
    exact ⟨_, mem_placedAll_iff.mpr leads, rfl⟩

theorem nodup_paths (named : AreNamed hierarchy.menus) : hierarchy.paths.Nodup := by
  rw [paths_eq, List.nodup_iff_pairwise_ne, List.pairwise_map]
  refine (pairwise_placedAll hierarchy.menus).imp_of_mem ?_
  rintro ⟨position, titles, item⟩ ⟨other, otherTitles, found⟩ member memberOther before same
  rcases (mem_placedAll_iff.mp member).unique_of_join_eq named (mem_placedAll_iff.mp memberOther)
    same with ⟨rfl, _⟩
  exact List.lt_irrefl _ before

/-- A listed path is found as it is written. -/
theorem resolve_join (leads : MenuItem.Leads hierarchy.menus position titles item)
    (named : AreNamed hierarchy.menus) (limit : Nat) :
    hierarchy.resolve (MenuPath.join titles) limit = .ok (.exact (MenuPath.join titles)) := by
  have spelled := MenuPath.spells_join leads.titles_ne_nil (leads.isTitle named)
  have listed : hierarchy.containsPath (MenuPath.join titles) = true := by
    rw [containsPath, List.contains_iff_mem, mem_paths_iff]
    exact ⟨position, titles, item, leads, rfl⟩
  rw [resolve, MenuPath.validate_eq_ok_iff_spells.mpr ⟨titles, spelled⟩,
    MenuPath.components_of_spells spelled]
  simp only [listed, if_true]

/-- The element found for a listed path is that of its item. -/
theorem elementPathFor?_join (leads : MenuItem.Leads hierarchy.menus position titles item)
    (named : AreNamed hierarchy.menus) :
    hierarchy.elementPathFor? (MenuPath.join titles) = item.elementPath := by
  have isEntry : ∀ entry, entry ∈ hierarchy.entries ↔
      ∃ placed ∈ placedAll hierarchy.menus, placed.entry "" = entry := by
    intro entry
    rw [entries_eq, List.mem_map]
  rw [elementPathFor?]
  cases lookup : hierarchy.entries.find? fun entry => entry.path = MenuPath.join titles with
  | none =>
      have member := (isEntry _).mpr ⟨_, mem_placedAll_iff.mpr leads, rfl⟩
      have differs := List.find?_eq_none.mp lookup _ member
      exact absurd (decide_eq_true String.empty_append) differs
  | some entry =>
      rcases (isEntry entry).mp (List.mem_of_find?_eq_some lookup) with
        ⟨⟨other, otherTitles, found⟩, member, rfl⟩
      have same := List.find?_some lookup
      rw [decide_eq_true_eq, PlacedItem.entry, String.empty_append] at same
      rcases (mem_placedAll_iff.mp member).unique_of_join_eq named leads same with ⟨_, _, rfl⟩
      rfl

/-- The paths of a hierarchy are those of its items in the order of their positions, one for each.
Every path leads to its item, and no other text is a path. -/
theorem paths_lead_to_items (named : AreNamed hierarchy.menus) :
    (∃ placed : List PlacedItem,
        (placed.Pairwise fun one other => one.position < other.position) ∧
        (∀ position titles item, ⟨position, titles, item⟩ ∈ placed ↔
          MenuItem.Leads hierarchy.menus position titles item) ∧
        hierarchy.paths = placed.map fun listed => MenuPath.join listed.titles) ∧
      hierarchy.paths.Nodup ∧ hierarchy.totalItems = hierarchy.paths.length ∧
      (∀ position titles item, MenuItem.Leads hierarchy.menus position titles item →
        (∀ limit, hierarchy.resolve (MenuPath.join titles) limit =
            .ok (.exact (MenuPath.join titles))) ∧
          hierarchy.elementPathFor? (MenuPath.join titles) = item.elementPath) ∧
      ∀ path, hierarchy.containsPath path = true ↔
        ∃ position titles item, MenuItem.Leads hierarchy.menus position titles item ∧
          path = MenuPath.join titles := by
  refine ⟨⟨placedAll hierarchy.menus, pairwise_placedAll _, fun _ _ _ => mem_placedAll_iff,
    hierarchy.paths_eq⟩, nodup_paths named, hierarchy.length_paths.symm, ?_, ?_⟩
  · intro position titles item leads
    exact ⟨resolve_join leads named, elementPathFor?_join leads named⟩
  · intro path
    rw [containsPath, List.contains_iff_mem, mem_paths_iff]

theorem paths_lead_to_items_inner_mark :
    let save : MenuItem := { title := "Save >As", elementPath := some "macos://ui/AXMenuItem" }
    let hierarchy :=
      capturedAt "app" [{ title := "File", children := [save] }, { title := "Save >As" }] 0 0
    AreNamed hierarchy.menus ∧
      hierarchy.resolve "File > Save >As" 0 = .ok (.exact "File > Save >As") ∧
      hierarchy.elementPathFor? "File > Save >As" = some "macos://ui/AXMenuItem" := by
  intro save hierarchy
  have nothing : AreNamed [] :=
    .intro List.nodup_nil (List.forall_mem_nil _) (List.forall_mem_nil _)
  have submenu : AreNamed [save] :=
    .intro (by decide) (by decide +kernel) (List.forall_mem_singleton.mpr nothing)
  have named : AreNamed hierarchy.menus :=
    .intro (by decide) (by decide +kernel)
      (List.forall_mem_cons.mpr ⟨submenu, List.forall_mem_singleton.mpr nothing⟩)
  have leads : MenuItem.Leads hierarchy.menus [0, 0] ["File", "Save >As"] save :=
    @MenuItem.Leads.further _ 0 { title := "File", children := [save] } save [0] ["Save >As"] rfl
      (@MenuItem.Leads.here _ 0 save rfl)
  have joined : MenuPath.join ["File", "Save >As"] = "File > Save >As" := by decide +kernel
  rcases (paths_lead_to_items named).2.2.2.1 _ _ _ leads with ⟨found, element⟩
  rw [joined] at found element
  exact ⟨named, found 0, element⟩

end MenuHierarchy

end Accessibility
