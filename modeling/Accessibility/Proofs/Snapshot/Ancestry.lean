import Accessibility.Proofs.Path.Above
import Accessibility.Proofs.Snapshot.Generated

/-!
# Ancestors in snapshots

Ancestry is read off the texts of paths.  Among written paths this finds exactly the paths above,
whatever the quoted values contain.  In a snapshot of a tree with its paths the roots are therefore
the elements at the top level.
-/

namespace Accessibility

namespace Snapshot

variable {snapshot : Snapshot} {key : String}

/-! ## Parts of texts -/

theorem mem_cuts_cons {passed rest : List Char} {c : Char} {part : String} :
    part ∈ cuts passed (c :: rest) ↔
      c = '/' ∧ part.toList = passed.reverse ∨ part ∈ cuts (c :: passed) rest := by
  have isPart : part = String.ofList passed.reverse ↔ part.toList = passed.reverse := by
    rw [← String.toList_inj, String.toList_ofList]
  rw [cuts]
  split
  next isSlash => rw [List.mem_cons, isPart, and_iff_right isSlash]
  next noSlash => simp [noSlash]

/-- The cuts of a text are its parts that a slash follows. -/
theorem mem_cuts_iff {passed text : List Char} {part : String} :
    part ∈ cuts passed text ↔
      ∃ before after, text = before ++ '/' :: after ∧ part.toList = passed.reverse ++ before := by
  induction text generalizing passed with
  | nil => simp [cuts]
  | cons c rest ih =>
      rw [mem_cuts_cons]
      constructor
      · rintro (⟨rfl, same⟩ | later)
        · exact ⟨[], rest, rfl, by rw [same, List.append_nil]⟩
        · rcases ih.mp later with ⟨before, after, rfl, same⟩
          exact ⟨c :: before, after, rfl, by simpa using same⟩
      · rintro ⟨before, after, split, same⟩
        cases before with
        | nil =>
            cases split
            exact Or.inl ⟨rfl, by rw [same, List.append_nil]⟩
        | cons d before =>
            cases split
            exact Or.inr (ih.mpr ⟨before, after, rfl, by simpa using same⟩)

/-- An ancestor is a path of the snapshot with which the path begins, up to a slash. -/
theorem hasAncestor_iff :
    snapshot.hasAncestor key = true ↔
      ∃ other ∈ snapshot, ∃ rest, key.toList = other.toList ++ '/' :: rest := by
  rw [hasAncestor, List.any_eq_true]
  constructor
  · rintro ⟨other, isCut, isKey⟩
    rcases mem_cuts_iff.mp isCut with ⟨before, rest, split, same⟩
    refine ⟨other, Std.TreeMap.contains_iff_mem.mp isKey, rest, ?_⟩
    rw [split, same]
    rfl
  · rintro ⟨other, isKey, rest, split⟩
    exact ⟨other, mem_cuts_iff.mpr ⟨other.toList, rest, split, rfl⟩,
      Std.TreeMap.contains_iff_mem.mpr isKey⟩

/-! ## Ancestors among written paths -/

/-- Whether every path of a snapshot is the written form of segments that can be written. -/
def IsWritten (snapshot : Snapshot) : Prop :=
  ∀ key ∈ snapshot, ∃ path : Path,
    path.render = key ∧ ∀ segment ∈ path.segments, segment.IsWritable

/-- Among written paths the ancestors are the paths above. -/
theorem IsWritten.hasAncestor_iff (written : snapshot.IsWritten) {path : Path}
    (writable : ∀ segment ∈ path.segments, segment.IsWritable) :
    snapshot.hasAncestor path.render = true ↔
      ∃ above : Path, (∀ segment ∈ above.segments, segment.IsWritable) ∧
        above.render ∈ snapshot ∧ above.IsAbove path := by
  rw [Snapshot.hasAncestor_iff]
  constructor
  · rintro ⟨other, isKey, begins⟩
    rcases written other isKey with ⟨above, rfl, aboveWritable⟩
    exact ⟨above, aboveWritable, isKey, (Path.isAbove_iff aboveWritable writable).mpr begins⟩
  · rintro ⟨above, _, isKey, isAbove⟩
    exact ⟨above.render, isKey, isAbove.exists_toList_render⟩

theorem isWritten_of_parse
    (canonical : ∀ key ∈ snapshot, ∃ path, Path.parse key = .ok path ∧ path.render = key) :
    snapshot.IsWritten := by
  intro key isKey
  rcases canonical key isKey with ⟨path, read, same⟩
  exact ⟨path, same, Path.isWritable_of_parse read⟩

/-- A path of a snapshot is that of a root if it has no ancestor. -/
theorem mem_map_fst_roots_iff_hasAncestor (isKey : key ∈ snapshot) :
    key ∈ snapshot.roots.map Prod.fst ↔ snapshot.hasAncestor key = false := by
  rw [mem_map_fst_roots_iff_mem, and_iff_right isKey]

/-! ## Snapshots of generated paths -/

variable {root element : Element} {chosen : Element.Position}

/-- The entries are the elements at and below the top level. -/
theorem getElem?_ofTree_eq_some_iff_among?
    (areRoles : ∀ element ∈ root.preorder, Segment.IsRole element.role) :
    (ofTree root.generatePaths)[key]? = some element ↔
      ∃ chosen, Element.among? root.generatePaths.topLevel chosen = some element ∧
        element.path = key := by
  rw [getElem?_ofTree_eq_some_iff areRoles, ← Element.isSystemWide_generatePaths]
  constructor
  · rintro ⟨position, isAddressed, isAt, carries⟩
    exact ⟨_, (Element.among?_chosenTo isAddressed).trans isAt, carries⟩
  · rintro ⟨chosen, isAt, carries⟩
    rcases Element.exists_chosenTo_of_among? isAt with ⟨position, _, isAddressed, isAt⟩
    exact ⟨position, isAddressed, isAt, carries⟩

theorem mem_ofTree_iff (areRoles : ∀ element ∈ root.preorder, Segment.IsRole element.role) :
    key ∈ ofTree root.generatePaths ↔
      ∃ chosen element, Element.among? root.generatePaths.topLevel chosen = some element ∧
        element.path = key := by
  rw [Std.TreeMap.mem_iff_isSome_getElem?, Option.isSome_iff_exists]
  simp only [getElem?_ofTree_eq_some_iff_among? areRoles]
  exact exists_comm

theorem isWritten_ofTree (areRoles : ∀ element ∈ root.preorder, Segment.IsRole element.role) :
    (ofTree root.generatePaths).IsWritten := by
  intro key isKey
  rcases (mem_ofTree_iff areRoles).mp isKey with ⟨chosen, element, isAt, rfl⟩
  rcases Element.leads_of_among? isAt with ⟨path, leads, carries⟩
  exact ⟨path, carries.symm, leads.isWritable (Element.isRole_topLevel_generatePaths areRoles)⟩

/-- An element at the top level carries the path of its own segment alone. -/
theorem path_of_getElem?_topLevel {number : Nat}
    (isTop : root.generatePaths.topLevel[number]? = some element) :
    element.path =
      ({ first := Segment.amongSiblings root.generatePaths.topLevel element number } :
        Path).render := by
  cases Element.carries_topLevel_generatePaths isTop with
  | intro carries _ => exact carries

/-- The elements with an ancestor are those below the top level. -/
theorem hasAncestor_iff_of_among?
    (areRoles : ∀ element ∈ root.preorder, Segment.IsRole element.role)
    (isAt : Element.among? root.generatePaths.topLevel chosen = some element) :
    (ofTree root.generatePaths).hasAncestor element.path = true ↔ 1 < chosen.length := by
  have canBeWritten := Element.isRole_topLevel_generatePaths areRoles
  rcases Element.leads_of_among? isAt with ⟨path, leads, carries⟩
  rw [carries, (isWritten_ofTree areRoles).hasAncestor_iff (leads.isWritable canBeWritten),
    ← leads.length_path]
  constructor
  · rintro ⟨above, _, _, isAbove⟩
    exact Nat.lt_of_le_of_lt (Nat.le_add_left 1 above.rest.length) isAbove.length_lt
  · intro isLong
    -- The way begins at the top level, and the element there is above all that follow.
    cases leads with
    | arrive isTop => exact absurd isLong (Nat.lt_irrefl 1)
    | @descend _ number top _ _ below isTop _ =>
        refine ⟨{ first := Segment.amongSiblings root.generatePaths.topLevel top number },
          (Leads.arrive isTop).isWritable canBeWritten, ?_, below.segments, by simp [Path.segments],
          rfl⟩
        rw [mem_ofTree_iff areRoles]
        have isAtTop : Element.among? root.generatePaths.topLevel [number] = some top := by
          rw [Element.among?, isTop, Option.bind_some, Element.at?_nil]
        exact ⟨[number], top, isAtTop, path_of_getElem?_topLevel isTop⟩

/-- The roots are the elements at the top level. -/
theorem mem_roots_ofTree_iff
    (areRoles : ∀ element ∈ root.preorder, Segment.IsRole element.role) :
    (key, element) ∈ (ofTree root.generatePaths).roots ↔
      element ∈ root.generatePaths.topLevel ∧ element.path = key := by
  rw [mem_roots_iff, rootAt?, Option.ite_none_left_eq_some,
    getElem?_ofTree_eq_some_iff_among? areRoles, List.mem_iff_getElem?]
  constructor
  · rintro ⟨hasNone, chosen, isAt, rfl⟩
    rw [hasAncestor_iff_of_among? areRoles isAt] at hasNone
    rcases Element.among?_eq_some_iff.mp isAt with ⟨number, top, rest, rfl, isTop, isBelow⟩
    cases rest with
    | nil =>
        cases isBelow
        exact ⟨⟨number, isTop⟩, rfl⟩
    | cons next rest => simp at hasNone
  · rintro ⟨⟨number, isTop⟩, rfl⟩
    have isAt : Element.among? root.generatePaths.topLevel [number] = some element :=
      Element.among?_eq_some_iff.mpr ⟨number, element, [], rfl, isTop, rfl⟩
    refine ⟨?_, [number], isAt, rfl⟩
    rw [hasAncestor_iff_of_among? areRoles isAt]
    exact Nat.lt_irrefl 1

theorem perm_roots_ofTree (areRoles : ∀ element ∈ root.preorder, Segment.IsRole element.role) :
    (ofTree root.generatePaths).roots.Perm
      (root.generatePaths.topLevel.map fun element => (element.path, element)) := by
  have entries := (nodup_entries_generatePaths areRoles).of_map
  have top := (Element.sublist_preorderAll root.generatePaths.topLevel).map
    fun element => (element.path, element)
  rw [List.perm_ext_iff_of_nodup (nodup_map_fst_roots _).of_map (entries.sublist top)]
  rintro ⟨key, element⟩
  rw [mem_roots_ofTree_iff areRoles, List.mem_map]
  constructor
  · rintro ⟨isTop, rfl⟩
    exact ⟨element, isTop, rfl⟩
  · rintro ⟨found, isTop, same⟩
    cases same
    exact ⟨isTop, rfl⟩

/-- In a snapshot of paths as they are written, a root is an element whose path has no other above
it.  The roots of a tree with its paths are the elements at the top level. -/
theorem hasAncestor_eq_false_iff_no_path_above :
    (∀ snapshot : Snapshot,
      (∀ key ∈ snapshot, ∃ path, Path.parse key = .ok path ∧ path.render = key) →
        ∀ (key : String) (path : Path), key ∈ snapshot → Path.parse key = .ok path →
          (key ∈ snapshot.roots.map Prod.fst ↔ snapshot.hasAncestor key = false) ∧
          (snapshot.hasAncestor key = false ↔
            ∀ (other : String) (above : Path), other ∈ snapshot → Path.parse other = .ok above →
              ¬above.IsAbove path)) ∧
      ∀ root : Element, (∀ element ∈ root.preorder, Segment.IsRole element.role) →
        (ofTree root.generatePaths).roots.Perm
          (root.generatePaths.topLevel.map fun element => (element.path, element)) := by
  constructor
  · intro snapshot canonical key path isKey read
    refine ⟨mem_map_fst_roots_iff_hasAncestor isKey, ?_⟩
    rcases canonical key isKey with ⟨same, readSame, rfl⟩
    cases read.symm.trans readSame
    rw [← Bool.not_eq_true, (isWritten_of_parse canonical).hasAncestor_iff
      (Path.isWritable_of_parse read)]
    constructor
    · rintro hasNone other above isOther readAbove isAbove
      rcases canonical other isOther with ⟨same, readSame, rfl⟩
      cases readAbove.symm.trans readSame
      exact hasNone ⟨above, Path.isWritable_of_parse readAbove, isOther, isAbove⟩
    · rintro noneAbove ⟨above, aboveWritable, isOther, isAbove⟩
      rcases canonical above.render isOther with ⟨other, readAbove, same⟩
      rw [Path.eq_of_render_eq (Path.isWritable_of_parse readAbove) aboveWritable same] at readAbove
      exact noneAbove above.render above isOther readAbove isAbove
  · intro root areRoles
    exact perm_roots_ofTree areRoles

/-- A slash in a quoted title makes no descendant of a shorter path. -/
theorem hasAncestor_eq_false_iff_no_path_above_quoted :
    let plain : Path := { first := { role := "AXGroup" } }
    let quoted : Path := { first := plain.first.withPredicate "title" "b/c" }
    let paths := [plain, quoted, quoted.child { role := "AXImage" }]
    let snapshot := ofEntries (paths.map fun path => (path.render, Element.ofRole "AXGroup"))
    let root := Element.ofRole "AXGroup"
    (∀ key ∈ snapshot, ∃ path, Path.parse key = .ok path ∧ path.render = key) ∧
      quoted.render ∈ snapshot.roots.map Prod.fst ∧
      (∀ (other : String) (above : Path), other ∈ snapshot → Path.parse other = .ok above →
        ¬above.IsAbove quoted) ∧
      (ofTree root.generatePaths).roots.Perm
        (root.generatePaths.topLevel.map fun element => (element.path, element)) := by
  intro plain quoted paths snapshot root
  have read : ∀ path ∈ paths, Path.parse path.render = .ok path := by
    have wellFormed : ∀ path ∈ paths, ∀ segment ∈ path.segments,
        Segment.IsRole segment.role ∧
          (∀ entry ∈ segment.predicates.entries,
            Attribute.canonicalName? entry.1 = some entry.1) ∧
          ∀ index ∈ segment.index, index < UInt64.size := by
      decide
    intro path member
    apply Path.parse_render_eq_ok_iff.mpr
    intro segment isSegment
    rcases wellFormed path member segment isSegment with ⟨role, canonical, index⟩
    exact ⟨role, canonical, index⟩
  have canonical : ∀ key ∈ snapshot, ∃ path, Path.parse key = .ok path ∧ path.render = key := by
    intro key isKey
    rw [mem_ofEntries_iff, List.map_map] at isKey
    rcases List.mem_map.mp isKey with ⟨path, member, rfl⟩
    exact ⟨path, read path member, rfl⟩
  have isKey : quoted.render ∈ snapshot := by
    decide
  have isPath : quoted ∈ paths := by
    decide
  rcases hasAncestor_eq_false_iff_no_path_above.1 snapshot canonical quoted.render quoted isKey
    (read quoted isPath) with ⟨isRoot, noneAbove⟩
  have hasNone : snapshot.hasAncestor quoted.render = false := by
    decide
  exact ⟨canonical, isRoot.mpr hasNone, noneAbove.mp hasNone,
    hasAncestor_eq_false_iff_no_path_above.2 root (by decide)⟩

end Snapshot

end Accessibility
