import Accessibility.Proofs.Element.Scope

/-!
# The frontmost element

A point of the screen is looked for from the root of a tree downwards, through elements whose frames
hold it and through those that stand for the screen and have no frame.  Of the elements to which
such a way leads, other than the screen itself, the frontmost one is found: from no other on its way
does a way lead to a later child, and from it none leads further down.
-/

namespace Accessibility.Element

/-- Whether a search for a point passes through the element. -/
def admits (holds : Frame → Bool) (element : Element) : Bool :=
  element.isSystemWide || holds element.properties.frame

/-- A way down from an element to the one at a position below it, through elements that admit a
point. -/
inductive Descent (holds : Frame → Bool) : Element → Position → Element → Prop where
  | here {element : Element} (admits : element.admits holds = true) :
      Descent holds element [] element
  | step {element child found : Element} {number : Nat} {rest : Position}
      (admits : element.admits holds = true) (isChild : element.children[number]? = some child)
      (descent : Descent holds child rest found) :
      Descent holds element (number :: rest) found

/-- Whether a way leads down from an element to one that does not stand for the screen. -/
def Reaches (holds : Frame → Bool) (element : Element) : Prop :=
  ∃ position found, Descent holds element position found ∧ found.isSystemWide = false

/-- Whether an element is the frontmost one below a root that a point meets. -/
structure IsFrontmost (holds : Frame → Bool) (root : Element) (position : Position)
    (found : Element) : Prop where
  descent : Descent holds root position found
  isProper : found.isSystemWide = false
  /-- No way leads further down, unless to what stands for the screen. -/
  deepest : ∀ rest other, rest ≠ [] → Descent holds root (position ++ rest) other →
    other.isSystemWide = true
  /-- Nor does one lead through a later child of an element on the way. -/
  last : ∀ above number below later rest other, position = above ++ number :: below →
    number < later → Descent holds root (above ++ later :: rest) other → other.isSystemWide = true

variable {holds : Frame → Bool} {root element child found other : Element} {number : Nat}
  {position rest : Position}

/-! ## Ways down -/

theorem Descent.at?_eq (descent : Descent holds root position found) :
    root.at? position = some found := by
  induction descent with
  | here => rfl
  | step _ isChild _ ih => exact at?_cons_eq_some_iff.mpr ⟨_, isChild, ih⟩

theorem Descent.admits_root (descent : Descent holds root position found) :
    root.admits holds = true := by
  cases descent <;> assumption

theorem Descent.admits_found (descent : Descent holds root position found) :
    found.admits holds = true := by
  induction descent with
  | here admits => exact admits
  | step _ _ _ ih => exact ih

theorem descent_cons_iff :
    Descent holds element (number :: rest) found ↔
      element.admits holds = true ∧
        ∃ child, element.children[number]? = some child ∧ Descent holds child rest found := by
  constructor
  · rintro (_ | ⟨admits, isChild, descent⟩)
    exact ⟨admits, _, isChild, descent⟩
  · rintro ⟨admits, child, isChild, descent⟩
    exact .step admits isChild descent

/-- A way leads on from an element that admits the point, unless it stands for the screen and no way
leads on from a child. -/
theorem reaches_iff :
    element.Reaches holds ↔
      element.admits holds = true ∧
        (element.isSystemWide = false ∨ ∃ child ∈ element.children, child.Reaches holds) := by
  constructor
  · rintro ⟨position, found, descent, isProper⟩
    refine ⟨descent.admits_root, ?_⟩
    cases descent with
    | here => exact Or.inl isProper
    | step _ isChild descent =>
        exact Or.inr ⟨_, List.mem_of_getElem? isChild, _, _, descent, isProper⟩
  · rintro ⟨admits, isProper | ⟨child, isChild, position, found, descent, isProper⟩⟩
    · exact ⟨[], element, .here admits, isProper⟩
    · obtain ⟨number, isNumber⟩ := List.mem_iff_getElem?.mp isChild
      exact ⟨number :: position, found, .step admits isNumber descent, isProper⟩

/-! ## The search -/

theorem lastAt?_eq_none_iff {elements : List Element} :
    lastAt? holds elements = none ↔ ∀ element ∈ elements, element.deepestAt? holds = none := by
  induction elements with
  | nil => simp [lastAt?]
  | cons element rest ih => rw [lastAt?, Option.or_eq_none_iff, ih, List.forall_mem_cons, and_comm]

/-- The find in several subtrees is the one in the last of them that has one. -/
theorem exists_last_of_lastAt? {elements : List Element}
    (isFound : lastAt? holds elements = some found) :
    ∃ (number : Nat) (element : Element), elements[number]? = some element ∧
      element.deepestAt? holds = some found ∧
      ∀ (later : Nat) (other : Element), number < later → elements[later]? = some other →
        other.deepestAt? holds = none := by
  induction elements with
  | nil => contradiction
  | cons element rest ih =>
      rw [lastAt?, Option.or_eq_some_iff] at isFound
      rcases isFound with later | ⟨nothing, here⟩
      · obtain ⟨number, other, isAt, isFound, nothingLater⟩ := ih later
        refine ⟨number + 1, other, isAt, isFound, ?_⟩
        intro later another isLater isAnother
        obtain ⟨later, rfl⟩ := Nat.exists_eq_succ_of_ne_zero (Nat.ne_zero_of_lt isLater)
        exact nothingLater later another (Nat.lt_of_succ_lt_succ isLater) isAnother
      · refine ⟨0, element, rfl, here, ?_⟩
        intro later another isLater isAnother
        obtain ⟨later, rfl⟩ := Nat.exists_eq_succ_of_ne_zero (Nat.ne_zero_of_lt isLater)
        exact lastAt?_eq_none_iff.mp nothing another (List.mem_of_getElem? isAnother)

/-- An element that does not admit the point ends the search; otherwise the find is the one below
its children, or else the element itself unless it stands for the screen. -/
theorem deepestAt?_eq_ite (holds : Frame → Bool) (element : Element) :
    element.deepestAt? holds =
      if element.admits holds then
        (lastAt? holds element.children).or (if element.isSystemWide then none else some element)
      else none := by
  rw [deepestAt?_eq, admits]
  cases element.isSystemWide <;> cases holds element.properties.frame <;> simp

/-- Nothing is found exactly if no way leads to anything but the screen. -/
theorem deepestAt?_eq_none_iff : root.deepestAt? holds = none ↔ ¬root.Reaches holds := by
  induction root using induction with
  | step root ih =>
      have below : lastAt? holds root.children = none ↔
          ¬∃ child ∈ root.children, child.Reaches holds := by
        rw [lastAt?_eq_none_iff, not_exists]
        exact forall_congr' fun child => by grind
      rw [deepestAt?_eq_ite, reaches_iff]
      cases root.admits holds <;> cases root.isSystemWide <;> simp [below]

/-! ## What is found -/

theorem isSystemWide_of_not_reaches (nothing : ¬element.Reaches holds)
    (descent : Descent holds element position other) : other.isSystemWide = true :=
  eq_true_of_ne_false fun isProper => nothing ⟨position, other, descent, isProper⟩

namespace IsFrontmost

theorem here (admits : element.admits holds = true) (isProper : element.isSystemWide = false)
    (nothing : ∀ child ∈ element.children, ¬child.Reaches holds) :
    IsFrontmost holds element [] element where
  descent := .here admits
  isProper := isProper
  deepest := by
    intro rest other more descent
    cases descent with
    | here => contradiction
    | step _ isChild descent =>
        exact isSystemWide_of_not_reaches (nothing _ (List.mem_of_getElem? isChild)) descent
  last := by
    intro above number below later rest other split
    simp at split

/-- What is frontmost below a child is so below the parent if no way leads through a later
child. -/
theorem step (admits : element.admits holds = true)
    (isChild : element.children[number]? = some child)
    (nothingLater : ∀ (later : Nat) (other : Element), number < later →
      element.children[later]? = some other → ¬other.Reaches holds)
    (frontmost : IsFrontmost holds child position found) :
    IsFrontmost holds element (number :: position) found where
  descent := .step admits isChild frontmost.descent
  isProper := frontmost.isProper
  deepest := by
    intro rest other more descent
    rcases descent_cons_iff.mp descent with ⟨_, sameChild, isSame, descent⟩
    obtain rfl : child = sameChild := Option.some.inj (isChild.symm.trans isSame)
    exact frontmost.deepest rest other more descent
  last := by
    intro above turn below later rest other split isLater descent
    cases above with
    | nil =>
        obtain ⟨rfl, _⟩ := List.cons.inj split
        rcases descent_cons_iff.mp descent with ⟨_, laterChild, isLaterChild, descent⟩
        exact isSystemWide_of_not_reaches (nothingLater later laterChild isLater isLaterChild)
          descent
    | cons first above =>
        obtain ⟨rfl, splitBelow⟩ := List.cons.inj split
        rcases descent_cons_iff.mp descent with ⟨_, sameChild, isSame, descent⟩
        obtain rfl : child = sameChild := Option.some.inj (isChild.symm.trans isSame)
        exact frontmost.last above turn below later rest other splitBelow isLater descent

theorem of_step (frontmost : IsFrontmost holds element (number :: position) found) :
    ∃ child, element.children[number]? = some child ∧ IsFrontmost holds child position found := by
  rcases descent_cons_iff.mp frontmost.descent with ⟨admits, child, isChild, descent⟩
  refine ⟨child, isChild, descent, frontmost.isProper, ?_, ?_⟩
  · intro rest other more below
    exact frontmost.deepest rest other more (.step admits isChild below)
  · intro above turn below later rest other split isLater descent
    exact frontmost.last (number :: above) turn below later rest other
      (by rw [split, List.cons_append]) isLater (.step admits isChild descent)

/-- Where two ways part, one of them takes a later child; where one of them ends, the other one goes
on.  So there is one frontmost element only. -/
theorem unique {otherPosition : Position} (frontmost : IsFrontmost holds root position found)
    (otherFrontmost : IsFrontmost holds root otherPosition other) : otherPosition = position := by
  have improper {proper : Element} (isProper : proper.isSystemWide = false) :
      ¬proper.isSystemWide = true := by
    rw [isProper]
    exact Bool.false_ne_true
  induction position generalizing root otherPosition with
  | nil =>
      cases otherPosition with
      | nil => rfl
      | cons number rest =>
          exact absurd (frontmost.deepest _ other (List.cons_ne_nil number rest)
            otherFrontmost.descent) (improper otherFrontmost.isProper)
  | cons number rest ih =>
      cases otherPosition with
      | nil =>
          exact absurd (otherFrontmost.deepest _ found (List.cons_ne_nil number rest)
            frontmost.descent) (improper frontmost.isProper)
      | cons otherNumber otherRest =>
          rcases Nat.lt_trichotomy number otherNumber with isLater | rfl | isLater
          · exact absurd (frontmost.last [] number rest otherNumber otherRest other rfl isLater
              otherFrontmost.descent) (improper otherFrontmost.isProper)
          · rcases frontmost.of_step with ⟨child, isChild, below⟩
            rcases otherFrontmost.of_step with ⟨sameChild, isSame, otherBelow⟩
            obtain rfl : child = sameChild := Option.some.inj (isChild.symm.trans isSame)
            rw [ih below otherBelow]
          · exact absurd (otherFrontmost.last [] otherNumber otherRest number rest found rfl isLater
              frontmost.descent) (improper frontmost.isProper)

end IsFrontmost

/-- What the search finds is frontmost. -/
theorem exists_isFrontmost (isFound : root.deepestAt? holds = some found) :
    ∃ position, IsFrontmost holds root position found := by
  induction root using induction with
  | step root ih =>
      rw [deepestAt?_eq_ite, Option.ite_none_right_eq_some] at isFound
      rcases isFound with ⟨admits, isFound⟩
      rcases Option.or_eq_some_iff.mp isFound with isLast | ⟨nothing, isRoot⟩
      · obtain ⟨number, child, isChild, isFound, nothingLater⟩ := exists_last_of_lastAt? isLast
        obtain ⟨position, frontmost⟩ := ih child (List.mem_of_getElem? isChild) isFound
        refine ⟨number :: position, frontmost.step admits isChild ?_⟩
        intro later other isLater isOther
        exact deepestAt?_eq_none_iff.mp (nothingLater later other isLater isOther)
      · rw [Option.ite_none_left_eq_some, Bool.not_eq_true] at isRoot
        rcases isRoot with ⟨isProper, same⟩
        obtain rfl := Option.some.inj same
        refine ⟨[], .here admits isProper ?_⟩
        intro child isChild
        exact deepestAt?_eq_none_iff.mp (lastAt?_eq_none_iff.mp nothing child isChild)

/-- A tree is narrowed down to a point unless no way through elements that admit it leads to
anything but the screen.  What it is narrowed down to holds the point and is the one frontmost
element. -/
theorem deepestAt?_frontmost (holds : Frame → Bool) (root : Element) :
    (root.deepestAt? holds = none ↔
        ¬∃ position found, Descent holds root position found ∧ found.isSystemWide = false) ∧
      (∀ found, root.deepestAt? holds = some found →
        found.isSystemWide = false ∧ holds found.properties.frame = true ∧
          ∃ position, IsFrontmost holds root position found ∧
            ∀ otherPosition other, IsFrontmost holds root otherPosition other →
              otherPosition = position ∧ other = found) ∧
      ∀ x y : Float,
        root.select? (.position x y) = root.deepestAt? fun frame => frame.contains x y := by
  refine ⟨deepestAt?_eq_none_iff, ?_, fun _ _ => rfl⟩
  intro found isFound
  obtain ⟨position, frontmost⟩ := exists_isFrontmost isFound
  have isProper := frontmost.isProper
  have inside := frontmost.descent.admits_found
  rw [admits, isProper, Bool.false_or] at inside
  refine ⟨isProper, inside, position, frontmost, ?_⟩
  intro otherPosition other otherFrontmost
  obtain rfl := frontmost.unique otherFrontmost
  have same := otherFrontmost.descent.at?_eq.symm.trans frontmost.descent.at?_eq
  exact ⟨rfl, Option.some.inj same⟩

theorem deepestAt?_frontmost_after_backtracking :
    let wide : Frame := { width := 10, height := 10 }
    let button : Element := { properties := { role := "AXButton", frame := wide } }
    let window : Element :=
      { properties := { role := "AXWindow", frame := wide }, children := [button] }
    let elsewhere : Element := { properties := { role := "AXWindow" } }
    let screen (children : List Element) : Element :=
      { properties := { role := "AXSystemWide" }, children }
    let root := screen [window, screen [elsewhere]]
    let holds (frame : Frame) : Bool := 0 < frame.width
    root.deepestAt? holds = some button ∧ holds button.properties.frame = true ∧
      ∃ position, IsFrontmost holds root position button := by
  intro wide button window elsewhere screen root holds
  have inWide : holds wide = true := by decide
  have notInEmpty : holds {} = false := by decide
  have isFound : root.deepestAt? holds = some button := by
    simp [root, screen, elsewhere, window, button, deepestAt?, lastAt?, isSystemWide, role,
      systemWideRole, inWide, notInEmpty]
  rcases (deepestAt?_frontmost holds root).2.1 button isFound with
    ⟨_, inside, position, frontmost, _⟩
  exact ⟨isFound, inside, position, frontmost⟩

end Accessibility.Element
