import Accessibility.ChangeSet
import Accessibility.Proofs.Element.Tree

/-!
# Elements that agree

Two subtrees agree when they look alike at every position.  The comparison child by child finds a
change exactly when they do not.
-/

namespace Accessibility

namespace Element

/-- Whether two elements show the same and have as many children. -/
def LooksLike (before after : Element) : Prop :=
  before.sameProperties after = true ∧ before.children.length = after.children.length

/-- Whether two subtrees have the same positions and look alike at each of them, whatever the paths
recorded in them. -/
def Agrees (before after : Element) : Prop :=
  ∀ position : Position, Option.Rel LooksLike (before.at? position) (after.at? position)

theorem anyChanged_eq_false_iff {earlier later : List Element} :
    anyChanged earlier later = false ↔
      ∀ (number : Nat) (before after : Element), earlier[number]? = some before →
        later[number]? = some after → before.changed after = false := by
  induction earlier generalizing later with
  | nil => simp [anyChanged]
  | cons before others ih =>
      cases later with
      | nil => simp [anyChanged]
      | cons after rest =>
          rw [anyChanged, Bool.or_eq_false_iff, ih]
          constructor
          · rintro ⟨first, others⟩ number
            cases number with
            | zero => simpa using first
            | succ number => simpa using others number
          · intro all
            constructor
            · exact all 0 before after rfl rfl
            · intro number
              simpa using all (number + 1)

theorem changed_eq_false_iff {before after : Element} :
    before.changed after = false ↔
      before.LooksLike after ∧ anyChanged before.children after.children = false := by
  cases before
  simp [changed, LooksLike, sameProperties]

theorem agrees_of_changed_eq_false {before after : Element}
    (unchanged : before.changed after = false) : before.Agrees after := by
  intro position
  induction position generalizing before after with
  | nil => exact Option.Rel.some (changed_eq_false_iff.mp unchanged).1
  | cons number rest ih =>
      rcases changed_eq_false_iff.mp unchanged with ⟨⟨_, sameLength⟩, children⟩
      rw [at?, at?]
      cases isBefore : before.children[number]? with
      | none =>
          have isAfter : after.children[number]? = none := by
            rw [List.getElem?_eq_none_iff] at isBefore ⊢
            omega
          rw [isAfter]
          exact Option.Rel.none
      | some previous =>
          obtain ⟨current, isAfter⟩ : ∃ current, after.children[number]? = some current := by
            rcases List.getElem?_eq_some_iff.mp isBefore with ⟨inside, _⟩
            exact ⟨_, List.getElem?_eq_getElem (sameLength ▸ inside)⟩
          rw [isAfter]
          exact ih (anyChanged_eq_false_iff.mp children number previous current isBefore isAfter)

theorem changed_eq_false_of_agrees {before after : Element} (agrees : before.Agrees after) :
    before.changed after = false := by
  induction before using induction generalizing after with
  | step before ih =>
      rw [changed_eq_false_iff, anyChanged_eq_false_iff]
      constructor
      · cases agrees [] with
        | some looksLike => exact looksLike
      · intro number previous current isBefore isAfter
        apply ih previous (List.mem_of_getElem? isBefore)
        intro rest
        have below := agrees (number :: rest)
        rw [at?, at?, isBefore, isAfter] at below
        exact below

/-- Two subtrees are unchanged exactly when they agree. -/
theorem changed_eq_false_iff_agrees {before after : Element} :
    before.changed after = false ↔ before.Agrees after :=
  ⟨agrees_of_changed_eq_false, changed_eq_false_of_agrees⟩

end Element

end Accessibility
