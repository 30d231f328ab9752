/-!
# Items of filtered lists

An item that passes a filter stands afterwards behind as many items as passed before it.  Items keep
their order, and no others are there.
-/

namespace Accessibility.Filtering

variable {α : Type} {p : α → Bool} {items : List α} {number other : Nat} {item : α}

theorem getElem?_filter_of_getElem? (found : items[number]? = some item) (holds : p item = true) :
    (items.filter p)[(items.take number).countP p]? = some item := by
  induction items generalizing number with
  | nil => contradiction
  | cons head items ih =>
      cases number with
      | zero =>
          cases found
          simp [holds]
      | succ number =>
          rw [List.getElem?_cons_succ] at found
          rw [List.take_succ_cons, List.countP_cons, List.filter_cons]
          split
          · rw [List.getElem?_cons_succ]
            exact ih found
          · exact ih found

theorem exists_getElem?_of_getElem?_filter {place : Nat}
    (found : (items.filter p)[place]? = some item) :
    ∃ number, items[number]? = some item ∧ p item = true ∧
      (items.take number).countP p = place := by
  induction items generalizing place with
  | nil => contradiction
  | cons head items ih =>
      rw [List.filter_cons] at found
      split at found
      next holds =>
        cases place with
        | zero =>
            cases found
            exact ⟨0, rfl, holds, rfl⟩
        | succ place =>
            rcases ih found with ⟨number, isItem, itemHolds, count⟩
            refine ⟨number + 1, isItem, itemHolds, ?_⟩
            rw [List.take_succ_cons, List.countP_cons, count, if_pos holds]
      next fails =>
        rcases ih found with ⟨number, isItem, itemHolds, count⟩
        refine ⟨number + 1, isItem, itemHolds, ?_⟩
        rw [List.take_succ_cons, List.countP_cons, count, if_neg fails, Nat.add_zero]

theorem countP_take_lt_countP_take (found : items[number]? = some item) (holds : p item = true)
    (before : number < other) : (items.take number).countP p < (items.take other).countP p := by
  have initial : (items.take (number + 1)).Sublist (items.take other) :=
    (List.take_prefix_take_left before).sublist
  calc
    (items.take number).countP p < (items.take number).countP p + 1 := Nat.lt_succ_self _
    _ = (items.take (number + 1)).countP p := by
      rw [List.take_add_one, found, Option.toList_some, List.countP_append, List.countP_singleton,
        if_pos holds]
    _ ≤ (items.take other).countP p := initial.countP_le

/-- Items that pass a filter keep their order. -/
theorem countP_take_lt_iff {another : α} (found : items[number]? = some item)
    (foundOther : items[other]? = some another) (holds : p item = true)
    (holdsOther : p another = true) :
    (items.take number).countP p < (items.take other).countP p ↔ number < other := by
  constructor
  · intro counted
    apply Nat.lt_of_not_le
    intro notBefore
    rcases Nat.eq_or_lt_of_le notBefore with rfl | after
    · exact Nat.lt_irrefl _ counted
    · exact Nat.lt_asymm counted (countP_take_lt_countP_take foundOther holdsOther after)
  · exact countP_take_lt_countP_take found holds

end Accessibility.Filtering
