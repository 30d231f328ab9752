import Mathlib.Data.Prod.Lex

/-!
# Sorting by ranks

A ranking lists items in the order of their ranks.  Sorting yields one, and where the ranks tell the
items apart it is the only one.  Numbered items that are sorted by a key are in the order of their
keys and, where these are the same, of their numbers.
-/

namespace Accessibility

variable {α β : Type} [LinearOrder β] {rank : α → β} {items others found another : List α}
  {item kept : α}

/-- Whether a list has all of some items, each as often as they have it, in the order of their
ranks. -/
structure IsRanking (rank : α → β) (items found : List α) : Prop where
  perm : found.Perm items
  ordered : found.Pairwise fun item other => rank item ≤ rank other

/-- A comparison by ranks sorts items by their ranks. -/
theorem isRanking_mergeSort {comparison : α → α → Ordering}
    (byRank : ∀ item other, (comparison item other).isLE = true ↔ rank item ≤ rank other)
    (items : List α) :
    IsRanking rank items (items.mergeSort fun item other => (comparison item other).isLE) where
  perm := List.mergeSort_perm items _
  ordered := by
    simp only [← byRank]
    apply List.pairwise_mergeSort
    · intro one other third before after
      rw [byRank] at before after ⊢
      exact before.trans after
    · intro one other
      rw [Bool.or_eq_true, byRank, byRank]
      exact le_total _ _

namespace IsRanking

/-- If ranks tell items apart, then items in another order have the same ranking. -/
theorem unique (ranking : IsRanking rank items found) (injective : Function.Injective rank)
    (reordered : others.Perm items) (rankingOthers : IsRanking rank others another) :
    another = found := by
  apply List.Perm.eq_of_pairwise _ rankingOthers.ordered ranking.ordered
  · exact rankingOthers.perm.trans (reordered.trans ranking.perm.symm)
  · intro one other _ _ before after
    exact injective (before.antisymm after)

/-- Items that are replaced by others with the same ranks keep their order. -/
theorem map {γ : Type} {change : α → γ} {newRank : γ → β} (ranking : IsRanking rank items found)
    (sameRank : ∀ item ∈ items, newRank (change item) = rank item) :
    IsRanking newRank (items.map change) (found.map change) where
  perm := ranking.perm.map change
  ordered := by
    rw [List.pairwise_map]
    apply ranking.ordered.imp_of_mem
    intro one other isOne isOther before
    rwa [sameRank one (ranking.perm.mem_iff.mp isOne),
      sameRank other (ranking.perm.mem_iff.mp isOther)]

/-- Whatever is cut off from a ranking comes after all that stays. -/
theorem lt_of_cut_off (ranking : IsRanking rank items found) (injective : Function.Injective rank)
    {limit : Nat} (member : item ∈ items) (stays : kept ∈ found.take limit) :
    item ∈ found.take limit ∨ rank kept < rank item := by
  by_cases staysToo : item ∈ found.take limit
  · exact Or.inl staysToo
  · have ordered := ranking.ordered
    rw [← List.take_append_drop limit found, List.pairwise_append] at ordered
    have whole := ranking.perm.mem_iff.mpr member
    rw [← List.take_append_drop limit found, List.mem_append] at whole
    have before := ordered.2.2 kept stays item (whole.resolve_left staysToo)
    refine Or.inr (before.lt_of_ne fun same => ?_)
    exact staysToo (injective same ▸ stays)

end IsRanking

/-- Sorting is stable: items that are numbered in order and sorted by a key are in the order of
their keys and, where these are the same, of their numbers. -/
theorem isRanking_mergeSort_of_numbered {items : List (Nat × α)}
    (numbered : items.Pairwise fun item other => item.1 < other.1) (key : α → β) :
    IsRanking (fun item => toLex (key item.2, item.1)) items
      (items.mergeSort fun item other => decide (key item.2 ≤ key other.2)) where
  perm := List.mergeSort_perm items _
  ordered := by
    -- The library sorts items together with their places by keys and places.
    rw [← List.mergeSort_zipIdx, List.pairwise_map]
    apply List.Pairwise.imp_of_mem _ (List.pairwise_mergeSort _ _ items.zipIdx)
    · rintro ⟨item, place⟩ ⟨other, otherPlace⟩ isItem isOther before
      simp only [List.mem_mergeSort, List.mem_zipIdx_iff_getElem?] at isItem isOther
      simp only [List.zipIdxLE, Bool.if_true_right, Bool.if_false_right, Bool.and_eq_true,
        Bool.or_eq_true, decide_eq_true_eq, Bool.not_eq_true', decide_eq_false_iff_not,
        not_le] at before
      rw [Prod.Lex.toLex_le_toLex]
      rcases before with ⟨notLarger, smaller | inOrder⟩
      · exact Or.inl smaller
      · refine notLarger.lt_or_eq.imp_right fun same => ⟨same, ?_⟩
        rcases inOrder.lt_or_eq with earlier | rfl
        · rcases List.getElem?_eq_some_iff.mp isItem with ⟨inside, rfl⟩
          rcases List.getElem?_eq_some_iff.mp isOther with ⟨otherInside, rfl⟩
          exact (List.pairwise_iff_getElem.mp numbered _ _ inside otherInside earlier).le
        · cases isItem.symm.trans isOther
          rfl
    · apply List.zipIdxLE_trans
      intro one other third before after
      exact decide_eq_true ((of_decide_eq_true before).trans (of_decide_eq_true after))
    · apply List.zipIdxLE_total
      intro one other
      rw [Bool.or_eq_true, decide_eq_true_iff, decide_eq_true_iff]
      exact le_total _ _

end Accessibility
