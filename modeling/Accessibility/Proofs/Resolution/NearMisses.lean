import Accessibility.Proofs.Ranking
import Accessibility.Proofs.Resolution.Repairs
import Mathlib.Order.OrderDual

/-!
# Near misses

The candidates that do not fit a segment but share its role or a predicate with it are ranked by how
much they share and, where that is the same, by their order as children.  The near misses of a level
are the first ones of this ranking.
-/

namespace Accessibility

/-- Whether an element has the role that a segment asks for or the text of one of its predicates. -/
def Segment.shares (segment : Segment) (element : Element) : Bool :=
  (!segment.role.isEmpty && element.role = segment.role) ||
    segment.predicates.entries.any fun predicate => element.text? predicate.1 = some predicate.2

namespace Level

variable {level : Level} {element : Element}

/-- Only what is shared with the segment scores. -/
theorem score_pos_iff : 0 < level.score element ↔ level.segment.shares element = true := by
  rw [score, Segment.shares, Nat.add_pos_iff_pos_or_pos, Bool.or_eq_true, List.countP_pos_iff,
    List.any_eq_true]
  refine or_congr_left ?_
  split <;> simp [*]

/-- The candidates that do not fit but share something with the segment, with their numbers. -/
def close (level : Level) : List (Nat × Element) :=
  level.numbered.filter fun candidate =>
    !level.segment.fits candidate.2 && level.segment.shares candidate.2

/-- The rank of a numbered candidate: a higher score comes first, then a lower number. -/
def missRank (level : Level) (candidate : Nat × Element) : Natᵒᵈ ×ₗ Nat :=
  toLex (OrderDual.toDual (level.score candidate.2), candidate.1)

/-- Candidates are numbered in their order. -/
theorem pairwise_close (level : Level) :
    level.close.Pairwise fun one other => one.1 < other.1 := by
  apply List.Pairwise.filter
  rw [← List.pairwise_map, map_fst_numbered]
  exact List.pairwise_lt_range'

/-- No more candidates are close than do not fit. -/
theorem length_close_le (level : Level) :
    level.close.length ≤ level.candidates.length - level.fitting.length := by
  have notFitting : level.close.length ≤
      level.candidates.countP fun element => !level.segment.fits element := by
    rw [close, ← List.countP_eq_length_filter, ← map_snd_numbered, List.countP_map]
    apply List.countP_mono_left
    intro candidate _ isClose
    exact (Bool.and_eq_true_iff.mp isClose).1
  have all := List.length_eq_countP_add_countP level.segment.fits (l := level.candidates)
  rw [length_fitting]
  simp only [Bool.not_eq_true, Bool.decide_eq_false] at all
  omega

theorem map_snd_close (level : Level) :
    level.close.map Prod.snd =
      level.candidates.filter fun element =>
        !level.segment.fits element && decide (0 < level.score element) := by
  rw [← map_snd_numbered, List.filter_map, close]
  congr 1
  apply List.filter_congr
  intro candidate _
  rw [Function.comp_apply, Bool.eq_iff_iff]
  simp only [Bool.and_eq_true, decide_eq_true_eq, score_pos_iff]

/-- The near misses are the summaries of the best candidates that are close. -/
theorem exists_isRanking_nearMisses (level : Level) :
    ∃ ranking, IsRanking level.missRank level.close ranking ∧
      ∀ limit, level.nearMisses limit =
        (ranking.take limit).map fun candidate => candidate.2.properties.summary := by
  refine ⟨_, isRanking_mergeSort_of_numbered level.pairwise_close
    (fun element => OrderDual.toDual (level.score element)), fun limit => ?_⟩
  rw [nearMisses, ← map_snd_close, ← List.map_mergeSort (f := Prod.snd) (fun _ _ _ _ => rfl),
    ← List.map_take, List.map_map]
  rfl

/-- There are at most as many near misses as candidates that do not fit. -/
theorem length_nearMisses_le (level : Level) (limit : Nat) :
    (level.nearMisses limit).length ≤
      min limit (level.candidates.length - level.fitting.length) := by
  rcases level.exists_isRanking_nearMisses with ⟨ranking, isRanking, nearMisses⟩
  rw [nearMisses, List.length_map, List.length_take, isRanking.perm.length_eq]
  exact le_min (min_le_left _ _) ((min_le_right _ _).trans level.length_close_le)

end Level

end Accessibility
