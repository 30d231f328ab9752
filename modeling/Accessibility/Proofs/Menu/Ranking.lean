import Accessibility.Proofs.Menu.Search
import Accessibility.Proofs.Ranking
import Accessibility.Proofs.Text.EditDistance
import Mathlib.Algebra.BigOperators.Group.Multiset.Basic
import Mathlib.Algebra.GroupWithZero.Nat
import Mathlib.Data.Prod.Lex
import Mathlib.Data.String.Basic

/-!
# The order of what a search finds

Both stages of a search sort the paths they find by a rank, of which the path itself is the last
part.  Different paths have different ranks, so that the order in which the menus list their paths
does not matter, and what is cut off at a limit comes after all that stays.  The points that rank
suggestions add up over all pairs of titles, whatever their order, and either path earns them for
the other.
-/

namespace Accessibility

namespace MenuPath

variable {query path : String} {paths : List String}

/-! ## The points of a path -/

/-- The points of a path for a query. -/
def likeness (query path : String) : Nat :=
  score (loweredTitles query) (loweredTitles path)

theorem total_eq_sum {α : Type} (points : α → Nat) (items : List α) :
    total points items = (items.map points).sum := by
  induction items with
  | nil => rfl
  | cons item items ih => rw [total, ih, List.map_cons, List.sum_cons]

theorem score_eq_sum_sum (titles others : List (List Char)) :
    score titles others =
      (titles.map fun title => (others.map (titleScore title)).sum).sum := by
  rw [score, total_eq_sum]
  simp only [total_eq_sum]

/-- The points of a path are those of all pairs of a title of the query and one of the path. -/
theorem score_eq_sum_product (titles others : List (List Char)) :
    score titles others =
      ((titles ×ˢ others).map fun pair => titleScore pair.1 pair.2).sum := by
  rw [score_eq_sum_sum]
  induction titles with
  | nil => rfl
  | cons title titles ih =>
      rw [List.product_cons, List.map_append, List.sum_append, ← ih, List.map_map, List.map_cons,
        List.sum_cons]
      rfl

theorem titleScore_comm (title other : List Char) :
    titleScore title other = titleScore other title := by
  rw [titleScore, titleScore, Bool.or_comm, Text.editDistance_comm title other]
  exact if_congr eq_comm rfl rfl

theorem score_comm (titles others : List (List Char)) :
    score titles others = score others titles := by
  have exchanged := Multiset.sum_map_sum_map (titles : Multiset (List Char))
    (others : Multiset (List Char)) (f := titleScore)
  simp only [Multiset.map_coe, Multiset.sum_coe] at exchanged
  rw [score_eq_sum_sum, score_eq_sum_sum, exchanged]
  simp only [titleScore_comm]

theorem score_eq_of_perm {titles reordered others othersReordered : List (List Char)}
    (perm : reordered.Perm titles) (othersPerm : othersReordered.Perm others) :
    score reordered othersReordered = score titles others := by
  rw [score_eq_sum_sum, (perm.map _).sum_eq, score_eq_sum_sum]
  simp only [(othersPerm.map _).sum_eq]

/-- The points of two titles, for whichever number is their distance. -/
theorem titleScore_eq {title other : List Char} {distance : Nat}
    (isDistance : Text.IsDistance title other distance) :
    titleScore title other =
      if title = other then 10 else if other <:+: title ∨ title <:+: other then 5
      else if distance ≤ 2 then 2 else 0 := by
  rw [titleScore, (Text.isDistance_editDistance title other).unique isDistance]
  simp only [Bool.or_eq_true, Text.occursIn_iff]

/-! ## The ranks of suggestions -/

/-- What paths with points are ordered by: more points first, then shorter ones, then by their
characters. -/
def scoredRank (candidate : Nat × String) : Natᵒᵈ ×ₗ Nat ×ₗ String :=
  toLex (OrderDual.toDual candidate.1, toLex (candidate.2.length, candidate.2))

/-- What suggestions for a query are ordered by. -/
def suggestionRank (query path : String) : Natᵒᵈ ×ₗ Nat ×ₗ String :=
  scoredRank (likeness query path, path)

theorem suggestionRank_injective (query : String) : Function.Injective (suggestionRank query) :=
  fun _ _ same => congrArg (fun rank => (ofLex (ofLex rank).2).2) same

theorem isLE_compareScored_iff (one other : Nat × String) :
    (compareScored one other).isLE = true ↔ scoredRank one ≤ scoredRank other := by
  simp only [compareScored, scoredRank, Ordering.isLE_then_iff_or, Prod.Lex.toLex_le_toLex,
    Nat.compare_eq_lt, Nat.compare_eq_eq, Std.LawfulBCmp.isLE_iff_le, OrderDual.toDual_lt_toDual,
    OrderDual.toDual_inj, @eq_comm _ other.1]

/-- The suggestions without a limit are a ranking of the paths that have points. -/
theorem isRanking_ranked (query : String) (paths : List String) :
    IsRanking (suggestionRank query) (paths.filter fun path => IsLike query path)
      (ranked query paths) := by
  let candidates := (paths.map fun path => (likeness query path, path)).filter
    fun candidate => 0 < candidate.1
  have sorted := isRanking_mergeSort isLE_compareScored_iff candidates
  have ownPoints : ∀ candidate ∈ candidates,
      suggestionRank query candidate.2 = scoredRank candidate := by
    intro candidate member
    rcases List.mem_map.mp (List.mem_of_mem_filter member) with ⟨path, _, rfl⟩
    rfl
  have paths_eq : candidates.map Prod.snd = paths.filter fun path => IsLike query path := by
    simp only [candidates, List.filter_map, List.map_map, Function.comp_def, List.map_id']
    rfl
  rw [← paths_eq]
  exact sorted.map ownPoints

theorem suggestions_eq_of_perm {reordered : List String} (perm : reordered.Perm paths)
    (query : String) (limit : Nat) :
    suggestions query reordered limit = suggestions query paths limit := by
  rw [suggestions_eq, suggestions_eq]
  have same := (isRanking_ranked query paths).unique (suggestionRank_injective query)
    (perm.filter _) (isRanking_ranked query reordered)
  rw [same]

theorem length_suggestions (query : String) (paths : List String) (limit : Nat) :
    (suggestions query paths limit).length =
      min limit (paths.countP fun path => 0 < likeness query path) := by
  rw [suggestions_eq, List.length_take, (isRanking_ranked query paths).perm.length_eq,
    List.countP_eq_length_filter]
  rfl

/-! ## The ranks of partial matches -/

/-- What partial matches of a query are ordered by: paths that begin with it first, then shorter
ones, then by their characters. -/
def partialRank (query path : String) : Bool ×ₗ Nat ×ₗ String :=
  toLex (!(lowered query).isPrefixOf (lowered path), toLex (path.length, path))

theorem partialRank_injective (query : String) : Function.Injective (partialRank query) :=
  fun _ _ same => congrArg (fun rank => (ofLex (ofLex rank).2).2) same

theorem isLE_comparePartial_iff (query one other : String) :
    (comparePartial (lowered query) one other).isLE = true ↔
      partialRank query one ≤ partialRank query other := by
  simp only [comparePartial, partialRank, Ordering.isLE_then_iff_or, Prod.Lex.toLex_le_toLex,
    compare_lt_iff_lt, compare_eq_iff_eq, Std.LawfulBCmp.isLE_iff_le]

/-- The partial matches are a ranking of the paths that contain the query in some case. -/
theorem isRanking_partialMatches (query : String) (paths : List String) :
    IsRanking (partialRank query) (paths.filter fun path => IsPartOf query path)
      (partialMatches query paths) := by
  have sameParts : (paths.filter fun path => Text.occursIn (lowered query) (lowered path)) =
      paths.filter fun path => IsPartOf query path := by
    apply List.filter_congr
    intro path _
    rw [Bool.eq_iff_iff, Text.occursIn_iff, decide_eq_true_eq, IsPartOf]
  rw [← sameParts]
  exact isRanking_mergeSort (isLE_comparePartial_iff query) _

theorem partialMatches_eq_of_perm {reordered : List String} (perm : reordered.Perm paths)
    (query : String) : partialMatches query reordered = partialMatches query paths :=
  (isRanking_partialMatches query paths).unique (partialRank_injective query) (perm.filter _)
    (isRanking_partialMatches query reordered)

/-! ## What a search finds -/

/-- The suggestions for a query are the first paths of a ranking of all those with points, and its
partial matches are a ranking of all paths that contain it in some case.  Nothing depends on the
order of the paths, or for the points on the order of the titles, and the points are the same from
the path to the query. -/
theorem suggestions_partialMatches_ranked (query : String) (paths : List String) :
    (∃ ranking,
        IsRanking (suggestionRank query) (paths.filter fun path => 0 < likeness query path)
          ranking ∧
        ∀ limit, suggestions query paths limit = ranking.take limit) ∧
      (∀ limit, (suggestions query paths limit).length =
        min limit (paths.countP fun path => 0 < likeness query path)) ∧
      (∀ limit, ∀ path ∈ paths, 0 < likeness query path →
        ∀ found ∈ suggestions query paths limit,
          path ∈ suggestions query paths limit ∨
            suggestionRank query found < suggestionRank query path) ∧
      (∀ limit larger, limit ≤ larger →
        suggestions query paths limit <+: suggestions query paths larger) ∧
      IsRanking (partialRank query) (paths.filter fun path => lowered query <:+: lowered path)
        (partialMatches query paths) ∧
      (∀ reordered, reordered.Perm paths →
        partialMatches query reordered = partialMatches query paths ∧
          ∀ limit, suggestions query reordered limit = suggestions query paths limit) ∧
      ∀ path,
        likeness query path = ((loweredTitles query ×ˢ loweredTitles path).map fun pair =>
          titleScore pair.1 pair.2).sum ∧
        (∀ title other distance, Text.IsDistance title other distance →
          titleScore title other =
            if title = other then 10 else if other <:+: title ∨ title <:+: other then 5
            else if distance ≤ 2 then 2 else 0) ∧
        likeness path query = likeness query path ∧
        ∀ otherQuery otherPath, (components otherQuery).Perm (components query) →
          (components otherPath).Perm (components path) →
          likeness otherQuery otherPath = likeness query path := by
  have ranking := isRanking_ranked query paths
  refine ⟨⟨_, ranking, suggestions_eq query paths⟩, length_suggestions query paths, ?_, ?_,
    isRanking_partialMatches query paths, ?_, ?_⟩
  · intro limit path member like found stays
    rw [suggestions_eq] at stays ⊢
    have isCandidate : path ∈ paths.filter fun path => IsLike query path :=
      List.mem_filter.mpr ⟨member, decide_eq_true like⟩
    exact ranking.lt_of_cut_off (suggestionRank_injective query) isCandidate stays
  · intro limit larger fewer
    rw [suggestions_eq, suggestions_eq]
    exact List.take_prefix_take_left fewer
  · intro reordered perm
    exact ⟨partialMatches_eq_of_perm perm query, suggestions_eq_of_perm perm query⟩
  · intro path
    refine ⟨score_eq_sum_product _ _, fun _ _ _ => titleScore_eq, score_comm _ _, ?_⟩
    intro otherQuery otherPath perm otherPerm
    exact score_eq_of_perm (perm.map lowered) (otherPerm.map lowered)

theorem suggestions_partialMatches_ranked_exchanged :
    let paths := ["File > Save As", "File > Save"]
    paths.reverse.Perm paths ∧
      suggestions "File > Sve" paths.reverse 1 = suggestions "File > Sve" paths 1 ∧
      suggestions "File > Sve" paths 1 <+: suggestions "File > Sve" paths 2 ∧
      (components "Sve > File").Perm (components "File > Sve") ∧
      likeness "Sve > File" "Save > File" = likeness "File > Sve" "File > Save" ∧
      Text.IsDistance "sve".toList "save".toList 1 ∧
      titleScore "sve".toList "save".toList = 2 := by
  intro paths
  have ranked := suggestions_partialMatches_ranked "File > Sve" paths
  have perm : paths.reverse.Perm paths := List.reverse_perm paths
  have titlesPerm : (components "Sve > File").Perm (components "File > Sve") := by
    decide +kernel
  have otherPerm : (components "Save > File").Perm (components "File > Save") := by
    decide +kernel
  have distance : Text.editDistance "sve".toList "save".toList = 1 := by decide +kernel
  have isDistance := Text.isDistance_editDistance "sve".toList "save".toList
  rw [distance] at isDistance
  rcases ranked with ⟨_, _, _, cut, _, reorder, points⟩
  rcases points "File > Save" with ⟨_, pair, _, exchange⟩
  refine ⟨perm, (reorder _ perm).2 1, cut 1 2 (by decide), titlesPerm,
    exchange _ _ titlesPerm otherPerm, isDistance, ?_⟩
  rw [pair _ _ _ isDistance]
  decide +kernel

end MenuPath

end Accessibility
