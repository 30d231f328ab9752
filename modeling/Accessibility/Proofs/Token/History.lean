import Accessibility.Proofs.Token.Order
import Accessibility.Proofs.Token.Runs
import Mathlib.Data.List.Dedup
import Mathlib.Data.List.Induction

/-!
# Tokens and the uses of paths

The answers of the cache of identifiers are explained by what it was asked before, as long as no
identifier is drawn twice.  The paths that live are those used last, as many as there is room for;
a live path has the identifier that was last handed out for it, and an identifier that was handed
out for a path never leads to another one.
-/

namespace Accessibility

open Std

/-! ## The latest uses -/

namespace TokenOperation

/-- Whether an operation forgets all pairs. -/
def isClear : TokenOperation → Bool
  | .clear => true
  | _ => false

/-- The path that an operation with its answer has used: a path is used when its identifier is asked
for, and when its identifier or token leads to it. -/
def used? : TokenOperation × TokenAnswer → Option String
  | (.obtain path, _) => some path
  | (_, .resolved (.ok path)) => some path
  | _ => none

/-- The paths used since all pairs were last forgotten, each time they were, in the order of
use. -/
def usesSinceClear (history : List (TokenOperation × TokenAnswer)) : List String :=
  (history.reverse.takeWhile fun event => !event.1.isClear).reverse.filterMap used?

/-- The different paths used since all pairs were last forgotten, the last used one first. -/
def recentPaths (history : List (TokenOperation × TokenAnswer)) : List String :=
  (usesSinceClear history).dedup.reverse

/-- The path and the identifier that was handed out for it by an operation with its answer. -/
def issued? : TokenOperation × TokenAnswer → Option (String × OpaqueId)
  | (.obtain path, .obtained id) => some (path, id)
  | _ => none

/-- All identifiers that were handed out, each with its path, the first one first. -/
def issued (history : List (TokenOperation × TokenAnswer)) : List (String × OpaqueId) :=
  history.filterMap issued?

/-- The identifier that was last handed out for a path. -/
def lastIssued? (path : String) (history : List (TokenOperation × TokenAnswer)) :
    Option OpaqueId :=
  (issued history).reverse.lookup path

variable {history : List (TokenOperation × TokenAnswer)} {event : TokenOperation × TokenAnswer}
  {path other : String} {id : OpaqueId}

/-- Of several equal elements only the last one counts, so that a new last one removes those
before. -/
theorem dedup_concat {α : Type} [DecidableEq α] (items : List α) (last : α) :
    (items ++ [last]).dedup = items.dedup.filter (· ≠ last) ++ [last] := by
  induction items with
  | nil => rfl
  | cons item items ih =>
      rw [List.cons_append]
      by_cases later : item ∈ items
      · rw [List.dedup_cons_of_mem (List.mem_append_left _ later), List.dedup_cons_of_mem later, ih]
      · rw [List.dedup_cons_of_notMem later, List.filter_cons]
        by_cases isLast : item = last
        · have member : item ∈ items ++ [last] := by simp [isLast]
          rw [List.dedup_cons_of_mem member, ih, if_neg (by simp [isLast])]
        · have notMember : item ∉ items ++ [last] := by simp [later, isLast]
          rw [List.dedup_cons_of_notMem notMember, ih, if_pos (by simp [isLast]), List.cons_append]

theorem recentPaths_of_isClear (clears : event.1.isClear = true) :
    recentPaths (history ++ [event]) = [] := by
  simp [recentPaths, usesSinceClear, clears]

theorem usesSinceClear_concat (goesOn : event.1.isClear = false) :
    usesSinceClear (history ++ [event]) = usesSinceClear history ++ (used? event).toList := by
  rw [usesSinceClear, List.reverse_concat, List.takeWhile_cons, if_pos (by simp [goesOn]),
    List.reverse_cons, List.filterMap_append, List.filterMap_cons, usesSinceClear]
  cases used? event <;> rfl

theorem recentPaths_of_unused (goesOn : event.1.isClear = false) (unused : used? event = none) :
    recentPaths (history ++ [event]) = recentPaths history := by
  rw [recentPaths, usesSinceClear_concat goesOn, unused, Option.toList_none, List.append_nil,
    recentPaths]

/-- A use moves a path to the front. -/
theorem recentPaths_of_used (goesOn : event.1.isClear = false) (used : used? event = some path) :
    recentPaths (history ++ [event]) = path :: (recentPaths history).filter (· ≠ path) := by
  rw [recentPaths, usesSinceClear_concat goesOn, used, Option.toList_some, dedup_concat,
    List.reverse_append, List.reverse_singleton, List.singleton_append, ← List.filter_reverse,
    recentPaths]

theorem nodup_recentPaths (history : List (TokenOperation × TokenAnswer)) :
    (recentPaths history).Nodup :=
  List.nodup_reverse.mpr (List.nodup_dedup _)

theorem issued_of_unissued (unissued : issued? event = none) :
    issued (history ++ [event]) = issued history := by
  rw [issued, List.filterMap_append, List.filterMap_cons_none unissued, List.filterMap_nil,
    List.append_nil, issued]

theorem issued_of_issued (handedOut : issued? event = some (path, id)) :
    issued (history ++ [event]) = issued history ++ [(path, id)] := by
  rw [issued, List.filterMap_append, List.filterMap_cons_some handedOut, List.filterMap_nil, issued]

theorem lastIssued?_of_unissued (unissued : issued? event = none) :
    lastIssued? other (history ++ [event]) = lastIssued? other history := by
  rw [lastIssued?, issued_of_unissued unissued, lastIssued?]

theorem lastIssued?_of_issued (handedOut : issued? event = some (path, id)) :
    lastIssued? other (history ++ [event]) =
      if other = path then some id else lastIssued? other history := by
  rw [lastIssued?, issued_of_issued handedOut, List.reverse_append, List.reverse_singleton,
    List.singleton_append, List.lookup_cons, lastIssued?]
  by_cases same : other = path
  · simp [same]
  · rw [if_neg same, beq_false_of_ne same]

theorem mem_issued_of_lastIssued? (last : lastIssued? path history = some id) :
    (path, id) ∈ issued history := by
  rw [lastIssued?, List.lookup_eq_some_iff] at last
  rcases last with ⟨front, back, split, _⟩
  rw [← List.mem_reverse, split]
  exact List.mem_append_right _ List.mem_cons_self

theorem take_filter_ne_of_mem {α : Type} [DecidableEq α] {items : List α} {item : α} {count : Nat}
    (distinct : items.Nodup) (member : item ∈ items.take (count + 1)) :
    (items.filter (· ≠ item)).take count = (items.take (count + 1)).filter (· ≠ item) := by
  induction items generalizing count with
  | nil => simp
  | cons head items ih =>
      rcases List.nodup_cons.mp distinct with ⟨apart, distinctTail⟩
      rw [List.take_succ_cons] at member ⊢
      by_cases isHead : head = item
      · have unchanged : items.filter (· ≠ item) = items := by
          rw [List.filter_eq_self]
          rintro other otherMember
          apply decide_eq_true
          rintro rfl
          exact apart (isHead ▸ otherMember)
        have unchangedTake : (items.take count).filter (· ≠ item) = items.take count := by
          rw [List.filter_eq_self] at unchanged ⊢
          exact fun other otherMember => unchanged other (List.mem_of_mem_take otherMember)
        rw [List.filter_cons_of_neg (by simp [isHead]), List.filter_cons_of_neg (by simp [isHead]),
          unchanged, unchangedTake]
      · have inTail := (List.mem_cons.mp member).resolve_left (Ne.symm isHead)
        rw [List.filter_cons_of_pos (by simp [isHead]), List.filter_cons_of_pos (by simp [isHead])]
        cases count with
        | zero => contradiction
        | succ count => rw [List.take_succ_cons, ih distinctTail inTail]

theorem take_filter_ne_of_not_mem {α : Type} [DecidableEq α] {items : List α} {item : α}
    {count : Nat} (notMember : item ∉ items.take (count + 1)) :
    (items.filter (· ≠ item)).take count = items.take count := by
  induction items generalizing count with
  | nil => rfl
  | cons head items ih =>
      rw [List.take_succ_cons, List.mem_cons, not_or] at notMember
      rw [List.filter_cons_of_pos (by simpa using Ne.symm notMember.1)]
      cases count with
      | zero => rfl
      | succ count => rw [List.take_succ_cons, List.take_succ_cons, ih notMember.2]

/-- A path among the latest ones moves to their front when it is used. -/
theorem take_recentPaths_of_recent {count : Nat} (goesOn : event.1.isClear = false)
    (used : used? event = some path) (isRecent : path ∈ (recentPaths history).take count) :
    (recentPaths (history ++ [event])).take count =
      path :: ((recentPaths history).take count).filter (· ≠ path) := by
  rw [recentPaths_of_used goesOn used]
  cases count with
  | zero => contradiction
  | succ count =>
      rw [List.take_succ_cons, take_filter_ne_of_mem (nodup_recentPaths history) isRecent]

/-- Any other path that is used takes the place of the last one of the latest. -/
theorem take_recentPaths_of_new {count : Nat} (goesOn : event.1.isClear = false)
    (used : used? event = some path) (isNew : path ∉ (recentPaths history).take (count + 1)) :
    (recentPaths (history ++ [event])).take (count + 1) =
      path :: (recentPaths history).take count := by
  rw [recentPaths_of_used goesOn used, List.take_succ_cons, take_filter_ne_of_not_mem isNew]

/-- Nothing changes if the last identifier of a path is handed out for it once more. -/
theorem lastIssued?_of_reissued (last : lastIssued? path history = some id)
    (handedOut : issued? event = none ∨ issued? event = some (path, id)) (other : String) :
    lastIssued? other (history ++ [event]) = lastIssued? other history := by
  rcases handedOut with unissued | handedOut
  · exact lastIssued?_of_unissued unissued
  · rw [lastIssued?_of_issued handedOut]
    split
    · rename_i isPath
      rw [isPath, last]
    · rfl

theorem mem_issued_of_reissued (last : lastIssued? path history = some id)
    (handedOut : issued? event = none ∨ issued? event = some (path, id))
    {pair : String × OpaqueId} :
    pair ∈ issued (history ++ [event]) ↔ pair ∈ issued history := by
  rcases handedOut with unissued | handedOut
  · rw [issued_of_unissued unissued]
  · rw [issued_of_issued handedOut, List.mem_append, List.mem_singleton]
    apply or_iff_left_of_imp
    rintro rfl
    exact mem_issued_of_lastIssued? last

end TokenOperation

namespace TokenCache

open TokenOperation (used? isClear issued? issued lastIssued? recentPaths)

variable {cache next : TokenCache} {pairs : List (String × OpaqueId)} {path : String}
  {id : OpaqueId} {draws rest : List OpaqueId} {history : List (TokenOperation × TokenAnswer)}
  {event : TokenOperation × TokenAnswer}

/-! ## Single operations -/

/-- What an operation with its answer does to a cache and the draws to come. -/
inductive Performs (cache : TokenCache) (draws : List OpaqueId) :
    TokenOperation × TokenAnswer → List OpaqueId → TokenCache → Prop
  /-- A live pair is used, and perhaps its identifier is handed out again. -/
  | use {event : TokenOperation × TokenAnswer} {path : String} {id : OpaqueId}
      (pair : cache.pathToId[path]? = some id) (goesOn : event.1.isClear = false)
      (used : used? event = some path)
      (handedOut : issued? event = none ∨ issued? event = some (path, id)) :
      Performs cache draws event draws (cache.use id)
  /-- A new path is bound to an unused draw. -/
  | bind {path : String} {id : OpaqueId} {rest : List OpaqueId}
      (isNew : path ∉ cache.pathToId)
      (found : cache.makeRoom.firstUnused? draws = some (id, rest)) :
      Performs cache draws (.obtain path, .obtained id) rest (cache.makeRoom.bind path id)
  /-- Nothing is found, and nothing changes. -/
  | fail {event : TokenOperation × TokenAnswer} (goesOn : event.1.isClear = false)
      (unused : used? event = none) (unissued : issued? event = none) :
      Performs cache draws event draws cache
  | clear : Performs cache draws (.clear, .cleared) draws cache.clear

/-- Reading an identifier uses its pair or fails. -/
theorem performs_resolve (bijection : cache.IsBijection) (id : OpaqueId)
    {operation : TokenOperation} (goesOn : operation.isClear = false)
    (reads : ∀ path, operation ≠ .obtain path) :
    Performs cache draws (operation, .resolved (cache.resolve id).1) draws
      (cache.resolve id).2 := by
  have unissued (result : Except TokenError String) :
      issued? (operation, .resolved result) = none := by
    cases operation <;> rfl
  rw [bijection.resolve_eq]
  cases pair : cache.idToPath[id]? with
  | none =>
      apply Performs.fail goesOn _ (unissued _)
      cases operation with
      | obtain path => exact absurd rfl (reads path)
      | resolve | decode | clear => rfl
  | some path =>
      apply Performs.use ((bijection.inverse path id).mpr pair) goesOn _ (Or.inl (unissued _))
      cases operation with
      | obtain path => exact absurd rfl (reads path)
      | resolve | decode | clear => rfl

theorem performs_of_perform? (bijection : cache.IsBijection) {operation : TokenOperation}
    {answer : TokenAnswer}
    (performed : cache.perform? operation draws = some (answer, rest, next)) :
    Performs cache draws (operation, answer) rest next := by
  cases operation with
  | obtain path =>
      simp only [perform?, Option.map_eq_some_iff, Prod.exists, Prod.mk.injEq] at performed
      rcases performed with ⟨id, _, _, obtained, rfl, rfl, rfl⟩
      rw [obtain?] at obtained
      cases pair : cache.pathToId[path]? with
      | some known =>
          rw [pair] at obtained
          cases obtained
          exact .use pair rfl rfl (Or.inr rfl)
      | none =>
          rw [pair] at obtained
          rcases Option.map_eq_some_iff.mp obtained with ⟨⟨fresh, left⟩, found, same⟩
          cases same
          apply Performs.bind _ found
          rw [TreeMap.mem_iff_isSome_getElem?, pair]
          exact Bool.false_ne_true
  | resolve id =>
      simp only [perform?, Option.some.injEq, Prod.mk.injEq] at performed
      rcases performed with ⟨rfl, rfl, rfl⟩
      apply performs_resolve bijection id rfl
      intro path same
      cases same
  | decode token =>
      simp only [perform?, Option.some.injEq, Prod.mk.injEq] at performed
      rcases performed with ⟨rfl, rfl, rfl⟩
      rw [decode]
      cases OpaqueId.decode? token with
      | none => exact .fail rfl rfl rfl
      | some id =>
          apply performs_resolve bijection id rfl
          intro path same
          cases same
  | clear =>
      simp only [perform?, Option.some.injEq, Prod.mk.injEq] at performed
      rcases performed with ⟨rfl, rfl, rfl⟩
      exact .clear

/-- Whether a cache with its pairs in order, and the draws to come, are explained by what was asked
and answered. -/
structure Recalls (history : List (TokenOperation × TokenAnswer)) (draws : List OpaqueId)
    (cache : TokenCache) (pairs : List (String × OpaqueId)) : Prop where
  lists : cache.ListsPairs pairs
  /-- The paths used last are live. -/
  recent : pairs.map Prod.fst = (recentPaths history).take cache.capacity.size
  /-- A live path has the identifier last handed out for it. -/
  last : ∀ path id, (path, id) ∈ pairs → lastIssued? path history = some id
  /-- An identifier is handed out for one path only. -/
  onePath : ∀ path other id, (path, id) ∈ issued history → (other, id) ∈ issued history →
    other = path
  distinct : draws.Nodup
  unissued : ∀ path id, (path, id) ∈ issued history → id ∉ draws

theorem recalls_ofCapacity (size : Nat) (distinct : draws.Nodup) :
    Recalls [] draws (ofCapacity size) [] where
  lists := listsPairs_ofCapacity size
  recent := List.take_nil.symm
  last := fun _ _ => nofun
  onePath := fun _ _ _ => nofun
  distinct := distinct
  unissued := fun _ _ => nofun

namespace Recalls

theorem mem_issued (recalls : Recalls history draws cache pairs) (member : (path, id) ∈ pairs) :
    (path, id) ∈ issued history :=
  TokenOperation.mem_issued_of_lastIssued? (recalls.last path id member)

/-- A draw to come is in no pair. -/
theorem not_mem_idToPath_makeRoom (recalls : Recalls history draws cache pairs)
    (member : id ∈ draws) : id ∉ cache.makeRoom.idToPath := by
  rw [TreeMap.mem_iff_isSome_getElem?, Option.isSome_iff_exists]
  rintro ⟨path, pair⟩
  rw [recalls.lists.makeRoom.idToPath_eq_some_iff] at pair
  exact recalls.unissued path id (recalls.mem_issued (List.mem_of_mem_take pair)) member

/-- The next draw is taken for a new path. -/
theorem firstUnused?_makeRoom (recalls : Recalls history (id :: rest) cache pairs) :
    cache.makeRoom.firstUnused? (id :: rest) = some (id, rest) := by
  have unused := recalls.not_mem_idToPath_makeRoom List.mem_cons_self
  rw [firstUnused?, if_neg (by simpa using unused)]

/-- A use of a live pair is recalled. -/
theorem use (recalls : Recalls history draws cache pairs) (member : (path, id) ∈ pairs)
    (goesOn : event.1.isClear = false) (used : used? event = some path)
    (handedOut : issued? event = none ∨ issued? event = some (path, id)) :
    Recalls (history ++ [event]) draws (cache.use id)
      ((path, id) :: pairs.filter fun pair => pair.1 ≠ path) where
  lists := recalls.lists.use member
  recent := by
    have isRecent : path ∈ (recentPaths history).take cache.capacity.size := by
      rw [← recalls.recent]
      exact List.mem_map_of_mem member
    change _ = (recentPaths (history ++ [event])).take cache.capacity.size
    rw [TokenOperation.take_recentPaths_of_recent goesOn used isRecent, ← recalls.recent,
      List.filter_map]
    rfl
  last := by
    intro other otherId otherMember
    rw [TokenOperation.lastIssued?_of_reissued (recalls.last path id member) handedOut]
    rcases List.mem_cons.mp otherMember with same | behind
    · cases same
      exact recalls.last path id member
    · exact recalls.last other otherId (List.mem_of_mem_filter behind)
  onePath := by
    intro one other otherId
    rw [TokenOperation.mem_issued_of_reissued (recalls.last path id member) handedOut,
      TokenOperation.mem_issued_of_reissued (recalls.last path id member) handedOut]
    exact recalls.onePath one other otherId
  distinct := recalls.distinct
  unissued := by
    intro other otherId
    rw [TokenOperation.mem_issued_of_reissued (recalls.last path id member) handedOut]
    exact recalls.unissued other otherId

/-- A draw to come was not handed out for any path. -/
theorem not_mem_issued (recalls : Recalls history draws cache pairs) (member : id ∈ draws)
    (other : String) : (other, id) ∉ issued history :=
  fun handedOut => recalls.unissued other id handedOut member

/-- A new pair is recalled. -/
theorem bind (recalls : Recalls history (id :: rest) cache pairs) (isNew : path ∉ cache.pathToId) :
    Recalls (history ++ [(.obtain path, .obtained id)]) rest (cache.makeRoom.bind path id)
      ((path, id) :: pairs.take (cache.capacity.size - 1)) where
  lists := by
    apply recalls.lists.makeRoom.bind (recalls.lists.bijection.not_mem_makeRoom isNew)
      (recalls.not_mem_idToPath_makeRoom List.mem_cons_self)
    rw [recalls.lists.bijection.capacity_makeRoom]
    exact recalls.lists.bijection.size_makeRoom_lt
  recent := by
    have notRecent : path ∉ (recentPaths history).take cache.capacity.size := by
      rw [← recalls.recent, ← recalls.lists.mem_iff]
      exact isNew
    obtain ⟨count, size⟩ := Nat.exists_eq_add_one.mpr cache.capacity.size_pos
    change _ = (recentPaths (history ++ [_])).take cache.makeRoom.capacity.size
    rw [recalls.lists.bijection.capacity_makeRoom, List.map_cons, List.map_take, recalls.recent]
    rw [size] at notRecent ⊢
    rw [TokenOperation.take_recentPaths_of_new rfl rfl notRecent, Nat.add_sub_cancel,
      List.take_take, Nat.min_eq_left (Nat.le_succ count)]
  last := by
    intro other otherId otherMember
    rw [TokenOperation.lastIssued?_of_issued rfl]
    rcases List.mem_cons.mp otherMember with same | behind
    · cases same
      exact if_pos rfl
    · have known := List.mem_of_mem_take behind
      rw [if_neg]
      · exact recalls.last other otherId known
      · rintro rfl
        exact isNew (recalls.lists.mem_iff.mpr (List.mem_map_of_mem known))
  onePath := by
    intro one other otherId
    rw [TokenOperation.issued_of_issued rfl]
    simp only [List.mem_append, List.mem_singleton, Prod.mk.injEq]
    -- Only the new pair has the new identifier: the draw was never handed out before.
    rintro (earlier | ⟨rfl, rfl⟩) (otherEarlier | ⟨rfl, isFresh⟩)
    · exact recalls.onePath one other otherId earlier otherEarlier
    · exact absurd (isFresh ▸ earlier) (recalls.not_mem_issued List.mem_cons_self one)
    · exact absurd otherEarlier (recalls.not_mem_issued List.mem_cons_self other)
    · rfl
  distinct := (List.nodup_cons.mp recalls.distinct).2
  unissued := by
    intro other otherId
    rw [TokenOperation.issued_of_issued rfl, List.mem_append, List.mem_singleton, Prod.mk.injEq]
    rintro (earlier | ⟨_, rfl⟩)
    · exact fun member => recalls.unissued other otherId earlier (List.mem_cons_of_mem _ member)
    · exact (List.nodup_cons.mp recalls.distinct).1

/-- An operation that changes nothing is recalled. -/
theorem fail (recalls : Recalls history draws cache pairs) (goesOn : event.1.isClear = false)
    (unused : used? event = none) (unissued : issued? event = none) :
    Recalls (history ++ [event]) draws cache pairs where
  lists := recalls.lists
  recent := by
    rw [TokenOperation.recentPaths_of_unused goesOn unused]
    exact recalls.recent
  last := by
    intro path id
    rw [TokenOperation.lastIssued?_of_unissued unissued]
    exact recalls.last path id
  onePath := by
    rw [TokenOperation.issued_of_unissued unissued]
    exact recalls.onePath
  distinct := recalls.distinct
  unissued := by
    rw [TokenOperation.issued_of_unissued unissued]
    exact recalls.unissued

/-- Identifiers are still known as handed out after all pairs are forgotten. -/
theorem clear (recalls : Recalls history draws cache pairs) :
    Recalls (history ++ [(.clear, .cleared)]) draws cache.clear [] where
  lists := listsPairs_clear cache
  recent := by
    rw [TokenOperation.recentPaths_of_isClear rfl, List.take_nil, List.map_nil]
  last := fun _ _ => nofun
  onePath := by
    rw [TokenOperation.issued_of_unissued rfl]
    exact recalls.onePath
  distinct := recalls.distinct
  unissued := by
    rw [TokenOperation.issued_of_unissued rfl]
    exact recalls.unissued

/-- Every operation is recalled, and takes one draw at most. -/
theorem performs (recalls : Recalls history draws cache pairs)
    (performs : Performs cache draws event rest next) :
    (∃ pairs, Recalls (history ++ [event]) rest next pairs) ∧ draws.length ≤ rest.length + 1 := by
  cases performs with
  | use pair goesOn used handedOut =>
      have member := (recalls.lists.found _ _).mp pair
      exact ⟨⟨_, recalls.use member goesOn used handedOut⟩, Nat.le_succ _⟩
  | bind isNew found =>
      cases draws with
      | nil => contradiction
      | cons draw draws =>
          rw [recalls.firstUnused?_makeRoom] at found
          cases found
          exact ⟨⟨_, recalls.bind isNew⟩, Nat.le_refl _⟩
  | fail goesOn unused unissued =>
      exact ⟨⟨_, recalls.fail goesOn unused unissued⟩, Nat.le_succ _⟩
  | clear => exact ⟨⟨_, recalls.clear⟩, Nat.le_succ _⟩

/-- A live path keeps the identifier that was last handed out for it. -/
theorem obtain?_of_live (recalls : Recalls history draws cache pairs)
    (isLive : path ∈ cache.pathToId) :
    ∃ id, lastIssued? path history = some id ∧
      cache.obtain? path draws = some (id, draws, cache.use id) := by
  rw [recalls.lists.mem_iff, List.mem_map] at isLive
  rcases isLive with ⟨⟨_, id⟩, member, rfl⟩
  refine ⟨id, recalls.last _ id member, ?_⟩
  rw [obtain?, (recalls.lists.found _ id).mpr member]
  rfl

/-- Any other path gets the next draw. -/
theorem obtain?_of_new (recalls : Recalls history (id :: rest) cache pairs)
    (isNew : path ∉ cache.pathToId) :
    cache.obtain? path (id :: rest) = some (id, rest, cache.makeRoom.bind path id) := by
  rw [obtain?, TreeMap.getElem?_eq_none isNew]
  simp only [recalls.firstUnused?_makeRoom]
  rfl

theorem decode_eq_ok_iff (recalls : Recalls history draws cache pairs) {token : String} :
    (cache.decode token).1 = .ok path ↔
      path ∈ cache.pathToId ∧ ∃ id, lastIssued? path history = some id ∧ token = id.encode := by
  rw [recalls.lists.decode_eq_ok_iff, recalls.lists.mem_iff]
  constructor
  · rintro ⟨id, rfl, member⟩
    exact ⟨List.mem_map_of_mem member, id, recalls.last path id member, rfl⟩
  · rintro ⟨isLive, id, last, rfl⟩
    rcases List.mem_map.mp isLive with ⟨⟨_, known⟩, member, rfl⟩
    have same := (recalls.last _ known member).symm.trans last
    exact ⟨id, rfl, Option.some.inj same ▸ member⟩

/-- A run with enough draws comes to its end and is recalled. -/
theorem exists_run? (recalls : Recalls history draws cache pairs)
    (operations : List TokenOperation) (enough : operations.length < draws.length) :
    ∃ answers rest last, run? operations draws cache = some (answers, rest, last) ∧
      (∃ pairs, Recalls (history ++ operations.zip answers) rest last pairs) ∧
      last.capacity = cache.capacity ∧ 0 < rest.length := by
  induction operations generalizing history draws cache pairs with
  | nil =>
      refine ⟨[], draws, cache, rfl, ⟨pairs, ?_⟩, rfl, enough⟩
      rw [List.zip_nil_left, List.append_nil]
      exact recalls
  | cons operation later ih =>
      rw [List.length_cons] at enough
      -- The next draw is always an unused one, and an operation takes no more than this one.
      have progress : ∃ answer rest next,
          cache.perform? operation draws = some (answer, rest, next) := by
        apply exists_perform?
        intro path _ _
        rcases List.exists_mem_of_length_pos (Nat.zero_lt_of_lt enough) with ⟨draw, member⟩
        exact ⟨draw, member, recalls.not_mem_idToPath_makeRoom member⟩
      rcases progress with ⟨answer, rest, next, performed⟩
      have bijection := recalls.lists.bijection
      rcases recalls.performs (performs_of_perform? bijection performed) with
        ⟨⟨nextPairs, recallsNext⟩, atMostOne⟩
      rcases ih recallsNext (by omega) with
        ⟨answers, left, last, ran, recallsLast, capacity, someLeft⟩
      refine ⟨answer :: answers, left, last, ?_, ?_, ?_, someLeft⟩
      · simp [run?, performed, ran]
      · rw [List.zip_cons_cons]
        rw [List.append_assoc, List.singleton_append] at recallsLast
        exact recallsLast
      · exact capacity.trans (bijection.of_perform? performed).2.1

end Recalls

/-- Every operation of a run has its answer. -/
theorem length_of_run? {cache last : TokenCache} {operations : List TokenOperation}
    {answers : List TokenAnswer} {draws rest : List OpaqueId}
    (ran : run? operations draws cache = some (answers, rest, last)) :
    answers.length = operations.length := by
  induction operations generalizing draws cache answers with
  | nil =>
      cases ran
      rfl
  | cons operation later ih =>
      rw [run?] at ran
      cases performed : cache.perform? operation draws with
      | none => simp [performed] at ran
      | some result =>
          simp only [performed, Option.map_eq_some_iff, Prod.exists, Prod.mk.injEq] at ran
          rcases ran with ⟨answers, _, _, ranLater, rfl, rfl, rfl⟩
          rw [List.length_cons, List.length_cons, ih ranLater]

/-- As long as no identifier is drawn twice, the live paths are those used last, as many as there is
room for; a token leads to a path exactly if it was last handed out for it and the path is live, and
never to another path than the one it was handed out for; a live path keeps its token, and any other
gets a new one; and a token that leads nowhere leaves no trace. -/
theorem run?_recentPaths (size : Nat) (operations : List TokenOperation) (draws : List OpaqueId)
    (distinct : draws.Nodup) (enough : operations.length < draws.length) :
    ∃ answers rest cache,
      run? operations draws (ofCapacity size) = some (answers, rest, cache) ∧
      answers.length = operations.length ∧
      let history := operations.zip answers
      (∀ path, path ∈ cache.pathToId ↔ path ∈ (recentPaths history).take (max size 1)) ∧
      cache.size = min (max size 1) (recentPaths history).length ∧
      (∀ token path, (cache.decode token).1 = .ok path ↔
        path ∈ cache.pathToId ∧ ∃ id, lastIssued? path history = some id ∧ token = id.encode) ∧
      (∀ path id, (path, id) ∈ issued history →
        ∀ other, (cache.decode id.encode).1 = .ok other → other = path) ∧
      (∀ path, ∃ id left next, cache.obtain? path rest = some (id, left, next) ∧
        (path ∈ cache.pathToId → lastIssued? path history = some id) ∧
        (path ∉ cache.pathToId →
          ∀ other earlier, (other, earlier) ∈ issued history → earlier.encode ≠ id.encode)) ∧
      ∀ token error, (cache.decode token).1 = .error error → ∀ later more,
        run? (.decode token :: later) more cache =
          (run? later more cache).map fun (answers, rest, last) =>
            (.resolved (.error error) :: answers, rest, last) := by
  rcases (recalls_ofCapacity size distinct).exists_run? operations enough with
    ⟨answers, rest, cache, ran, ⟨pairs, recalls⟩, capacity, someLeft⟩
  rw [List.nil_append] at recalls
  have lists := recalls.lists
  have room : cache.capacity.size = max size 1 := by
    rw [capacity]
    rfl
  have recent := recalls.recent
  rw [room] at recent
  refine ⟨answers, rest, cache, ran, length_of_run? ran, ?_, ?_, ?_, ?_, ?_, ?_⟩
  · intro path
    rw [lists.mem_iff, recent]
  · rw [lists.size_eq, ← List.length_map (f := Prod.fst), recent, List.length_take]
  · exact fun _ _ => recalls.decode_eq_ok_iff
  · intro path id handedOut other leads
    rcases lists.decode_eq_ok_iff.mp leads with ⟨known, sameToken, member⟩
    obtain rfl := OpaqueId.encode_injective sameToken
    exact recalls.onePath path other id handedOut (recalls.mem_issued member)
  · intro path
    by_cases isLive : path ∈ cache.pathToId
    · rcases recalls.obtain?_of_live isLive with ⟨id, last, obtained⟩
      exact ⟨id, rest, _, obtained, fun _ => last, fun isNew => absurd isLive isNew⟩
    · cases rest with
      | nil => contradiction
      | cons draw left =>
          refine ⟨draw, left, _, recalls.obtain?_of_new isLive, fun live => absurd live isLive, ?_⟩
          intro _ other earlier handedOut sameToken
          rw [OpaqueId.encode_injective sameToken] at handedOut
          exact recalls.unissued other draw handedOut List.mem_cons_self
  · intro token error fails later more
    simp only [run?, perform?, lists.decode_of_error fails]

theorem run?_recentPaths_of_eviction :
    let operations : List TokenOperation := [.obtain "a", .obtain "b", .obtain "a", .obtain "c"]
    let draws := [OpaqueId.ofNat 7, .ofNat 8, .ofNat 9, .ofNat 10, .ofNat 11]
    draws.Nodup ∧ operations.length < draws.length ∧
      ∃ answers rest cache,
        run? operations draws (ofCapacity 2) = some (answers, rest, cache) ∧
        "a" ∈ cache.pathToId ∧ "b" ∉ cache.pathToId ∧ "c" ∈ cache.pathToId := by
  intro operations draws
  have distinct : draws.Nodup := by decide
  have enough : operations.length < draws.length := by decide
  rcases run?_recentPaths 2 operations draws distinct enough with
    ⟨answers, rest, cache, ran, complete, live, _⟩
  have recent : recentPaths (operations.zip answers) = ["c", "a", "b"] := by
    rcases List.length_eq_four.mp complete with ⟨_, _, _, _, rfl⟩
    rfl
  rw [recent] at live
  exact ⟨distinct, enough, answers, rest, cache, ran, by simp [live]⟩

end TokenCache

end Accessibility
