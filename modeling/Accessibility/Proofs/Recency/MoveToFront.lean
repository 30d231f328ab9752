import Accessibility.Proofs.Recency

/-!
# Recency and moving to the front

A recency order and a plain list of keys are asked the same things.  The list moves a used key to
its front, deletes a forgotten one and gives up its last key as the oldest.  Both give up the same
keys, and the keys of the recency order are always those of the list.
-/

namespace Accessibility

universe u v

/-- What a recency order is asked to do. -/
inductive RecencyOperation (κ : Type u) where
  | touch (key : κ)
  | remove (key : κ)
  | popOldest
  | clear

namespace RecencyOperation

variable {κ : Type u}

/-- Whether the operation is a use. -/
def isTouch : RecencyOperation κ → Bool
  | .touch _ => true
  | _ => false

/-- Performs an operation on a list of keys, the most recently used one first, and returns the
oldest key if it was asked for. -/
def performOnList [DecidableEq κ] : RecencyOperation κ → List κ → Option κ × List κ
  | .touch key, keys => (none, key :: keys.erase key)
  | .remove key, keys => (none, keys.erase key)
  | .popOldest, keys => (keys.getLast?, keys.dropLast)
  | .clear, _ => (none, [])

/-- The answers to a sequence of operations, and the state after it. -/
def run {σ : Type v} (perform : RecencyOperation κ → σ → Option κ × σ) :
    List (RecencyOperation κ) → σ → List (Option κ) × σ
  | [], state => ([], state)
  | operation :: rest, state =>
      let (answer, next) := perform operation state
      let (answers, last) := run perform rest next
      (answer :: answers, last)

end RecencyOperation

namespace Recency

open Std

variable {κ : Type u} [Ord κ] {recency : Recency κ}

/-- Performs an operation and returns the oldest key if it was asked for. -/
def perform : RecencyOperation κ → Recency κ → Option κ × Recency κ
  | .touch key, recency => (none, recency.touch key)
  | .remove key, recency => (none, recency.remove key)
  | .popOldest, recency =>
      match recency.popOldest? with
      | some (oldest, rest) => (some oldest, rest)
      | none => (none, recency)
  | .clear, recency => (none, recency.clear)

/-- Only a use takes a tick. -/
theorem nextTick_perform (operation : RecencyOperation κ) (recency : Recency κ) :
    (recency.perform operation).2.nextTick =
      recency.nextTick + if operation.isTouch then 1 else 0 := by
  cases operation with
  | touch | clear => rfl
  | remove key => exact nextTick_remove recency key
  | popOldest =>
      simp only [perform, popOldest?]
      cases recency.order.minEntry? <;> rfl

/-- The next tick is the number of uses. -/
theorem nextTick_run (operations : List (RecencyOperation κ)) (recency : Recency κ) :
    (RecencyOperation.run perform operations recency).2.nextTick =
      recency.nextTick + operations.countP RecencyOperation.isTouch := by
  induction operations generalizing recency with
  | nil => rfl
  | cons operation rest ih =>
      rw [RecencyOperation.run, ih, nextTick_perform, List.countP_cons, Nat.add_assoc,
        Nat.add_comm (List.countP _ rest)]

section Orders

variable [TransOrd κ] [LawfulEqOrd κ]

/-- There are as many keys as are listed. -/
theorem size_eq_length (consistent : recency.IsConsistent) :
    recency.size = recency.newestFirst.length :=
  OrderedMap.size_eq_length (nodup_newestFirst consistent)
    fun _ => (mem_newestFirst_iff consistent).symm

end Orders

variable [DecidableEq κ]

theorem newestFirst_remove_eq_erase (consistent : recency.IsConsistent) (key : κ) :
    (recency.remove key).newestFirst = recency.newestFirst.erase key := by
  rw [newestFirst_remove consistent, (nodup_newestFirst consistent).erase_eq_filter]
  exact List.filter_congr fun other _ => decide_not

variable [TransOrd κ] [LawfulEqOrd κ]

theorem newestFirst_touch_eq_cons_erase (consistent : recency.IsConsistent) (key : κ) :
    (recency.touch key).newestFirst = key :: recency.newestFirst.erase key := by
  rw [newestFirst_touch consistent, ← newestFirst_remove consistent,
    newestFirst_remove_eq_erase consistent]

/-- A use leaves the ticks of all other keys, and no other key is found at its own tick before. -/
theorem touch_keeps_others (consistent : recency.IsConsistent) {key other : κ}
    (isOther : other ≠ key) (tick : Nat) :
    (recency.touch key).ticks[other]? = recency.ticks[other]? ∧
      ((recency.touch key).order[tick]? = some other ↔ recency.order[tick]? = some other) := by
  have kept : (recency.touch key).ticks[other]? = recency.ticks[other]? := by
    rw [ticks_touch, OrderedMap.getElem?_insert_eq, if_neg isOther, ticks_remove, if_neg isOther]
  refine ⟨kept, ?_⟩
  rw [← (consistent.touch key).inverse, kept, consistent.inverse]

/-- The oldest key is the last of the list, which is left without it. -/
theorem perform_popOldest (consistent : recency.IsConsistent) :
    (recency.perform .popOldest).1 = recency.newestFirst.getLast? ∧
      (recency.perform .popOldest).2.newestFirst = recency.newestFirst.dropLast ∧
      (recency.perform .popOldest).2.IsConsistent := by
  rw [perform, popOldest?_eq consistent]
  rcases recency.newestFirst.eq_nil_or_concat with isEmpty | ⟨front, oldest, split⟩
  · rw [isEmpty]
    exact ⟨rfl, isEmpty, consistent⟩
  · have distinct := nodup_newestFirst consistent
    have removed := newestFirst_remove_eq_erase consistent oldest
    rw [List.concat_eq_append] at split
    rw [split, List.nodup_append] at distinct
    have notFront : oldest ∉ front := fun member =>
      distinct.2.2 oldest member oldest (List.mem_singleton_self oldest) rfl
    rw [split, List.erase_append_right _ notFront, List.erase_cons_head, List.append_nil]
      at removed
    rw [split, List.getLast?_concat, List.dropLast_concat]
    exact ⟨rfl, removed, consistent.remove oldest⟩

/-- An operation does to the listed keys what it does to a list. -/
theorem IsConsistent.perform (consistent : recency.IsConsistent)
    (operation : RecencyOperation κ) :
    (recency.perform operation).2.IsConsistent ∧
      (recency.perform operation).1 = (operation.performOnList recency.newestFirst).1 ∧
      (recency.perform operation).2.newestFirst =
        (operation.performOnList recency.newestFirst).2 := by
  cases operation with
  | touch key =>
      exact ⟨consistent.touch key, rfl, newestFirst_touch_eq_cons_erase consistent key⟩
  | remove key =>
      exact ⟨consistent.remove key, rfl, newestFirst_remove_eq_erase consistent key⟩
  | popOldest =>
      rcases perform_popOldest consistent with ⟨oldest, rest, consistentRest⟩
      exact ⟨consistentRest, oldest, rest⟩
  | clear => exact ⟨isConsistent_clear recency, rfl, newestFirst_clear recency⟩

/-- A sequence of operations does to the listed keys what it does to a list. -/
theorem IsConsistent.run (consistent : recency.IsConsistent)
    (operations : List (RecencyOperation κ)) :
    let ran := RecencyOperation.run Recency.perform operations recency
    let kept := RecencyOperation.run RecencyOperation.performOnList operations recency.newestFirst
    ran.2.IsConsistent ∧ ran.1 = kept.1 ∧ ran.2.newestFirst = kept.2 := by
  induction operations generalizing recency with
  | nil => exact ⟨consistent, rfl, rfl⟩
  | cons operation rest ih =>
      rcases consistent.perform operation with ⟨next, answer, listed⟩
      rcases ih next with ⟨last, answers, listedLast⟩
      rw [listed] at answers listedLast
      exact ⟨last, congrArg₂ List.cons answer answers, listedLast⟩

/-- However an empty recency order is used, it is a list that a use moves a key to the front of: it
gives up the same keys and has the same keys in the same order.  Keys and ticks lead to each other,
every tick is below the next one, and a use takes the tick of no other key.  The next tick is the
number of uses, so that it fits 64 bits as long as there are fewer than `2 ^ 64` of them. -/
theorem run_eq_moveToFront (operations : List (RecencyOperation κ)) :
    let ran := RecencyOperation.run perform operations ({} : Recency κ)
    let kept := RecencyOperation.run RecencyOperation.performOnList operations ([] : List κ)
    ran.1 = kept.1 ∧ ran.2.newestFirst = kept.2 ∧ kept.2.Nodup ∧
      ran.2.popOldest?.map Prod.fst = kept.2.getLast? ∧ ran.2.size = kept.2.length ∧
      (∀ (key : κ) (tick : Nat), ran.2.ticks[key]? = some tick ↔ ran.2.order[tick]? = some key) ∧
      (∀ tick ∈ ran.2.order, tick < ran.2.nextTick) ∧
      ran.2.nextTick = operations.countP RecencyOperation.isTouch ∧
      ∀ (key other : κ) (tick : Nat), other ≠ key →
        (ran.2.touch key).ticks[other]? = ran.2.ticks[other]? ∧
          ((ran.2.touch key).order[tick]? = some other ↔ ran.2.order[tick]? = some other) := by
  intro ran kept
  rcases isConsistent_empty.run operations with ⟨consistent, answers, listed⟩
  have listed : ran.2.newestFirst = kept.2 := listed
  have oldest : ran.2.popOldest?.map Prod.fst = ran.2.newestFirst.getLast? := by
    rw [popOldest?_eq consistent, Option.map_map]
    exact Option.map_id'
  refine ⟨answers, listed, ?_, ?_, ?_, consistent.inverse, consistent.past, ?_, ?_⟩
  · rw [← listed]
    exact nodup_newestFirst consistent
  · rw [oldest, listed]
  · rw [size_eq_length consistent, listed]
  · exact (nextTick_run operations {}).trans (Nat.zero_add _)
  · intro key other tick isOther
    exact touch_keeps_others consistent isOther tick

theorem run_eq_moveToFront_of_second_use :
    let operations : List (RecencyOperation Nat) :=
      [.touch 10, .touch 20, .touch 10, .popOldest, .touch 30, .remove 20]
    let ran := RecencyOperation.run perform operations {}
    ran.1 = [none, none, none, some 20, none, none] ∧ ran.2.newestFirst = [30, 10] ∧
      ran.2.nextTick = 4 ∧
      (∃ tick, ran.2.ticks[10]? = some tick ∧ tick ∈ ran.2.order ∧ tick < ran.2.nextTick) ∧
      10 ≠ 30 ∧ (ran.2.touch 30).ticks[10]? = ran.2.ticks[10]? := by
  intro operations ran
  rcases run_eq_moveToFront operations with
    ⟨answers, listed, _, _, _, inverse, past, uses, leavesOthers⟩
  have isListed : 10 ∈ ran.2.newestFirst := by
    rw [listed]
    decide
  have isKey : 10 ∈ ran.2.ticks :=
    (mem_newestFirst_iff (isConsistent_empty.run operations).1).mp isListed
  obtain ⟨tick, isTick⟩ := Option.isSome_iff_exists.mp (TreeMap.mem_iff_isSome_getElem?.mp isKey)
  have stamped : tick ∈ ran.2.order :=
    TreeMap.mem_iff_isSome_getElem?.mpr (Option.isSome_of_eq_some ((inverse 10 tick).mp isTick))
  have isOther : 10 ≠ 30 := by decide
  exact ⟨answers, listed, uses, ⟨tick, isTick, stamped, past tick stamped⟩, isOther,
    (leavesOthers 30 10 tick isOther).1⟩

end Recency

end Accessibility
