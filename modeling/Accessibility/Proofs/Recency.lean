import Accessibility.Proofs.OrderedMap
import Accessibility.Recency
import Mathlib.Data.List.Nodup

/-!
# Recency as a list

The two maps of a recency order are inverse to each other, and every use takes a tick behind all
earlier ones.  The keys from the most recently used one on are therefore a list without repetition,
of which a use moves a key to the front and a removal takes it out; the oldest key is the last.
-/

namespace Accessibility.Recency

open Std

universe u

variable {κ : Type u} [Ord κ] {recency : Recency κ}

/-- Whether keys and ticks lead to each other and the ticks to come are new. -/
structure IsConsistent (recency : Recency κ) : Prop where
  inverse : OrderedMap.AreInverse recency.ticks recency.order
  past : ∀ tick ∈ recency.order, tick < recency.nextTick

/-! ## The listed keys -/

theorem newestFirst_eq_reverse (recency : Recency κ) :
    recency.newestFirst = (recency.order.toList.map Prod.snd).reverse := by
  rw [newestFirst, OrderedMap.values_eq_map_toList]

@[simp]
theorem newestFirst_clear (recency : Recency κ) : recency.clear.newestFirst = [] := by
  rw [newestFirst_eq_reverse]
  rfl

/-- No key is listed twice. -/
theorem nodup_newestFirst (consistent : recency.IsConsistent) : recency.newestFirst.Nodup := by
  rw [newestFirst_eq_reverse, List.nodup_reverse]
  apply List.Nodup.map_on
  · rintro ⟨one, key⟩ member ⟨other, _⟩ otherMember rfl
    rw [TreeMap.mem_toList_iff_getElem?_eq_some, ← consistent.inverse] at member otherMember
    rw [Option.some.inj (member.symm.trans otherMember)]
  · exact (OrderedMap.nodup_map_fst_toList recency.order).of_map Prod.fst

/-- The oldest key is the last one of the list. -/
theorem popOldest?_eq (consistent : recency.IsConsistent) :
    recency.popOldest? = recency.newestFirst.getLast?.map fun key => (key, recency.remove key) := by
  rw [popOldest?, newestFirst_eq_reverse, List.getLast?_reverse, List.head?_map,
    OrderedMap.minEntry?_eq_head?_toList, Option.map_map]
  cases first : recency.order.toList.head? with
  | none => rfl
  | some entry =>
      rcases entry with ⟨tick, key⟩
      have held := List.mem_of_mem_head? first
      rw [TreeMap.mem_toList_iff_getElem?_eq_some, ← consistent.inverse] at held
      simp [remove, held]

section Remove

variable [DecidableEq κ]

/-- What is used of a key is exactly what its removal takes away. -/
theorem order_remove (consistent : recency.IsConsistent) (key : κ) :
    (recency.remove key).order.Equiv (recency.order.filter fun _ other => other ≠ key) := by
  apply TreeMap.Equiv.of_forall_constGet?_eq
  intro tick
  rw [TreeMap.getElem?_filter']
  -- A tick that is not the one of the key belongs to another key.
  have others (notLast : recency.ticks[key]? ≠ some tick) :
      recency.order[tick]? = recency.order[tick]?.filter fun other => other ≠ key := by
    cases held : recency.order[tick]? with
    | none => rfl
    | some other =>
        have different : other ≠ key := by
          rintro rfl
          exact notLast ((consistent.inverse other tick).mpr held)
        simp [Option.filter, different]
  unfold remove
  split
  · rename_i last stamped
    rw [OrderedMap.getElem?_erase_eq]
    split
    · rename_i isLast
      rw [isLast, (consistent.inverse key last).mp stamped]
      simp [Option.filter]
    · rename_i notLast
      apply others
      rw [stamped]
      exact fun same => notLast (Option.some.inj same).symm
  · rename_i absent
    apply others
    rw [absent]
    exact nofun

/-- Forgetting a key takes it out of the list. -/
theorem newestFirst_remove (consistent : recency.IsConsistent) (key : κ) :
    (recency.remove key).newestFirst = recency.newestFirst.filter (· ≠ key) := by
  rw [newestFirst_eq_reverse, newestFirst_eq_reverse, (order_remove consistent key).toList_eq,
    TreeMap.toList_filter, List.filter_reverse, List.filter_map]
  rfl

end Remove

theorem nextTick_remove (recency : Recency κ) (key : κ) :
    (recency.remove key).nextTick = recency.nextTick := by
  unfold remove
  split <;> rfl

theorem order_touch (recency : Recency κ) (key : κ) :
    (recency.touch key).order =
      (recency.remove key).order.insert recency.nextTick key := by
  unfold touch remove
  split <;> rfl

/-! ## Consistency -/

section Clear

variable [TransOrd κ]

theorem isConsistent_clear (recency : Recency κ) : recency.clear.IsConsistent := by
  constructor
  · simp [OrderedMap.AreInverse, clear]
  · simp [clear]

theorem isConsistent_empty : ({} : Recency κ).IsConsistent :=
  isConsistent_clear {}

theorem mem_newestFirst_iff (consistent : recency.IsConsistent) {key : κ} :
    key ∈ recency.newestFirst ↔ key ∈ recency.ticks := by
  rw [newestFirst_eq_reverse, List.mem_reverse, List.mem_map, TreeMap.mem_iff_isSome_getElem?,
    Option.isSome_iff_exists]
  constructor
  · rintro ⟨⟨tick, _⟩, member, rfl⟩
    rw [TreeMap.mem_toList_iff_getElem?_eq_some] at member
    exact ⟨tick, (consistent.inverse _ tick).mpr member⟩
  · rintro ⟨tick, stamped⟩
    rw [consistent.inverse, ← TreeMap.mem_toList_iff_getElem?_eq_some] at stamped
    exact ⟨(tick, key), stamped, rfl⟩

end Clear

variable [TransOrd κ] [LawfulEqOrd κ] [DecidableEq κ]

theorem ticks_remove (recency : Recency κ) (key other : κ) :
    (recency.remove key).ticks[other]? = if other = key then none else recency.ticks[other]? := by
  unfold remove
  split
  · exact OrderedMap.getElem?_erase_eq recency.ticks key other
  · rename_i absent
    split
    · rename_i same
      rw [same, absent]
    · rfl

theorem IsConsistent.remove (consistent : recency.IsConsistent) (key : κ) :
    (recency.remove key).IsConsistent := by
  constructor
  · unfold Recency.remove
    split
    · rename_i stamped
      exact consistent.inverse.erase stamped
    · exact consistent.inverse
  · intro tick member
    rw [(order_remove consistent key).mem_iff] at member
    rw [nextTick_remove]
    exact consistent.past tick (TreeMap.mem_of_mem_filter member)

theorem ticks_touch (recency : Recency κ) (key other : κ) :
    (recency.touch key).ticks[other]? =
      ((recency.remove key).ticks.insert key recency.nextTick)[other]? := by
  rw [touch, OrderedMap.getElem?_insert_eq, OrderedMap.getElem?_insert_eq, ticks_remove]
  split <;> rfl

theorem IsConsistent.touch (consistent : recency.IsConsistent) (key : κ) :
    (recency.touch key).IsConsistent := by
  have removed := consistent.remove key
  constructor
  · intro other tick
    have unused : recency.nextTick ∉ (recency.remove key).order := by
      intro held
      have past := removed.past recency.nextTick held
      rw [nextTick_remove] at past
      exact Nat.lt_irrefl _ past
    have absent : key ∉ (recency.remove key).ticks := by
      rw [TreeMap.mem_iff_isSome_getElem?, ticks_remove]
      simp
    rw [ticks_touch, order_touch]
    exact removed.inverse.insert absent unused other tick
  · intro tick member
    have nextTick : (recency.touch key).nextTick = recency.nextTick + 1 := rfl
    rw [order_touch, TreeMap.mem_insert, Std.compare_eq_iff_eq] at member
    rw [nextTick]
    rcases member with rfl | earlier
    · exact Nat.lt_succ_self _
    · have past := removed.past tick earlier
      rw [nextTick_remove] at past
      exact Nat.lt_succ_of_lt past

/-- A use moves a key to the front of the list. -/
theorem newestFirst_touch (consistent : recency.IsConsistent) (key : κ) :
    (recency.touch key).newestFirst = key :: recency.newestFirst.filter (· ≠ key) := by
  have behind : ∀ tick ∈ (recency.remove key).order, compare tick recency.nextTick = .lt := by
    intro tick member
    rw [Nat.compare_eq_lt, ← nextTick_remove recency key]
    exact (consistent.remove key).past tick member
  rw [← newestFirst_remove consistent, newestFirst_eq_reverse, order_touch,
    OrderedMap.toList_insert_of_forall_lt key behind, newestFirst_eq_reverse, List.map_append,
    List.reverse_append]
  rfl

end Accessibility.Recency
