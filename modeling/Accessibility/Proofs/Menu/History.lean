import Accessibility.Proofs.Menu.Refinement
import Mathlib.Data.List.Dedup
import Mathlib.Data.List.Induction
import Mathlib.Data.List.Perm.Subperm

/-!
# What a cache of menus remembers

An answer of the cache of menus is explained by what the cache was asked before.  It finds what was
last stored under a key, unless an operation since then has dropped it or met it expired; and it
finds it for certain as long as fewer other keys than the cache has room for were used since the key
itself was.
-/

namespace Accessibility

namespace MenuOperation

/-- Whether an operation leaves alone what is stored under a key and counts until an instant: it
neither replaces nor drops it, nor does it meet it expired. -/
def Spares (key : String) (expiresAt : Instant) : MenuOperation → Prop
  | .put other _ _ => other ≠ key
  | .get other now => other = key → now < expiresAt
  | .cleanup now => now < expiresAt
  | .invalidate other => other ≠ key
  | .invalidateAll => False

/-- Whether a hierarchy is what was last stored under a key, at some time, and all operations since
then have spared it. -/
def LastStored (lifetime : Duration) (operations : List MenuOperation) (key : String)
    (hierarchy : MenuHierarchy) (time : Instant) : Prop :=
  ∃ earlier later, operations = earlier ++ .put key hierarchy time :: later ∧
    ∀ operation ∈ later, operation.Spares key (Instant.after time lifetime)

/-- The key that an operation with its answer has used: what is stored is used, and what is
found. -/
def used? : MenuOperation × MenuAnswer → Option String
  | (.put key _ _, _) => some key
  | (.get key _, .found (some _)) => some key
  | _ => none

/-- The keys that were used, each time they were, in the order of use. -/
def uses (history : List (MenuOperation × MenuAnswer)) : List String :=
  history.filterMap used?

/-- The different keys that were used since a key itself was. -/
def usedSince (key : String) (uses : List String) : List String :=
  (uses.reverse.takeWhile fun other => other ≠ key).dedup

/-! ## Histories -/

variable {lifetime : Duration} {operations : List MenuOperation} {operation : MenuOperation}
  {key : String} {hierarchy : MenuHierarchy} {time : Instant}

theorem lastStored_concat_iff :
    LastStored lifetime (operations ++ [operation]) key hierarchy time ↔
      operation = .put key hierarchy time ∨
        LastStored lifetime operations key hierarchy time ∧
          operation.Spares key (Instant.after time lifetime) := by
  constructor
  · rintro ⟨earlier, later, split, spared⟩
    rcases later.eq_nil_or_concat with rfl | ⟨front, last, rfl⟩
    · rcases List.append_inj' split rfl with ⟨_, same⟩
      exact Or.inl (List.singleton_inj.mp same)
    · rw [List.concat_eq_append] at split spared
      rw [← List.cons_append, ← List.append_assoc] at split
      rcases List.append_inj' split rfl with ⟨sameFront, same⟩
      rw [List.singleton_inj] at same
      rw [List.forall_mem_append] at spared
      rw [same]
      exact Or.inr ⟨⟨earlier, front, sameFront, spared.1⟩, spared.2 last List.mem_cons_self⟩
  · rintro (rfl | ⟨⟨earlier, later, rfl, spared⟩, spares⟩)
    · exact ⟨operations, [], rfl, fun _ => nofun⟩
    · refine ⟨earlier, later ++ [operation], by simp, ?_⟩
      rw [List.forall_mem_append]
      exact ⟨spared, List.forall_mem_singleton.mpr spares⟩

theorem run_concat {σ : Type} (perform : MenuOperation → σ → MenuAnswer × σ)
    (operations : List MenuOperation) (operation : MenuOperation) (state : σ) :
    run perform (operations ++ [operation]) state =
      ((run perform operations state).1 ++ [(perform operation (run perform operations state).2).1],
        (perform operation (run perform operations state).2).2) := by
  induction operations generalizing state with
  | nil => rfl
  | cons first rest ih => simp only [List.cons_append, run, ih]

theorem length_run {σ : Type} (perform : MenuOperation → σ → MenuAnswer × σ)
    (operations : List MenuOperation) (state : σ) :
    (run perform operations state).1.length = operations.length := by
  induction operations generalizing state with
  | nil => rfl
  | cons first rest ih => exact congrArg (· + 1) (ih _)

theorem uses_concat (history : List (MenuOperation × MenuAnswer))
    (event : MenuOperation × MenuAnswer) :
    uses (history ++ [event]) = uses history ++ (used? event).toList := by
  rw [uses, List.filterMap_append, List.filterMap_cons]
  cases used? event <;> rfl

theorem mem_usedSince_concat {uses : List String} {other last : String} :
    other ∈ usedSince key (uses ++ [last]) ↔
      last ≠ key ∧ (other = last ∨ other ∈ usedSince key uses) := by
  rw [usedSince, usedSince, List.reverse_append, List.reverse_singleton, List.singleton_append,
    List.takeWhile_cons, List.mem_dedup, List.mem_dedup]
  by_cases isKey : last = key <;> simp [isKey]

theorem length_usedSince_le_concat {uses : List String} {last : String} (isOther : last ≠ key) :
    (usedSince key uses).length ≤ (usedSince key (uses ++ [last])).length := by
  apply (List.nodup_dedup _).length_le_of_subset
  intro other member
  exact mem_usedSince_concat.mpr ⟨isOther, Or.inr member⟩

end MenuOperation

namespace RecentMenus

variable {menus : RecentMenus} {operations : List MenuOperation} {operation : MenuOperation}
  {key : String} {hierarchy : MenuHierarchy} {uses : List String}

/-! ## Single operations -/

/-- An entry was stored just now, or it was there before and is spared. -/
theorem mem_entries_of_perform
    (member : (key, hierarchy) ∈ (menus.perform operation).2.entries) :
    (∃ original time, operation = .put key original time ∧
        hierarchy = original.withExpiry (Instant.after time menus.lifetime)) ∨
      (key, hierarchy) ∈ menus.entries ∧ operation.Spares key hierarchy.expiresAt := by
  cases operation with
  | put other original time =>
      rcases List.mem_cons.mp member with same | isOther
      · rw [Prod.mk.injEq] at same
        rcases same with ⟨rfl, rfl⟩
        exact Or.inl ⟨original, time, rfl, rfl⟩
      · rcases mem_others_iff.mp isOther with ⟨kept, apart⟩
        exact Or.inr ⟨(sublist_roomFor other menus).subset kept, Ne.symm apart⟩
  | get other now =>
      right
      simp only [perform] at member
      rcases menus.get_cases other now with ⟨absent, got⟩ | ⟨found, listed, ⟨valid, got⟩ | ⟨_, got⟩⟩
      · rw [got] at member
        refine ⟨member, ?_⟩
        rintro rfl
        exact absurd (List.mem_map_of_mem member) absent
      · rw [got] at member
        rcases List.mem_cons.mp member with same | isOther
        · rw [Prod.mk.injEq] at same
          rcases same with ⟨rfl, rfl⟩
          exact ⟨listed, fun _ => valid⟩
        · rcases mem_others_iff.mp isOther with ⟨kept, apart⟩
          exact ⟨kept, fun same => absurd same.symm apart⟩
      · rw [got] at member
        rcases mem_others_iff.mp member with ⟨kept, apart⟩
        exact ⟨kept, fun same => absurd same.symm apart⟩
  | cleanup now =>
      rcases List.mem_filter.mp member with ⟨kept, valid⟩
      rw [decide_eq_true_eq] at valid
      exact Or.inr ⟨kept, valid⟩
  | invalidate other =>
      rcases mem_others_iff.mp member with ⟨kept, apart⟩
      exact Or.inr ⟨kept, Ne.symm apart⟩
  | invalidateAll => contradiction

/-- A key has only one entry. -/
theorem eq_of_mem_entries (distinct : menus.keys.Nodup) {other : MenuHierarchy}
    (member : (key, hierarchy) ∈ menus.entries) (otherMember : (key, other) ∈ menus.entries) :
    other = hierarchy := by
  have same := List.inj_on_of_nodup_map distinct otherMember member rfl
  exact congrArg Prod.snd same

/-- Room for a key is made at the cost of the last entry alone, and only if the list is full and the
key is new. -/
theorem mem_roomFor_or_isLast {entry : String × MenuHierarchy} (member : entry ∈ menus.entries)
    (key : String) :
    entry ∈ menus.roomFor key ∨
      key ∉ menus.keys ∧ menus.capacity ≤ menus.entries.length ∧
        ∃ front, menus.entries = front ++ [entry] := by
  rw [roomFor]
  split
  · exact Or.inl member
  · rename_i full
    rw [not_or, Nat.not_lt] at full
    rcases List.eq_nil_or_concat' menus.entries with isEmpty | ⟨front, last, split⟩
    · rw [isEmpty] at member
      contradiction
    · rw [split, List.mem_append, List.mem_singleton] at member
      rcases member with kept | rfl
      · left
        rw [split, List.dropLast_concat]
        exact kept
      · exact Or.inr ⟨full.1, full.2, front, split⟩

/-- An entry that is spared stays, unless it is the last one of a full list and room is made for
another key. -/
theorem mem_entries_perform (distinct : menus.keys.Nodup)
    (member : (key, hierarchy) ∈ menus.entries)
    (spares : operation.Spares key hierarchy.expiresAt) :
    (key, hierarchy) ∈ (menus.perform operation).2.entries ∨
      ∃ other original time front, operation = .put other original time ∧ other ∉ menus.keys ∧
        menus.capacity ≤ menus.entries.length ∧ menus.entries = front ++ [(key, hierarchy)] := by
  cases operation with
  | put other original time =>
      have apart : key ≠ other := Ne.symm spares
      rcases mem_roomFor_or_isLast member other with kept | ⟨isNew, full, front, split⟩
      · exact Or.inl (List.mem_cons_of_mem _ (mem_others_iff.mpr ⟨kept, apart⟩))
      · exact Or.inr ⟨other, original, time, front, rfl, isNew, full, split⟩
  | get other now =>
      left
      simp only [perform]
      rcases menus.get_cases other now with ⟨_, got⟩ | ⟨found, listed, ⟨_, got⟩ | ⟨expired, got⟩⟩
      · rw [got]
        exact member
      · rw [got]
        by_cases same : key = other
        · subst same
          rw [eq_of_mem_entries distinct member listed]
          exact List.mem_cons_self
        · exact List.mem_cons_of_mem _ (mem_others_iff.mpr ⟨member, same⟩)
      · rw [got]
        refine mem_others_iff.mpr ⟨member, ?_⟩
        rintro rfl
        rw [eq_of_mem_entries distinct member listed] at expired
        exact expired (spares rfl)
  | cleanup now => exact Or.inl (List.mem_filter.mpr ⟨member, decide_eq_true spares⟩)
  | invalidate other => exact Or.inl (mem_others_iff.mpr ⟨member, Ne.symm spares⟩)
  | invalidateAll => exact absurd spares id

/-- The keys after an operation are some of those before, perhaps behind the one that was used. -/
theorem keys_perform (operation : MenuOperation) (menus : RecentMenus) :
    (menus.perform operation).2.keys.Sublist menus.keys ∧
        MenuOperation.used? (operation, (menus.perform operation).1) = none ∨
      ∃ key, MenuOperation.used? (operation, (menus.perform operation).1) = some key ∧
        ∃ rest, rest.Sublist menus.keys ∧ key ∉ rest ∧
          (menus.perform operation).2.keys = key :: rest := by
  have sublist_others (key : String) (entries : List (String × MenuHierarchy)) :
      ((others key entries).map Prod.fst).Sublist (entries.map Prod.fst) :=
    List.filter_sublist.map Prod.fst
  have notMem_others (key : String) (entries : List (String × MenuHierarchy)) :
      key ∉ (others key entries).map Prod.fst := by
    intro listed
    rcases List.mem_map.mp listed with ⟨entry, member, isKey⟩
    exact (mem_others_iff.mp member).2 isKey
  cases operation with
  | put key hierarchy now =>
      right
      have room := (sublist_roomFor key menus).map Prod.fst
      exact ⟨key, rfl, _, (sublist_others key _).trans room, notMem_others key _, rfl⟩
  | get key now =>
      simp only [perform]
      rcases menus.get_cases key now with ⟨_, got⟩ | ⟨found, listed, ⟨_, got⟩ | ⟨_, got⟩⟩
      · rw [got]
        exact Or.inl ⟨List.Sublist.refl _, rfl⟩
      · rw [got]
        exact Or.inr ⟨key, rfl, _, sublist_others key _, notMem_others key _, rfl⟩
      · rw [got]
        exact Or.inl ⟨sublist_others key _, rfl⟩
  | cleanup now => exact Or.inl ⟨List.filter_sublist.map Prod.fst, rfl⟩
  | invalidate key => exact Or.inl ⟨sublist_others key _, rfl⟩
  | invalidateAll => exact Or.inl ⟨List.nil_sublist _, rfl⟩

/-- A key that is spared and still there has kept its entry. -/
theorem exists_mem_entries_of_mem_keys {expiresAt : Instant}
    (spares : operation.Spares key expiresAt) (known : key ∈ (menus.perform operation).2.keys) :
    ∃ hierarchy, (key, hierarchy) ∈ menus.entries ∧
      (key, hierarchy) ∈ (menus.perform operation).2.entries := by
  rcases List.mem_map.mp known with ⟨⟨other, hierarchy⟩, member, isKey⟩
  change other = key at isKey
  subst isKey
  rcases mem_entries_of_perform member with ⟨original, time, rfl, _⟩ | ⟨earlier, _⟩
  · exact absurd rfl spares
  · exact ⟨hierarchy, earlier, member⟩

/-! ## The list and its history -/

/-- Whether the entries of a list are explained by the operations and uses that led to it. -/
structure Remembers (operations : List MenuOperation) (uses : List String)
    (menus : RecentMenus) : Prop where
  /-- An entry is what was last stored under its key. -/
  stored : ∀ key hierarchy, (key, hierarchy) ∈ menus.entries →
    ∃ original time, MenuOperation.LastStored menus.lifetime operations key original time ∧
      hierarchy = original.withExpiry (Instant.after time menus.lifetime)
  /-- Whatever stands in front of a key was used since. -/
  ordered : menus.keys.Pairwise fun newer older => newer ∈ MenuOperation.usedSince older uses
  /-- What was last stored is lost only to as many other keys as fill the list. -/
  kept : ∀ key original time, MenuOperation.LastStored menus.lifetime operations key original time →
    (key, original.withExpiry (Instant.after time menus.lifetime)) ∈ menus.entries ∨
      key ∉ menus.keys ∧ menus.capacity ≤ (MenuOperation.usedSince key uses).length

namespace Remembers

variable (remembers : menus.Remembers operations uses)
include remembers

theorem stored_perform (operation : MenuOperation)
    (member : (key, hierarchy) ∈ (menus.perform operation).2.entries) :
    ∃ original time,
      MenuOperation.LastStored menus.lifetime (operations ++ [operation]) key original time ∧
        hierarchy = original.withExpiry (Instant.after time menus.lifetime) := by
  rcases mem_entries_of_perform member with ⟨original, time, stores, rfl⟩ | ⟨earlier, spares⟩
  · exact ⟨original, time, MenuOperation.lastStored_concat_iff.mpr (Or.inl stores), rfl⟩
  · rcases remembers.stored key hierarchy earlier with ⟨original, time, lastStored, rfl⟩
    exact ⟨original, time,
      MenuOperation.lastStored_concat_iff.mpr (Or.inr ⟨lastStored, spares⟩), rfl⟩

theorem ordered_perform (operation : MenuOperation) :
    (menus.perform operation).2.keys.Pairwise fun newer older =>
      newer ∈ MenuOperation.usedSince older
        (uses ++ (MenuOperation.used? (operation, (menus.perform operation).1)).toList) := by
  rcases keys_perform operation menus with
    ⟨sublist, unused⟩ | ⟨key, used, rest, sublist, notMem, keys⟩
  · rw [unused, Option.toList_none, List.append_nil]
    exact remembers.ordered.sublist sublist
  · rw [keys, used, Option.toList_some, List.pairwise_cons]
    have isOther (older : String) (member : older ∈ rest) : key ≠ older := by
      rintro rfl
      exact notMem member
    constructor
    · intro older member
      exact MenuOperation.mem_usedSince_concat.mpr ⟨isOther older member, Or.inl rfl⟩
    · apply (remembers.ordered.sublist sublist).imp_of_mem
      intro newer older _ member since
      exact MenuOperation.mem_usedSince_concat.mpr ⟨isOther older member, Or.inr since⟩

/-- The last key of a full list gives way to another one only after as many others were used as the
list has room for. -/
theorem capacity_le_of_isLast (distinct : menus.keys.Nodup) {other : String}
    {front : List (String × MenuHierarchy)} (isNew : other ∉ menus.keys)
    (full : menus.capacity ≤ menus.entries.length)
    (isLast : menus.entries = front ++ [(key, hierarchy)]) :
    menus.capacity ≤ (MenuOperation.usedSince key (uses ++ [other])).length := by
  have keys : menus.keys = front.map Prod.fst ++ [key] := by
    rw [RecentMenus.keys, isLast, List.map_append]
    rfl
  have ordered := remembers.ordered
  rw [keys, List.pairwise_append] at ordered
  rw [keys] at isNew distinct
  rw [List.mem_append, List.mem_singleton, not_or] at isNew
  have different : (other :: front.map Prod.fst).Nodup :=
    List.nodup_cons.mpr ⟨isNew.1, (List.nodup_append.mp distinct).1⟩
  have used : other :: front.map Prod.fst ⊆ MenuOperation.usedSince key (uses ++ [other]) := by
    intro newer member
    apply MenuOperation.mem_usedSince_concat.mpr
    refine ⟨isNew.2, (List.mem_cons.mp member).imp_right fun inFront => ?_⟩
    exact ordered.2.2 newer inFront key List.mem_cons_self
  have atLeast := different.length_le_of_subset used
  rw [List.length_cons, List.length_map] at atLeast
  rw [isLast, List.length_append, List.length_singleton] at full
  exact Nat.le_trans full atLeast

theorem kept_perform (distinct : menus.keys.Nodup) (operation : MenuOperation)
    {original : MenuHierarchy} {time : Instant}
    (lastStored :
      MenuOperation.LastStored menus.lifetime (operations ++ [operation]) key original time) :
    (key, original.withExpiry (Instant.after time menus.lifetime)) ∈
        (menus.perform operation).2.entries ∨
      key ∉ (menus.perform operation).2.keys ∧
        menus.capacity ≤
          (MenuOperation.usedSince key (uses ++
            (MenuOperation.used? (operation, (menus.perform operation).1)).toList)).length := by
  rcases MenuOperation.lastStored_concat_iff.mp lastStored with rfl | ⟨earlier, spares⟩
  · exact Or.inl List.mem_cons_self
  · rcases remembers.kept key original time earlier with member | ⟨absent, filled⟩
    · rcases mem_entries_perform distinct member spares with
        still | ⟨other, hierarchy, now, front, rfl, isNew, full, isLast⟩
      · exact Or.inl still
      · by_cases known : key ∈ (menus.perform (.put other hierarchy now)).2.keys
        · rcases exists_mem_entries_of_mem_keys spares known with ⟨found, listed, still⟩
          rw [eq_of_mem_entries distinct member listed] at still
          exact Or.inl still
        · exact Or.inr ⟨known, remembers.capacity_le_of_isLast distinct isNew full isLast⟩
    · right
      have stillAbsent : key ∉ (menus.perform operation).2.keys := by
        intro known
        rcases exists_mem_entries_of_mem_keys spares known with ⟨hierarchy, listed, _⟩
        exact absent (List.mem_map_of_mem listed)
      refine ⟨stillAbsent, Nat.le_trans filled ?_⟩
      rcases keys_perform operation menus with ⟨_, unused⟩ | ⟨last, used, rest, _, _, keys⟩
      · apply Nat.le_of_eq
        rw [unused, Option.toList_none, List.append_nil]
      · rw [used]
        apply MenuOperation.length_usedSince_le_concat
        rintro rfl
        rw [keys] at stillAbsent
        exact stillAbsent List.mem_cons_self

/-- An operation is remembered with what was before. -/
theorem perform (distinct : menus.keys.Nodup) (operation : MenuOperation) :
    (menus.perform operation).2.Remembers (operations ++ [operation])
      (uses ++ (MenuOperation.used? (operation, (menus.perform operation).1)).toList) := by
  constructor
  · intro key hierarchy member
    rw [lifetime_perform]
    exact remembers.stored_perform operation member
  · exact remembers.ordered_perform operation
  · intro key original time lastStored
    rw [lifetime_perform] at lastStored ⊢
    rw [capacity_perform]
    exact remembers.kept_perform distinct operation lastStored

/-- What is found is what was last stored; and what was last stored is found while it counts, unless
as many others as fill the list were used since. -/
theorem get (distinct : menus.keys.Nodup) (key : String) (now : Instant) :
    (∀ hierarchy, (menus.get key now).1 = some hierarchy →
        ∃ original time, MenuOperation.LastStored menus.lifetime operations key original time ∧
          hierarchy = original.withExpiry (Instant.after time menus.lifetime) ∧
          now < Instant.after time menus.lifetime) ∧
      ∀ original time, MenuOperation.LastStored menus.lifetime operations key original time →
        now < Instant.after time menus.lifetime →
        (MenuOperation.usedSince key uses).length < menus.capacity →
          (menus.get key now).1 =
            some (original.withExpiry (Instant.after time menus.lifetime)) := by
  have isListed {original : MenuHierarchy} {time : Instant}
      (lastStored : MenuOperation.LastStored menus.lifetime operations key original time)
      (few : (MenuOperation.usedSince key uses).length < menus.capacity) :
      (key, original.withExpiry (Instant.after time menus.lifetime)) ∈ menus.entries := by
    rcases remembers.kept key original time lastStored with member | ⟨_, many⟩
    · exact member
    · exact absurd many (Nat.not_le.mpr few)
  rcases menus.get_cases key now with
    ⟨absent, got⟩ | ⟨found, member, ⟨valid, got⟩ | ⟨expired, got⟩⟩
  · rw [got]
    refine ⟨fun _ => nofun, ?_⟩
    intro original time lastStored _ few
    exact absurd (List.mem_map_of_mem (isListed lastStored few)) absent
  · rw [got]
    constructor
    · rintro _ ⟨⟩
      rcases remembers.stored key found member with ⟨original, time, lastStored, rfl⟩
      exact ⟨original, time, lastStored, rfl, valid⟩
    · intro original time lastStored _ few
      exact congrArg some (eq_of_mem_entries distinct (isListed lastStored few) member)
  · rw [got]
    refine ⟨fun _ => nofun, ?_⟩
    intro original time lastStored counts few
    rw [eq_of_mem_entries distinct (isListed lastStored few) member] at expired
    exact absurd counts expired

end Remembers

/-- A list of recently used menus that started empty remembers all operations. -/
theorem remembers_run (size : Nat) (lifetime : Duration) (operations : List MenuOperation) :
    (MenuOperation.run perform operations { capacity := max size 1, lifetime }).2.Remembers
      operations
      (MenuOperation.uses (operations.zip
        (MenuOperation.run perform operations { capacity := max size 1, lifetime }).1)) := by
  induction operations using List.reverseRecOn with
  | nil =>
      constructor
      · exact fun _ _ => nofun
      · exact List.Pairwise.nil
      · rintro key original time ⟨earlier, later, split, _⟩
        simp at split
  | append_singleton operations operation ih =>
      have describes := ((describes_ofCapacity size lifetime).run operations).2
      have length :=
        MenuOperation.length_run perform operations { capacity := max size 1, lifetime }
      rw [MenuOperation.run_concat, List.zip_append length.symm, List.zip_cons_cons,
        List.zip_nil_left, MenuOperation.uses_concat]
      exact ih.perform describes.lists.nodup operation

end RecentMenus

namespace MenuCache

open MenuOperation (LastStored uses usedSince)

/-- What a cache finds under a key after some operations is what was last stored there and has not
been met expired or dropped since; it counts still.  And if this is so, the cache finds it unless as
many other keys as it has room for were used since the key was. -/
theorem get_run_lastStored (size : Nat) (lifetime : Duration) (operations : List MenuOperation)
    (key : String) (now : Instant) :
    let ran := MenuOperation.run perform operations (ofCapacity size lifetime)
    (∀ hierarchy, (ran.2.get key now).1 = some hierarchy →
        ∃ original time, LastStored lifetime operations key original time ∧
          hierarchy = original.withExpiry (Instant.after time lifetime) ∧
          now < Instant.after time lifetime) ∧
      ∀ original time, LastStored lifetime operations key original time →
        now < Instant.after time lifetime →
        (usedSince key (uses (operations.zip ran.1))).length < max size 1 →
          (ran.2.get key now).1 = some (original.withExpiry (Instant.after time lifetime)) := by
  intro ran
  have start := RecentMenus.describes_ofCapacity size lifetime
  rcases start.run operations with ⟨answers, describes⟩
  have remembers := RecentMenus.remembers_run size lifetime operations
  have found := remembers.get describes.lists.nodup key now
  rw [RecentMenus.lifetime_run, RecentMenus.capacity_run, ← answers,
    ← (describes.get key now).1] at found
  exact found

theorem get_run_lastStored_of_one_other_use :
    let menus : MenuHierarchy := .capturedAt "Notes" [] 5 0
    let operations : List MenuOperation :=
      [.put "Notes" menus 0, .put "Finder" menus 1, .get "Finder" 70, .put "Finder" menus 2]
    let ran := MenuOperation.run perform operations (ofCapacity 2 60)
    LastStored 60 operations "Notes" menus 0 ∧
      usedSince "Notes" (uses (operations.zip ran.1)) = ["Finder"] ∧
      (ran.2.get "Notes" 59).1 = some (menus.withExpiry 60) := by
  intro menus operations ran
  have expiry : Instant.after 0 60 = 60 := Instant.after_of_le (by decide)
  have otherExpiry : Instant.after 1 60 = 61 := Instant.after_of_le (by decide)
  have lastStored : LastStored 60 operations "Notes" menus 0 := by
    refine ⟨[], operations.tail, rfl, ?_⟩
    simp [operations, MenuOperation.Spares]
  have used : usedSince "Notes" (uses (operations.zip ran.1)) = ["Finder"] := by
    simp only [ran]
    rw [((RecentMenus.describes_ofCapacity 2 60).run operations).1]
    simp [operations, MenuOperation.run, RecentMenus.perform, RecentMenus.put, RecentMenus.get,
      RecentMenus.roomFor, RecentMenus.keys, RecentMenus.others, otherExpiry,
      MenuHierarchy.withExpiry, uses, List.filterMap_cons, MenuOperation.used?, usedSince]
  have found := (get_run_lastStored 2 60 operations "Notes" 59).2 menus 0 lastStored
  rw [expiry] at found
  refine ⟨lastStored, used, found (by decide) ?_⟩
  rw [used]
  decide

end MenuCache

end Accessibility
