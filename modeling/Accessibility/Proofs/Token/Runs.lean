import Accessibility.Proofs.Token.Bijection

/-!
# Uses of the cache of identifiers

However the cache of identifiers is used, paths and identifiers stay paired one to one.  Distinct
paths have distinct tokens, and a token handed out is read as the path it was handed out for.
-/

namespace Accessibility

/-- What a cache of identifiers is asked to do. -/
inductive TokenOperation where
  | obtain (path : String)
  | resolve (id : OpaqueId)
  | decode (token : String)
  | clear

/-- What a cache of identifiers answers. -/
inductive TokenAnswer where
  | obtained (id : OpaqueId)
  | resolved (path : Except TokenError String)
  | cleared

namespace TokenCache

variable {cache next : TokenCache} {path : String} {id : OpaqueId} {draws rest : List OpaqueId}

/-- Performs an operation and returns the draws it did not need. -/
def perform? : TokenOperation → List OpaqueId → TokenCache →
    Option (TokenAnswer × List OpaqueId × TokenCache)
  | .obtain path, draws, cache =>
      (cache.obtain? path draws).map fun (id, rest, next) => (.obtained id, rest, next)
  | .resolve id, draws, cache =>
      let (path, next) := cache.resolve id
      some (.resolved path, draws, next)
  | .decode token, draws, cache =>
      let (path, next) := cache.decode token
      some (.resolved path, draws, next)
  | .clear, draws, cache => some (.cleared, draws, cache.clear)

/-- The answers to a sequence of operations, the draws that are left and the cache after it. -/
def run? : List TokenOperation → List OpaqueId → TokenCache →
    Option (List TokenAnswer × List OpaqueId × TokenCache)
  | [], draws, cache => some ([], draws, cache)
  | operation :: later, draws, cache =>
      match cache.perform? operation draws with
      | none => none
      | some (answer, rest, next) =>
          (run? later rest next).map fun (answers, rest, last) => (answer :: answers, rest, last)

/-- Whether every path that needs a new identifier finds one among the draws to come. -/
def DrawsSuffice (operations : List TokenOperation) (draws : List OpaqueId)
    (cache : TokenCache) : Prop :=
  ∀ before path after answers rest reached, operations = before ++ .obtain path :: after →
    run? before draws cache = some (answers, rest, reached) →
    path ∉ reached.pathToId → ∃ draw ∈ rest, draw ∉ reached.makeRoom.idToPath

namespace IsBijection

/-- An operation keeps the pairs one to one and reports no disagreement. -/
theorem of_perform? (bijection : cache.IsBijection) {operation : TokenOperation}
    {answer : TokenAnswer}
    (performed : cache.perform? operation draws = some (answer, rest, next)) :
    next.IsBijection ∧ next.capacity = cache.capacity ∧
      ∀ token, answer ≠ .resolved (.error (.inconsistent token)) := by
  cases operation with
  | obtain path =>
      simp only [perform?, Option.map_eq_some_iff, Prod.exists, Prod.mk.injEq] at performed
      rcases performed with ⟨id, _, _, obtained, rfl, rfl, rfl⟩
      rcases bijection.of_obtain? obtained with ⟨kept, capacity, _⟩
      exact ⟨kept, capacity, nofun⟩
  | resolve id =>
      cases performed
      rcases bijection.of_resolve id with ⟨kept, capacity, agrees⟩
      exact ⟨kept, capacity, fun token same => agrees token (TokenAnswer.resolved.inj same)⟩
  | decode token =>
      cases performed
      rcases bijection.of_decode token with ⟨kept, capacity, agrees⟩
      exact ⟨kept, capacity, fun token same => agrees token (TokenAnswer.resolved.inj same)⟩
  | clear =>
      cases performed
      exact ⟨isBijection_clear cache, rfl, nofun⟩

/-- A sequence of operations keeps the pairs one to one and reports no disagreement. -/
theorem of_run? (bijection : cache.IsBijection) {operations : List TokenOperation}
    {answers : List TokenAnswer} {last : TokenCache}
    (ran : run? operations draws cache = some (answers, rest, last)) :
    last.IsBijection ∧ last.capacity = cache.capacity ∧
      ∀ token, .resolved (.error (.inconsistent token)) ∉ answers := by
  induction operations generalizing draws cache answers with
  | nil =>
      cases ran
      exact ⟨bijection, rfl, fun _ => List.not_mem_nil⟩
  | cons operation later ih =>
      rw [run?] at ran
      cases performed : cache.perform? operation draws with
      | none => simp [performed] at ran
      | some result =>
          rcases result with ⟨answer, left, next⟩
          simp only [performed, Option.map_eq_some_iff, Prod.exists, Prod.mk.injEq] at ran
          rcases ran with ⟨answers, _, _, ranLater, rfl, rfl, rfl⟩
          rcases bijection.of_perform? performed with ⟨kept, capacity, agrees⟩
          rcases ih kept ranLater with ⟨keptLater, capacityLater, agreeLater⟩
          refine ⟨keptLater, capacityLater.trans capacity, ?_⟩
          intro token reported
          rcases List.mem_cons.mp reported with now | later
          · exact agrees token now.symm
          · exact agreeLater token later

end IsBijection

theorem exists_perform? {operation : TokenOperation}
    (enough : ∀ path, operation = .obtain path → path ∉ cache.pathToId →
      ∃ draw ∈ draws, draw ∉ cache.makeRoom.idToPath) :
    ∃ answer rest next, cache.perform? operation draws = some (answer, rest, next) := by
  cases operation with
  | obtain path =>
      rcases exists_obtain? (enough path rfl) with ⟨id, rest, next, obtained⟩
      exact ⟨.obtained id, rest, next, by simp [perform?, obtained]⟩
  | resolve id => exact ⟨_, _, _, rfl⟩
  | decode token => exact ⟨_, _, _, rfl⟩
  | clear => exact ⟨_, _, _, rfl⟩

theorem DrawsSuffice.later {operation : TokenOperation} {later : List TokenOperation}
    {answer : TokenAnswer} (enough : DrawsSuffice (operation :: later) draws cache)
    (performed : cache.perform? operation draws = some (answer, rest, next)) :
    DrawsSuffice later rest next := by
  intro before path after answers left reached split ran
  apply enough (operation :: before) path after (answer :: answers) left reached
  · rw [split, List.cons_append]
  · simp [run?, performed, ran]

/-- A run comes to its end if the draws suffice. -/
theorem DrawsSuffice.exists_run? {operations : List TokenOperation}
    (enough : DrawsSuffice operations draws cache) :
    ∃ answers rest last, run? operations draws cache = some (answers, rest, last) := by
  induction operations generalizing draws cache with
  | nil => exact ⟨_, _, _, rfl⟩
  | cons operation later ih =>
      have enoughNow : ∀ path, operation = .obtain path → path ∉ cache.pathToId →
          ∃ draw ∈ draws, draw ∉ cache.makeRoom.idToPath := by
        rintro path rfl isNew
        exact enough [] path later [] draws cache rfl rfl isNew
      rcases exists_perform? enoughNow with ⟨answer, left, next, performed⟩
      rcases ih (enough.later performed) with ⟨answers, rest, last, ran⟩
      exact ⟨answer :: answers, rest, last, by simp [run?, performed, ran]⟩

/-- However an empty cache is used, paths and identifiers stay paired one to one, in the order of
use and within the capacity; no answer reports a disagreement, distinct paths have distinct tokens
and a token handed out is read as its path. -/
theorem run?_isBijection (size : Nat) (operations : List TokenOperation) (draws : List OpaqueId)
    (enough : DrawsSuffice operations draws (ofCapacity size)) :
    ∃ answers rest cache, run? operations draws (ofCapacity size) = some (answers, rest, cache) ∧
      cache.IsBijection ∧ cache.capacity.size = max size 1 ∧
      (∀ token, .resolved (.error (.inconsistent token)) ∉ answers) ∧
      (∀ (one other : String) (oneId otherId : OpaqueId), cache.pathToId[one]? = some oneId →
        cache.pathToId[other]? = some otherId → oneId.encode = otherId.encode → one = other) ∧
      ∀ path draws,
        (path ∉ cache.pathToId → ∃ draw ∈ draws, draw ∉ cache.makeRoom.idToPath) →
          ∃ id rest next, cache.obtain? path draws = some (id, rest, next) ∧
            (next.decode id.encode).1 = .ok path := by
  rcases enough.exists_run? with ⟨answers, rest, cache, ran⟩
  rcases (isBijection_ofCapacity size).of_run? ran with ⟨bijection, capacity, agrees⟩
  refine ⟨answers, rest, cache, ran, bijection, ?_, agrees, ?_, ?_⟩
  · rw [capacity]
    rfl
  · intro one other oneId otherId onePair otherPair sameToken
    rw [OpaqueId.encode_injective sameToken, bijection.inverse] at onePair
    rw [bijection.inverse] at otherPair
    exact Option.some.inj (onePair.symm.trans otherPair)
  · intro path draws enough
    rcases exists_obtain? enough with ⟨id, rest, next, obtained⟩
    rcases bijection.of_obtain? obtained with ⟨kept, _, pair⟩
    exact ⟨id, rest, next, obtained, kept.decode_encode pair⟩

theorem run?_isBijection_of_repeated_draw :
    let operations := [TokenOperation.obtain "window", .obtain "button", .decode "?"]
    let draws := [OpaqueId.ofNat 7, OpaqueId.ofNat 7, OpaqueId.ofNat 8]
    DrawsSuffice operations draws (ofCapacity 2) ∧
      ∃ answers rest cache, run? operations draws (ofCapacity 2) = some (answers, rest, cache) ∧
        cache.IsBijection := by
  intro operations draws
  have enough : DrawsSuffice operations draws (ofCapacity 2) := by
    intro before path after answers rest reached split ran
    rcases before with _ | ⟨first, _ | ⟨second, before⟩⟩
    · cases ran
      exact fun _ => ⟨OpaqueId.ofNat 7, by decide, by decide⟩
    · rcases List.cons.inj split with ⟨rfl, _⟩
      cases ran
      exact fun _ => ⟨OpaqueId.ofNat 8, by decide, by decide⟩
    · cases before <;> simp [operations] at split
  rcases run?_isBijection 2 operations draws enough with ⟨answers, rest, cache, ran, bijection, _⟩
  exact ⟨enough, answers, rest, cache, ran, bijection⟩

end TokenCache

end Accessibility
