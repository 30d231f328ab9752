import Accessibility.Proofs.Menu.Expiry
import Accessibility.Proofs.Menu.Refinement
import Accessibility.Service
import Mathlib.Logic.Relation

/-!
# Reachable services

A service starts with nothing kept, and whatever it is asked changes the menus or the tokens that it
keeps.  The limits it works within stay those of its settings.
-/

namespace Accessibility

namespace MenuCache

/-- A look-up changes no limit of the cache. -/
theorem limits_get (key : String) (now : Instant) (cache : MenuCache) :
    (cache.get key now).2.capacity = cache.capacity ∧
      (cache.get key now).2.lifetime = cache.lifetime := by
  rcases cache.get_cases key now with ⟨_, answer⟩ | ⟨_, _, ⟨_, answer⟩ | ⟨_, answer⟩⟩
  all_goals
    rw [answer]
    exact ⟨rfl, rfl⟩

theorem limits_put (key : String) (hierarchy : MenuHierarchy) (now : Instant)
    (cache : MenuCache) :
    (cache.put key hierarchy now).capacity = cache.capacity ∧
      (cache.put key hierarchy now).lifetime = cache.lifetime := by
  unfold put
  rw [makeRoom_eq]
  exact ⟨rfl, rfl⟩

theorem limits_perform (operation : MenuOperation) (cache : MenuCache) :
    (perform operation cache).2.capacity = cache.capacity ∧
      (perform operation cache).2.lifetime = cache.lifetime := by
  cases operation with
  | put key hierarchy now => exact limits_put key hierarchy now cache
  | get key now => exact limits_get key now cache
  | cleanup now =>
      rw [perform, cleanup_eq]
      exact ⟨rfl, rfl⟩
  | invalidate => exact ⟨rfl, rfl⟩
  | invalidateAll => exact ⟨rfl, rfl⟩

end MenuCache

namespace Service

variable {service next : Service} {settings : Settings}

/-- A hierarchy is found, or else the fetch fails, or else what was fetched is stored. -/
theorem hierarchyOrFetched_cases {ε : Type} {applicationId : String} {now : Instant}
    {found : Option MenuHierarchy} {menus : MenuCache}
    (lookup : service.menus.get applicationId now = (found, menus))
    (fetched : Except ε MenuHierarchy) :
    (∃ hierarchy, found = some hierarchy ∧
        service.hierarchyOrFetched applicationId fetched now =
          (.ok hierarchy, { service with menus })) ∨
      (∃ error, found = none ∧ fetched = .error error ∧
        service.hierarchyOrFetched applicationId fetched now =
          (.error error, { service with menus })) ∨
      ∃ hierarchy, found = none ∧ fetched = .ok hierarchy ∧
        service.hierarchyOrFetched applicationId fetched now =
          (.ok hierarchy, { service with menus := menus.put applicationId hierarchy now }) := by
  unfold hierarchyOrFetched
  rw [lookup]
  cases found with
  | some hierarchy => exact Or.inl ⟨hierarchy, rfl, rfl⟩
  | none =>
      cases fetched with
      | error error => exact Or.inr (Or.inl ⟨error, rfl, rfl, rfl⟩)
      | ok hierarchy => exact Or.inr (Or.inr ⟨hierarchy, rfl, rfl, rfl⟩)

/-- What is found is looked up, and nothing but the menus changes. -/
theorem resolveMenu_eq (applicationId text : String) (now : Instant) (service : Service) :
    service.resolveMenu applicationId text now =
      (match (service.menus.get applicationId now).1 with
        | none => .error (.menuNotKept applicationId)
        | some hierarchy =>
            (hierarchy.resolve text service.menuSuggestions).mapError .menu,
        { service with menus := (service.menus.get applicationId now).2 }) := by
  unfold resolveMenu
  rcases service.menus.get applicationId now with ⟨_ | hierarchy, menus⟩ <;> rfl

/-- What can be asked of a service, and the service to go on with. -/
inductive Step (service : Service) : Service → Prop where
  | resolveMenu (applicationId text : String) (now : Instant) :
      Step service (service.resolveMenu applicationId text now).2
  | hierarchyOrFetched {ε : Type} (applicationId : String) (fetched : Except ε MenuHierarchy)
      (now : Instant) : Step service (service.hierarchyOrFetched applicationId fetched now).2
  | menus (operation : MenuOperation) :
      Step service { service with menus := (service.menus.perform operation).2 }
  | encode {path token : String} {draws rest : List OpaqueId} {next : Service}
      (encoded : service.encode? path draws = some (token, rest, next)) : Step service next
  | decode (token : String) : Step service (service.decode token).2
  | resolveToken (token : String) (root : Element) :
      Step service (service.resolveToken token root).2

/-- Whether a service with these settings can come to a state. -/
def Reachable (settings : Settings) : Service → Prop :=
  Relation.ReflTransGen Step (ofSettings settings)

/-- Whether two services work within the same limits. -/
structure SameLimits (one other : Service) : Prop where
  menuCapacity : one.menus.capacity = other.menus.capacity
  menuLifetime : one.menus.lifetime = other.menus.lifetime
  resolver : one.resolver = other.resolver
  menuSuggestions : one.menuSuggestions = other.menuSuggestions

/-- Whatever a service is asked, its limits stay. -/
theorem Step.sameLimits (step : Step service next) : SameLimits next service := by
  cases step with
  | resolveMenu applicationId text now =>
      rw [resolveMenu_eq]
      have limits := service.menus.limits_get applicationId now
      exact ⟨limits.1, limits.2, rfl, rfl⟩
  | hierarchyOrFetched applicationId fetched now =>
      have limits := service.menus.limits_get applicationId now
      rcases lookup : service.menus.get applicationId now with ⟨found, menus⟩
      rw [lookup] at limits
      rcases hierarchyOrFetched_cases lookup fetched with
        ⟨_, _, answer⟩ | ⟨_, _, _, answer⟩ | ⟨hierarchy, _, _, answer⟩
      · rw [answer]
        exact ⟨limits.1, limits.2, rfl, rfl⟩
      · rw [answer]
        exact ⟨limits.1, limits.2, rfl, rfl⟩
      · have limitsPut := menus.limits_put applicationId hierarchy now
        rw [answer]
        exact ⟨limitsPut.1.trans limits.1, limitsPut.2.trans limits.2, rfl, rfl⟩
  | menus operation =>
      have limits := service.menus.limits_perform operation
      exact ⟨limits.1, limits.2, rfl, rfl⟩
  | encode encoded =>
      unfold encode? at encoded
      rcases Option.map_eq_some_iff.mp encoded with ⟨⟨id, rest, tokens⟩, _, same⟩
      have isNext : { service with tokens } = next := congrArg (·.2.2) same
      subst isNext
      exact ⟨rfl, rfl, rfl, rfl⟩
  | decode token =>
      unfold Service.decode
      rcases service.tokens.decode token with ⟨result, tokens⟩
      exact ⟨rfl, rfl, rfl, rfl⟩
  | resolveToken token root =>
      unfold Service.resolveToken Service.decode
      rcases service.tokens.decode token with ⟨error | path, tokens⟩
      · exact ⟨rfl, rfl, rfl, rfl⟩
      · exact ⟨rfl, rfl, rfl, rfl⟩

/-- The limits of a reachable service are those of the service that it started as. -/
theorem Reachable.sameLimits (reachable : Reachable settings service) :
    SameLimits service (ofSettings settings) := by
  induction reachable with
  | refl => exact ⟨rfl, rfl, rfl, rfl⟩
  | tail _ step ih =>
      have stays := step.sameLimits
      exact ⟨stays.menuCapacity.trans ih.menuCapacity, stays.menuLifetime.trans ih.menuLifetime,
        stays.resolver.trans ih.resolver, stays.menuSuggestions.trans ih.menuSuggestions⟩

end Service

end Accessibility
