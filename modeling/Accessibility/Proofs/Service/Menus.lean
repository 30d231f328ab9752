import Accessibility.CommandLine.Command
import Accessibility.Proofs.Service.Reachable

/-!
# Menus of a service

A service that gives out the menus of an application keeps them as well, so that a look-up at the
same instant finds them.  What it finds counts from now on, whereas what was fetched may have been
captured before; and it finds nothing if nothing is kept for any time.
-/

namespace Accessibility

namespace MenuCache

/-- What has been found is found again at the same instant. -/
theorem get_of_get {key : String} {now : Instant} {cache next : MenuCache}
    {hierarchy : MenuHierarchy} (found : cache.get key now = (some hierarchy, next)) :
    (next.get key now).1 = some hierarchy := by
  rcases cache.get_cases key now with
    ⟨_, answer⟩ | ⟨kept, isKept, ⟨valid, answer⟩ | ⟨_, answer⟩⟩
  · cases answer.symm.trans found
  · cases answer.symm.trans found
    rw [get_eq_filter, isKept, Option.filter_some, if_pos valid]
  · cases answer.symm.trans found

end MenuCache

namespace Service

variable {service next : Service} {settings : Settings} {applicationId : String}
  {now : Instant} {hierarchy : MenuHierarchy}

/-- The menus that a service gives out were kept before and still are, or were fetched and are kept
from now on, if they are kept at all. -/
theorem lookup_after_hierarchyOrFetched {ε : Type} {fetched : Except ε MenuHierarchy}
    (early : now < Instant.latest)
    (given : service.hierarchyOrFetched applicationId fetched now = (.ok hierarchy, next)) :
    (service.menus.get applicationId now).1 = some hierarchy ∧
        (next.menus.get applicationId now).1 = some hierarchy ∨
      (service.menus.get applicationId now).1 = none ∧ fetched = .ok hierarchy ∧
        (next.menus.get applicationId now).1 =
          if 0 < service.menus.lifetime then
            some (hierarchy.withExpiry (Instant.after now service.menus.lifetime))
          else
            none := by
  rcases lookup : service.menus.get applicationId now with ⟨found, menus⟩
  have lifetime := (service.menus.limits_get applicationId now).2
  rw [lookup] at lifetime
  rcases hierarchyOrFetched_cases lookup fetched with
    ⟨kept, rfl, answer⟩ | ⟨error, rfl, rfl, answer⟩ | ⟨captured, rfl, rfl, answer⟩
  · cases answer.symm.trans given
    exact Or.inl ⟨rfl, MenuCache.get_of_get lookup⟩
  · cases answer.symm.trans given
  · cases answer.symm.trans given
    refine Or.inr ⟨rfl, rfl, ?_⟩
    rw [MenuCache.get_put, lifetime]
    simp only [Instant.lt_after_iff early]

/-- A service with nothing kept gives out what was fetched. -/
theorem hierarchyOrFetched_ofSettings (ε : Type) (settings : Settings) (applicationId : String)
    (captured : MenuHierarchy) (now : Instant) :
    ∃ next, (ofSettings settings).hierarchyOrFetched applicationId (.ok captured : Except ε _) now =
      (.ok captured, next) :=
  ⟨_, rfl⟩

/-- If a service keeps menus for some time, those it has given out are found at the same instant
with all they show, and with their own expiry if they were kept before; those that were just fetched
count from now on instead. -/
theorem get_after_hierarchyOrFetched {ε : Type} {fetched : Except ε MenuHierarchy}
    (positive : 0 < service.menus.lifetime) (early : now < Instant.latest)
    (given : service.hierarchyOrFetched applicationId fetched now = (.ok hierarchy, next)) :
    ∃ expiresAt,
      (next.menus.get applicationId now).1 = some (hierarchy.withExpiry expiresAt) ∧
      ((service.menus.get applicationId now).1 = some hierarchy ∧
          expiresAt = hierarchy.expiresAt ∨
        (service.menus.get applicationId now).1 = none ∧ fetched = .ok hierarchy ∧
          expiresAt = Instant.after now service.menus.lifetime) := by
  rcases lookup_after_hierarchyOrFetched early given with ⟨hit, again⟩ | ⟨miss, isFetched, stored⟩
  · exact ⟨hierarchy.expiresAt, again, Or.inl ⟨hit, rfl⟩⟩
  · rw [if_pos positive] at stored
    exact ⟨_, stored, Or.inr ⟨miss, isFetched, rfl⟩⟩

theorem get_after_hierarchyOrFetched_of_short_capture :
    let captured := MenuHierarchy.capturedAt "app" [] (Duration.ofSeconds 60) 0
    ∃ next,
      (ofSettings {}).hierarchyOrFetched "app" (.ok captured : Except Empty _) 0 =
        (.ok captured, next) ∧
      0 < (ofSettings {}).menus.lifetime ∧ 0 < Instant.latest ∧
      (next.menus.get "app" 0).1 = some (captured.withExpiry 300000000000) := by
  intro captured
  have positive : 0 < (ofSettings {}).menus.lifetime := by decide
  have early : 0 < Instant.latest := by decide
  have expiry : Instant.after 0 (ofSettings {}).menus.lifetime = 300000000000 :=
    Instant.after_of_le (by decide)
  rcases hierarchyOrFetched_ofSettings Empty {} "app" captured 0 with ⟨next, given⟩
  refine ⟨next, given, positive, early, ?_⟩
  rcases get_after_hierarchyOrFetched positive early given with
    ⟨expiresAt, found, ⟨hit, _⟩ | ⟨_, _, rfl⟩⟩
  · contradiction
  · rw [found, expiry]

/-- What a service gives out is not always what it keeps. -/
theorem not_forall_get_after_hierarchyOrFetched :
    ¬∀ (settings : Settings) (service next : Service) (applicationId : String)
        (fetched : Except Empty MenuHierarchy) (hierarchy : MenuHierarchy) (now : Instant),
      0 < settings.hierarchyLifetime → Reachable settings service → now < Instant.latest →
      service.hierarchyOrFetched applicationId fetched now = (.ok hierarchy, next) →
      (next.menus.get applicationId now).1 = some hierarchy := by
  intro always
  let captured := MenuHierarchy.capturedAt "app" [] 0 0
  rcases hierarchyOrFetched_ofSettings Empty {} "app" captured 0 with ⟨next, given⟩
  have found := always {} (ofSettings {}) next "app" _ captured 0 (by decide)
    Relation.ReflTransGen.refl (by decide) given
  rcases lookup_after_hierarchyOrFetched (by decide) given with ⟨hit, _⟩ | ⟨_, _, stored⟩
  · contradiction
  · rw [if_pos (by decide), found, Option.some_inj] at stored
    have sameExpiry : captured.expiresAt = Instant.after 0 (ofSettings {}).menus.lifetime :=
      congrArg MenuHierarchy.expiresAt stored
    rw [Instant.after_of_le (by decide)] at sameExpiry
    change Instant.after 0 0 = 300000000000 at sameExpiry
    rw [Instant.after_of_le (by decide)] at sameExpiry
    contradiction

/-- A service that has given out menus finds in them at the same instant what a search in them
finds, if it keeps menus for some time or has kept them before.  Otherwise it has none. -/
theorem resolveMenu_after_hierarchyOrFetched {ε : Type} {fetched : Except ε MenuHierarchy}
    (reachable : Reachable settings service) (early : now < Instant.latest)
    (given : service.hierarchyOrFetched applicationId fetched now = (.ok hierarchy, next))
    (text : String) :
    (next.resolveMenu applicationId text now).1 =
      if 0 < settings.hierarchyLifetime ∨
          (service.menus.get applicationId now).1.isSome = true then
        (hierarchy.resolve text settings.menuSuggestions).mapError .menu
      else
        .error (.menuNotKept applicationId) := by
  have limits := reachable.sameLimits
  have step : Step service next := by
    have asked : Step service _ := .hierarchyOrFetched applicationId fetched now
    rwa [given] at asked
  have suggestions : next.menuSuggestions = settings.menuSuggestions :=
    step.sameLimits.menuSuggestions.trans limits.menuSuggestions
  have lifetime : 0 < service.menus.lifetime ↔ 0 < settings.hierarchyLifetime := by
    rw [limits.menuLifetime]
    exact Nat.mul_pos_iff_of_pos_left (by decide)
  rw [resolveMenu_eq, suggestions]
  rcases lookup_after_hierarchyOrFetched early given with ⟨hit, again⟩ | ⟨miss, _, stored⟩
  · rw [again, hit]
    exact (if_pos (Or.inr rfl)).symm
  · rw [stored, miss]
    by_cases positive : 0 < settings.hierarchyLifetime
    · rw [if_pos (lifetime.mpr positive)]
      exact (if_pos (Or.inl positive)).symm
    · rw [if_neg (mt lifetime.mp positive)]
      exact (if_neg (by simp [positive])).symm

end Service

namespace CommandLine

variable {settings : Settings} {surroundings : Surroundings} {file : String}

/-- What is shown of a menu path that was looked up. -/
def shown (hierarchy : MenuHierarchy) (text : String) :
    Except ServiceError MenuResolution → Execution
  | .ok resolution => .done (menuLines hierarchy text resolution)
  | .error error => .failed error.chain []

/-- A service with nothing kept looks a menu path up in the menus of the file, at once if there is a
limit, and otherwise in what it keeps. -/
theorem lookUpMenu_ofSettings (settings : Settings) (surroundings : Surroundings)
    (early : surroundings.now < Instant.latest)
    {contents : MenuFile} (loaded : MenuFile.load surroundings.files file = .ok contents)
    (arguments : Arguments) (text : String) :
    let captured := MenuHierarchy.capturedAt contents.applicationId contents.menus
      (Duration.ofSeconds menuFileLifetime) surroundings.now
    lookUpMenu surroundings (Service.ofSettings settings) arguments file text =
      shown captured text
        (match arguments.count? "limit" with
          | some limit => (captured.resolve text limit).mapError .menu
          | none =>
              if 0 < settings.hierarchyLifetime then
                (captured.resolve text settings.menuSuggestions).mapError .menu
              else
                .error (.menuNotKept contents.applicationId)) := by
  intro captured
  rcases Service.hierarchyOrFetched_ofSettings Empty settings captured.applicationId captured
    surroundings.now with ⟨next, given⟩
  have finds := Service.resolveMenu_after_hierarchyOrFetched Relation.ReflTransGen.refl early given
    text
  have nothing :
      ((Service.ofSettings settings).menus.get captured.applicationId surroundings.now).1 = none :=
    rfl
  rw [nothing] at finds
  simp only [Option.isSome_none, Bool.false_eq_true, or_false] at finds
  unfold lookUpMenu
  rw [loaded]
  simp only [Except.map]
  rw [given]
  simp only [finds]
  rfl

theorem run_menu (surroundings : Surroundings) (service : Service) (arguments : Arguments) :
    Command.menu.run surroundings service arguments =
      match arguments.positionals with
      | [file, text] => lookUpMenu surroundings service arguments file text
      | _ => { failure := some (.usage .missingArgument) } := by
  unfold Command.run
  rcases arguments.positionals with _ | ⟨file, _ | ⟨text, _ | ⟨further, others⟩⟩⟩ <;> rfl

/-- If menus are kept for some time, the limit for suggestions of the settings is the limit of a
look-up that has none of its own. -/
theorem run_menu_of_limit (early : surroundings.now < Instant.latest) {plain limited : Arguments}
    (samePositionals : plain.positionals = limited.positionals)
    (noLimit : plain.count? "limit" = none)
    (limit : limited.count? "limit" = some settings.menuSuggestions)
    (positive : 0 < settings.hierarchyLifetime) :
    Command.menu.run surroundings (Service.ofSettings settings) plain =
      Command.menu.run surroundings (Service.ofSettings settings) limited := by
  rw [run_menu, run_menu, samePositionals]
  split
  · rename_i file text _
    cases loaded : MenuFile.load surroundings.files file with
    | error error =>
        unfold lookUpMenu
        rw [loaded]
        rfl
    | ok contents =>
        rw [lookUpMenu_ofSettings settings surroundings early loaded, noLimit,
          lookUpMenu_ofSettings settings surroundings early loaded, limit]
        simp only [if_pos positive]
  · rfl

/-- A service that has given out menus finds in what it keeps what a search in them finds, and the
command without a limit does what it does with the limit of the settings.  For this, menus have to be
kept for some time; otherwise those that were just fetched are gone. -/
theorem menu_lookups_agree (settings : Settings) {now : Instant} (early : now < Instant.latest) :
    (∀ (service next : Service) (ε : Type) (fetched : Except ε MenuHierarchy)
        (applicationId text : String) (hierarchy : MenuHierarchy),
      Service.Reachable settings service →
      service.hierarchyOrFetched applicationId fetched now = (.ok hierarchy, next) →
      (next.resolveMenu applicationId text now).1 =
        if 0 < settings.hierarchyLifetime ∨
            (service.menus.get applicationId now).1.isSome = true then
          (hierarchy.resolve text settings.menuSuggestions).mapError .menu
        else
          .error (.menuNotKept applicationId)) ∧
    ∀ (files : Files) (draws : List OpaqueId) (plain limited : Arguments),
      plain.positionals = limited.positionals → plain.count? "limit" = none →
      limited.count? "limit" = some settings.menuSuggestions →
      let run := Command.menu.run ⟨files, now, draws⟩ (Service.ofSettings settings)
      (0 < settings.hierarchyLifetime → run plain = run limited) ∧
      ∀ (file text : String) (contents : MenuFile), settings.hierarchyLifetime = 0 →
        plain.positionals = [file, text] → MenuFile.load files file = .ok contents →
        run plain = .failed (ServiceError.menuNotKept contents.applicationId).chain [] := by
  constructor
  · intro service next ε fetched applicationId text hierarchy reachable given
    exact Service.resolveMenu_after_hierarchyOrFetched reachable early given text
  · intro files draws plain limited samePositionals noLimit limit run
    constructor
    · exact run_menu_of_limit early samePositionals noLimit limit
    · intro file text contents notKept positionals loaded
      have atOnce : ¬0 < settings.hierarchyLifetime := by omega
      change Command.menu.run _ _ plain = _
      rw [run_menu, positionals]
      simp only [lookUpMenu_ofSettings settings ⟨files, now, draws⟩ early loaded]
      rw [noLimit]
      simp only [if_neg atOnce]
      rfl

theorem menu_lookups_agree_of_default_settings :
    let captured := MenuHierarchy.capturedAt "app" [{ title := "File" }] 0 0
    0 < Instant.latest ∧ Service.Reachable {} (Service.ofSettings {}) ∧
      ∃ next,
        (Service.ofSettings {}).hierarchyOrFetched "app" (.ok captured : Except Empty _) 0 =
          (.ok captured, next) ∧
        (next.resolveMenu "app" "File" 0).1 = .ok (.exact "File") := by
  intro captured
  have early : 0 < Instant.latest := by decide
  have reachable : Service.Reachable {} (Service.ofSettings {}) := Relation.ReflTransGen.refl
  rcases Service.hierarchyOrFetched_ofSettings Empty {} "app" captured 0 with ⟨next, given⟩
  refine ⟨early, reachable, next, given, ?_⟩
  exact (menu_lookups_agree {} early).1 _ next Empty _ "app" "File" captured reachable given

/-- A service does not always keep the menus that it gives out. -/
theorem not_forall_menu_lookups_agree :
    ¬∀ (settings : Settings) (service next : Service) (applicationId text : String)
        (fetched : Except Empty MenuHierarchy) (hierarchy : MenuHierarchy) (now : Instant),
      settings.isValid = true → Service.Reachable settings service → now < Instant.latest →
      service.hierarchyOrFetched applicationId fetched now = (.ok hierarchy, next) →
      (next.resolveMenu applicationId text now).1 =
        (hierarchy.resolve text settings.menuSuggestions).mapError .menu := by
  intro always
  let settings : Settings := { hierarchyLifetime := 0 }
  let captured := MenuHierarchy.capturedAt "app" [{ title := "File" }] 0 0
  rcases Service.hierarchyOrFetched_ofSettings Empty settings "app" captured 0 with
    ⟨next, given⟩
  have reachable : Service.Reachable settings (Service.ofSettings settings) :=
    Relation.ReflTransGen.refl
  have early : 0 < Instant.latest := by decide
  have found := always settings _ next "app" "File" _ captured 0 (by decide) reachable early given
  rw [Service.resolveMenu_after_hierarchyOrFetched reachable early given] at found
  contradiction

end CommandLine

end Accessibility
