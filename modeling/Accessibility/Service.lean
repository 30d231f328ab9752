import Accessibility.Capture
import Accessibility.Menu.Cache
import Accessibility.Menu.Search
import Accessibility.Resolution.Report
import Accessibility.Settings.Basic
import Accessibility.Token.Cache

/-!
# The addressing service

One value with everything that clients ask for: paths are resolved, menu paths are looked up in
hierarchies that are kept for a while, and tokens stand for paths.  Operations that change what
is kept return the service to go on with.  The time and the random draws are arguments.
-/

namespace Accessibility

/-- What goes wrong in the service. -/
inductive ServiceError where
  | path (error : PathError)
  | menu (failure : MenuPath.Failure)
  | token (error : TokenError)
  | capture (error : CaptureError)
  /-- No valid hierarchy is kept for the application. -/
  | menuNotKept (applicationId : String)

namespace ServiceError

/-- The wording of an error. -/
def message : ServiceError → String
  | path error => error.message
  | menu failure => failure.message
  | token error => error.message
  | capture error => error.message
  | menuNotKept applicationId => "No menu hierarchy cached for '" ++ applicationId ++ "'."

/-- The wording of an error and of its cause. -/
def chain (error : ServiceError) : List String :=
  match error with
  | capture error => error.chain
  | path _ | menu _ | token _ | menuNotKept _ => [error.message]

/-- The error of a source, as an error of paths if it is one. -/
def ofCapture (error : CaptureError) : ServiceError :=
  match error.asPathError? with
  | some error => path error
  | none => capture error

end ServiceError

/-- The service. -/
structure Service where
  menus : MenuCache
  tokens : TokenCache
  resolver : Resolver
  /-- The number of menu paths suggested in place of an unknown one. -/
  menuSuggestions : Nat

namespace Service

/-- The service with these settings, with nothing kept. -/
def ofSettings (settings : Settings) : Service where
  menus := MenuCache.ofCapacity settings.hierarchyCapacity
    (Duration.ofSeconds settings.hierarchyLifetime)
  tokens := TokenCache.ofCapacity settings.tokenCapacity
  resolver := { budget := settings.budget, maxSuggestions := settings.pathSuggestions }
  menuSuggestions := settings.menuSuggestions

/-! ## Elements -/

/-- Resolves the text of a path. -/
def resolve (service : Service) (text : String) (root : Element) : Outcome :=
  Outcome.ofResult (service.resolver.resolveText text root)

/-- Follows the text of a path level by level. -/
def diagnose (service : Service) (text : String) (root : Element) :
    Except PathError Diagnosis :=
  (Path.parse text).map fun path => service.resolver.diagnose path root

/-- Takes a tree from a source, as deep as paths may be long. -/
def capture (service : Service) (source : Source) (scope : Scope) :
    Except ServiceError Element :=
  (source scope service.resolver.budget.maxDepth).mapError ServiceError.ofCapture

/-! ## Menus -/

/-- Looks a menu path up in the hierarchy kept for an application. -/
def resolveMenu (applicationId text : String) (now : Instant) (service : Service) :
    Except ServiceError MenuResolution × Service :=
  match service.menus.get applicationId now with
  | (none, menus) => (.error (.menuNotKept applicationId), { service with menus })
  | (some hierarchy, menus) =>
      ((hierarchy.resolve text service.menuSuggestions).mapError .menu, { service with menus })

/-- The hierarchy kept for an application, or else the fetched one, which is kept from now
on. -/
def hierarchyOrFetched {ε : Type} (applicationId : String) (fetched : Except ε MenuHierarchy)
    (now : Instant) (service : Service) : Except ε MenuHierarchy × Service :=
  match service.menus.get applicationId now with
  | (some hierarchy, menus) => (.ok hierarchy, { service with menus })
  | (none, menus) =>
      match fetched with
      | .error error => (.error error, { service with menus })
      | .ok hierarchy =>
          (.ok hierarchy, { service with menus := menus.put applicationId hierarchy now })

/-! ## Tokens -/

/-- The token of a path.  The draws that were not needed are returned; there is no result if
they do not suffice. -/
def encode? (path : String) (draws : List OpaqueId) (service : Service) :
    Option (String × List OpaqueId × Service) :=
  (service.tokens.obtain? path draws).map fun (id, rest, tokens) =>
    (id.encode, rest, { service with tokens })

/-- The path of a token. -/
def decode (token : String) (service : Service) : Except TokenError String × Service :=
  let (result, tokens) := service.tokens.decode token
  (result, { service with tokens })

/-- Resolves the path of a token. -/
def resolveToken (token : String) (root : Element) (service : Service) :
    Except ServiceError Resolution × Service :=
  match service.decode token with
  | (.error error, service) => (.error (.token error), service)
  | (.ok path, service) => ((service.resolver.resolveText path root).mapError .path, service)

end Service

end Accessibility
