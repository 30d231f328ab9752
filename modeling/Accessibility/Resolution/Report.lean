import Accessibility.Resolution.Resolver

/-!
# Reports on a resolution

How the result of a resolution is told to a client: as an outcome, or as a diagnosis that
follows the walk level by level.
-/

namespace Accessibility

/-- The result of a resolution in the order in which a client reacts to it. -/
inductive Outcome where
  /-- The path leads to one element. -/
  | resolved (resolution : Resolution)
  /-- A segment fits several elements; each suggestion replaces it by one that fits one. -/
  | ambiguous (position count : Nat) (suggestions : List String)
  /-- A segment fits nothing, or its index is out of range. -/
  | notFound (position : Nat) (reason : String)
  /-- The path is malformed, or the walk could not be made. -/
  | failed (error : PathError)

/-- The outcome of a result. -/
def Outcome.ofResult : Except PathError Resolution → Outcome
  | .ok resolution => .resolved resolution
  | .error (.ambiguous _ position count alternatives) =>
      .ambiguous position count (alternatives.map Segment.render)
  | .error error@(.noMatch _ position) => .notFound position error.message
  | .error error@(.indexOutOfRange _ position _ _) => .notFound position error.message
  | .error error => .failed error

/-- What happened at one level. -/
structure Step where
  position : Nat
  segment : Segment
  candidates : Nat
  fitting : Nat
  nearMisses : List String
  deriving DecidableEq, Repr

/-- What happened at a level, with at most `limit` near misses. -/
def Level.step (level : Level) (limit : Nat) : Step where
  position := level.position
  segment := level.segment
  candidates := level.candidates.length
  fitting := level.fitting.length
  nearMisses := level.nearMisses limit

/-- The steps of a resolution, and the error that ended it, if one did. -/
structure Diagnosis where
  steps : List Step
  error : Option PathError
  deriving DecidableEq, Repr

/-- Whether the path leads to an element. -/
def Diagnosis.isSuccess (diagnosis : Diagnosis) : Bool :=
  diagnosis.error.isNone

/-- Resolves a path and reports on every level that was reached. -/
def Resolver.diagnose (resolver : Resolver) (path : Path) (root : Element)
    (stopwatch : Stopwatch := Stopwatch.instant) : Diagnosis :=
  let trace := resolver.trace path root stopwatch
  { steps := trace.levels.map (Level.step · resolver.maxSuggestions)
    error := match trace.result with
      | .ok _ => none
      | .error error => some error }

end Accessibility
