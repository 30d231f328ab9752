import Accessibility.Path.Parser
import Accessibility.Resolution.Level

/-!
# Resolution

A path is walked down a tree level by level: the element chosen by a segment provides the
candidates of the next one.  The walk never guesses and never goes back, and it is given up when
it exceeds a limit.  It leaves a trace, from which a diagnosis can be written.
-/

namespace Accessibility

/-- The limits of a resolution. -/
structure Budget where
  /-- The greatest length of a path. -/
  maxDepth : Nat := 64
  /-- The greatest number of candidates of all levels together. -/
  maxVisited : Nat := 100000
  /-- The time allowed, in milliseconds.  No time at all is always exceeded. -/
  timeLimit : Option Nat := none
  deriving DecidableEq, Repr

/-- The nanoseconds that have passed at every level of a walk. -/
abbrev Stopwatch :=
  Nat → Nat

/-- The stopwatch of a walk that takes no time. -/
def Stopwatch.instant : Stopwatch :=
  fun _ => 0

/-- What a resolution goes by. -/
structure Resolver where
  budget : Budget := {}
  /-- The greatest number of alternatives and near misses. -/
  maxSuggestions : Nat := 5
  deriving DecidableEq, Repr

/-- The element a path leads to, its position in the tree, and the remarks on the way. -/
structure Resolution where
  element : Element
  position : Element.Position
  warnings : List Warning

/-- The levels a walk has reached, and how it ended. -/
structure Trace where
  levels : List Level
  result : Except PathError Resolution

/-- The trace of a walk that first passes a level. -/
def Trace.after (level : Level) (number : Nat) (warnings : List Warning) (trace : Trace) : Trace :=
  { levels := level :: trace.levels
    result := trace.result.map fun resolution =>
      { resolution with
        position := number :: resolution.position
        warnings := warnings ++ resolution.warnings } }

namespace Resolver

/-- Whether the limits allow a level, with the candidates visited so far and the time passed. -/
def check (resolver : Resolver) (visited elapsed : Nat) : Except PathError Unit :=
  if resolver.budget.maxVisited < visited then
    .error (.abandoned (.visits resolver.budget.maxVisited))
  else
    match resolver.budget.timeLimit with
    | some limit =>
        if limit * 1000000 ≤ elapsed then .error (.abandoned (.time limit)) else .ok ()
    | none => .ok ()

/-- Tries to pass a level: the levels that count as reached, and the choice made there. -/
def pass (resolver : Resolver) (visited elapsed : Nat) (level : Level) :
    List Level × Except PathError (Nat × Element) :=
  match resolver.check visited elapsed with
  | .error error => ([], .error error)
  | .ok () => ([level], level.choose resolver.maxSuggestions)

/-- Walks from the candidates of the first segment down to the last one.  `visited` counts the
candidates of the levels above.  A path has a first segment, so the walk begins at some level: it
ends with an element or with the error of a level, and in no other way. -/
def walk (resolver : Resolver) (stopwatch : Stopwatch) (position visited : Nat)
    (candidates : List Element) (segment : Segment) : List Segment → Trace
  | [] =>
      let level : Level := ⟨position, segment, candidates⟩
      match resolver.pass (visited + candidates.length) (stopwatch position) level with
      | (levels, .error error) => ⟨levels, .error error⟩
      | (levels, .ok (number, chosen)) =>
          ⟨levels, .ok ⟨chosen, [number], level.warnings chosen⟩⟩
  | next :: others =>
      let level : Level := ⟨position, segment, candidates⟩
      match resolver.pass (visited + candidates.length) (stopwatch position) level with
      | (levels, .error error) => ⟨levels, .error error⟩
      | (_, .ok (number, chosen)) =>
          (walk resolver stopwatch (position + 1) (visited + candidates.length)
            chosen.children next others).after level number (level.warnings chosen)

/-- The position in a tree that a walk has reached with these numbers of chosen candidates.  The
root itself is a candidate unless it stands for the screen. -/
def positionIn (root : Element) (chosen : List Nat) : Element.Position :=
  if root.isSystemWide then chosen else chosen.tail

/-- The trace of resolving a path in a tree. -/
def trace (resolver : Resolver) (path : Path) (root : Element)
    (stopwatch : Stopwatch := Stopwatch.instant) : Trace :=
  if resolver.budget.maxDepth < path.length then
    ⟨[], .error (.abandoned (.depth path.length resolver.budget.maxDepth))⟩
  else
    let trace := resolver.walk stopwatch 0 0 root.topLevel path.first path.rest
    { trace with
      result := trace.result.map fun resolution =>
        { resolution with position := positionIn root resolution.position } }

/-- Resolves a path to exactly one element of a tree. -/
def resolve (resolver : Resolver) (path : Path) (root : Element)
    (stopwatch : Stopwatch := Stopwatch.instant) : Except PathError Resolution :=
  (resolver.trace path root stopwatch).result

/-- Reads a path and resolves it. -/
def resolveText (resolver : Resolver) (text : String) (root : Element)
    (stopwatch : Stopwatch := Stopwatch.instant) : Except PathError Resolution := do
  let path ← Path.parse text
  resolver.resolve path root stopwatch

end Resolver

end Accessibility
