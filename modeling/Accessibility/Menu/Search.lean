import Accessibility.Menu.Path
import Accessibility.Text.EditDistance
import Accessibility.Text.LowerCase

/-!
# Searching menus

A menu path is looked up as it is written, then as a part of other paths whatever the case, and
at last by the likeness of its titles to those of other paths.
-/

namespace Accessibility

namespace MenuPath

/-- The lower-case form of a text. -/
def lowered (text : String) : List Char :=
  Text.lower text.toList

/-- The order of partial matches: paths that begin with the query first, then shorter ones,
then by their characters. -/
def comparePartial (query : List Char) (one other : String) : Ordering :=
  let inside (path : String) : Bool := !query.isPrefixOf (lowered path)
  (compare (inside one) (inside other)).then
    ((compare one.length other.length).then (compare one other))

/-- The paths that contain the query in some case. -/
def partialMatches (query : String) (paths : List String) : List String :=
  let needle := lowered query
  (paths.filter fun path => Text.occursIn needle (lowered path)).mergeSort
    fun one other => (comparePartial needle one other).isLE

/-- The points for two titles: ten if they are equal, five if one contains the other, two if
they are at most two edits apart. -/
def titleScore (title other : List Char) : Nat :=
  if title = other then 10
  else if Text.occursIn other title || Text.occursIn title other then 5
  else if Text.editDistance title other ≤ 2 then 2
  else 0

/-- The lower-case titles of a menu path. -/
def loweredTitles (path : String) : List (List Char) :=
  (components path).map lowered

/-- The sum of the points of the items of a list. -/
def total {α : Type} (points : α → Nat) : List α → Nat
  | [] => 0
  | item :: rest => points item + total points rest

/-- The points of all pairs of a title of the query and one of the path. -/
def score (query path : List (List Char)) : Nat :=
  total (fun title => total (titleScore title) path) query

/-- The order of suggestions: more points first, then shorter ones, then by their characters. -/
def compareScored (one other : Nat × String) : Ordering :=
  (compare other.1 one.1).then
    ((compare one.2.length other.2.length).then (compare one.2 other.2))

/-- The paths with points for the query, the best ones first and at most `limit`. -/
def suggestions (query : String) (paths : List String) (limit : Nat) : List String :=
  let titles := loweredTitles query
  let scored := (paths.map fun path => (score titles (loweredTitles path), path)).filter
    fun candidate => 0 < candidate.1
  ((scored.mergeSort fun one other => (compareScored one other).isLE).take limit).map (·.2)

end MenuPath

/-- What a menu path was found to be. -/
inductive MenuResolution where
  /-- A path of the menus. -/
  | exact (path : String)
  /-- A part of these paths. -/
  | partialMatch (paths : List String)
  /-- Like these paths. -/
  | suggestions (paths : List String)
  deriving DecidableEq, Repr

/-- Checks a menu path and looks it up. -/
def MenuHierarchy.resolve (hierarchy : MenuHierarchy) (text : String) (limit : Nat) :
    Except MenuPath.Failure MenuResolution :=
  match MenuPath.validate text with
  | .error failure => .error failure
  | .ok () =>
      let query := MenuPath.join (MenuPath.components text)
      if hierarchy.containsPath query then
        .ok (.exact query)
      else
        let found := MenuPath.partialMatches query hierarchy.paths
        if !found.isEmpty then
          .ok (.partialMatch (found.take limit))
        else
          let like := MenuPath.suggestions query hierarchy.paths limit
          if like.isEmpty then
            .error (.notFound query hierarchy.applicationId)
          else
            .ok (.suggestions like)

end Accessibility
