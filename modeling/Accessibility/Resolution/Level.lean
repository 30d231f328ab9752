import Accessibility.Path.Error

/-!
# One level of a resolution

A segment meets the elements it may choose from, its candidates.  Here stand the choice itself,
the repairs that are offered when several candidates fit, the advice that goes with a successful
choice, and the candidates that fit almost.
-/

namespace Accessibility

/-- A remark on a segment that led to its element. -/
inductive Warning where
  /-- The index of a segment that fits one element only. -/
  | unnecessaryIndex (segment : Segment) (position : Nat)
  /-- Siblings with the same role as the element. -/
  | potentialAmbiguity (segment : Segment) (position similar : Nat)
  /-- A segment without predicates although the element shows an identifying attribute. -/
  | missingAttribute (segment : Segment) (position : Nat) (identifying : Attribute)
  deriving DecidableEq, Repr

/-- The wording of a warning. -/
def Warning.message : Warning → String
  | unnecessaryIndex segment position =>
      "Segment " ++ toString position ++ " ('" ++ segment.render ++
        "') matches a single element; its index can be removed."
  | potentialAmbiguity segment position similar =>
      "Segment " ++ toString position ++ " ('" ++ segment.render ++ "') has " ++
        toString similar ++
        " sibling(s) with the same role; consider an identifier predicate."
  | missingAttribute segment position identifying =>
      "Segment " ++ toString position ++ " ('" ++ segment.render ++
        "') could be pinned with [@" ++ identifying.name ++ "=...]."

/-- A segment at its position in a path, with the elements it may choose from. -/
structure Level where
  position : Nat
  segment : Segment
  candidates : List Element

namespace Level

/-- The candidates that fit, each with its number among the candidates. -/
def fitting (level : Level) : List (Nat × Element) :=
  (level.candidates.zipIdx.map fun (element, number) => (number, element)).filter
    fun candidate => level.segment.fits candidate.2

/-- The preferred identifying attribute that turns the segment into one that fits exactly one
candidate when the element's text is asked for: its rank, and the segment. -/
def refinement? (level : Level) (element : Element) : Option (Nat × Segment) :=
  let base := level.segment.withoutIndex
  Attribute.identifying.zipIdx.findSome? fun (identifying, rank) =>
    if base.predicates.contains identifying.name then
      none
    else
      match element.text? identifying.name with
      | none => none
      | some text =>
          let refined := base.withPredicate identifying.name text
          if level.candidates.countP refined.fits = 1 then some (rank, refined) else none

/-- The repair that picks the fitting candidate with this number among the fitting ones: a
refinement with its rank or, after all ranks, an index. -/
def repair (level : Level) (number : Nat) (element : Element) : Nat × Segment :=
  (level.refinement? element).getD
    (Attribute.identifying.length, level.segment.withoutIndex.withIndex number)

/-- One replacement of the segment for every fitting candidate, the better ranked ones first and
at most `limit`. -/
def alternatives (level : Level) (limit : Nat) : List Segment :=
  let repairs := level.fitting.zipIdx.map fun (candidate, number) =>
    level.repair number candidate.2
  ((repairs.mergeSort fun one other => one.1 ≤ other.1).take limit).map (·.2)

/-- The candidate that the segment picks: the only one that fits, or the one that its index
names. -/
def choose (level : Level) (limit : Nat) : Except PathError (Nat × Element) :=
  match level.fitting, level.segment.index with
  | [], _ => .error (.noMatch level.segment level.position)
  | [only], none => .ok only
  | several, none =>
      .error (.ambiguous level.segment level.position several.length (level.alternatives limit))
  | several, some requested =>
      match several[requested]? with
      | some chosen => .ok chosen
      | none => .error
          (.indexOutOfRange level.segment level.position requested several.length)

/-- The number of candidates with the same role as the chosen one, itself not counted. -/
def similar (level : Level) (chosen : Element) : Nat :=
  level.candidates.countP (fun candidate => candidate.role = chosen.role) - 1

/-- The remarks on a segment without an index that led to an element. -/
def advice (level : Level) (chosen : Element) : List Warning :=
  let missing :=
    if level.segment.predicates.isEmpty then
      Attribute.identifying.find? fun identifying => (chosen.text? identifying.name).isSome
    else
      none
  let pinned := level.segment.predicates.contains Attribute.identifier.name
  (missing.map (Warning.missingAttribute level.segment level.position)).toList ++
    if 0 < level.similar chosen && !pinned then
      [.potentialAmbiguity level.segment level.position (level.similar chosen)]
    else
      []

/-- The remarks on a segment that led to an element. -/
def warnings (level : Level) (chosen : Element) : List Warning :=
  match level.segment.index with
  | none => level.advice chosen
  | some _ =>
      if level.fitting.length = 1 then
        [.unnecessaryIndex level.segment level.position]
      else
        []

/-- How much of the segment an element has: two points for the role, and one for every
predicate. -/
def score (level : Level) (element : Element) : Nat :=
  (if !level.segment.role.isEmpty && element.role = level.segment.role then 2 else 0) +
    level.segment.predicates.entries.countP fun predicate =>
      element.text? predicate.1 = some predicate.2

/-- Summaries of at most `limit` candidates that do not fit but have some part of the segment,
those with the larger part first. -/
def nearMisses (level : Level) (limit : Nat) : List String :=
  let close := level.candidates.filter fun candidate =>
    !level.segment.fits candidate && 0 < level.score candidate
  ((close.mergeSort fun one other => level.score other ≤ level.score one).take limit).map
    fun candidate => candidate.properties.summary

end Level

end Accessibility
