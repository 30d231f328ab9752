/-!
# Edit distance

The least number of insertions, deletions and substitutions of characters that turn one text
into another, computed row by row.
-/

namespace Accessibility.Text

/-- The cells after the first of the row for character `c`: `left` is the cell before, and the
list holds the cells of the row above, from the one above `left` on. -/
def distanceCells (c : Char) : Nat → List Char → List Nat → List Nat
  | left, d :: target, corner :: above :: upper =>
      let cell := min (min (above + 1) (left + 1)) (corner + if c = d then 0 else 1)
      cell :: distanceCells c cell target (above :: upper)
  | _, _, _ => []

/-- The rows of the table below `upper`, of which only the last is kept. -/
def distanceRow (target : List Char) : Nat → List Nat → List Char → List Nat
  | _, upper, [] => upper
  | row, upper, c :: source =>
      distanceRow target (row + 1)
        ((row + 1) :: distanceCells c (row + 1) target upper) source

/-- The edit distance of two texts, in characters. -/
def editDistance (source target : List Char) : Nat :=
  (distanceRow target 0 (List.range (target.length + 1)) source).getLastD 0

example : editDistance "kitten".toList "sitting".toList = 3 := by decide +kernel

end Accessibility.Text
