/-!
# Shortest decimals

The decimal with the fewest digits among those that read back as a given binary64 number, and
of these the one nearest to it.  The number is taken as an integer times a power of two, and all
comparisons are made between natural numbers, so nothing is rounded on the way.
-/

namespace Accessibility

/-- The non-negative number `digits * 10 ^ exponent`. -/
structure Decimal where
  digits : Nat
  exponent : Int
  deriving DecidableEq, Repr

namespace Decimal

/-- Which of two equally near decimals is taken. -/
inductive Tie where
  | up
  | even
  deriving DecidableEq, Repr

/-- A positive number `significand * 2 ^ exponent` with the reals that round to it: up to half a
unit of the significand above, and as much below, or half of that below a number that has
nearer neighbours there. -/
structure Binary where
  significand : Nat
  exponent : Int
  nearerBelow : Bool

/-- The magnitude of a finite number. -/
def Binary.ofFloat (x : Float) : Binary :=
  let bits := x.toBits.toNat
  let fraction := bits % (1 <<< 52)
  let scale : Nat := bits >>> 52 % (1 <<< 11)
  if scale = 0 then
    ⟨fraction, -1074, false⟩
  else
    ⟨1 <<< 52 + fraction, (scale : Int) - 1075, fraction = 0 && 1 < scale⟩

/-- A number with its rounding interval, measured in quarters of a unit of the significand, and
the size of a step of the grid of multiples of `10 ^ exponent` on the same scale. -/
structure Grid where
  exponent : Int
  low : Nat
  value : Nat
  high : Nat
  step : Nat
  closed : Bool

/-- The grid of multiples of `10 ^ exponent` around a number. -/
def Binary.grid (number : Binary) (exponent : Int) : Grid :=
  let quarter := number.exponent - 2
  let scale := Nat.pow 10 (-exponent).toNat <<< quarter.toNat
  { exponent
    low := (4 * number.significand - if number.nearerBelow then 1 else 2) * scale
    value := 4 * number.significand * scale
    high := (4 * number.significand + 2) * scale
    step := Nat.pow 10 exponent.toNat <<< (-quarter).toNat
    closed := number.significand % 2 = 0 }

/-- Whether the grid point with this number reads back as the number. -/
def Grid.holds (grid : Grid) (point : Nat) : Bool :=
  if grid.closed then
    grid.low ≤ point * grid.step && point * grid.step ≤ grid.high
  else
    grid.low < point * grid.step && point * grid.step < grid.high

/-- The neighbour of the value on the grid that reads back as it, the nearer one if both do. -/
def Grid.nearest? (tie : Tie) (grid : Grid) : Option Nat :=
  let below := grid.value / grid.step
  let above := below + 1
  if grid.holds below then
    if grid.holds above then
      let down := grid.value - below * grid.step
      let up := above * grid.step - grid.value
      if down < up then some below
      else if up < down then some above
      else if tie = .even && below % 2 = 0 then some below
      else some above
    else
      some below
  else if grid.holds above then
    some above
  else
    none

/-- Tries ever finer grids, starting with multiples of `10 ^ exponent`. -/
def Binary.search (tie : Tie) (number : Binary) (exponent : Int) : Nat → Decimal
  | 0 => ⟨(number.grid exponent).value / (number.grid exponent).step, exponent⟩
  | tries + 1 =>
      match (number.grid exponent).nearest? tie with
      | some point => ⟨point, exponent⟩
      | none => number.search tie (exponent - 1) tries

/-- The shortest decimal of a positive number.  The first grid is coarser than the number
itself, and seventeen digits always suffice. -/
def Binary.shortest (tie : Tie) (number : Binary) : Decimal :=
  let doublings : Int := number.significand.log2 + number.exponent + 1
  number.search tie (doublings * 30103 / 100000 + 2) 24

end Decimal

end Accessibility
