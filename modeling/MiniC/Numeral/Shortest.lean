/-
The fewest digits that tell a double from every other double.
-/
import MiniC.Numeral.Decimal

namespace MiniC.Shortest

/-- The numbers that round to a finite double, in quarters of the unit of its
last bit: the double is the middle one of three multiples of `2 ^ exponent`,
and the ends belong to it exactly when its significand is even.  Where the
significand is the least of its exponent the doubles below are closer
together. -/
structure Interval where
  lower : Nat
  middle : Nat
  upper : Nat
  closed : Bool
  exponent : Int
deriving DecidableEq, Repr

/-- The interval around a double. -/
def Interval.around (x : Binary64) : Interval :=
  let s := x.significand
  { lower := if s = Nat.pow 2 52 then 4 * s - 1 else 4 * s - 2
    middle := 4 * s
    upper := 4 * s + 2
    closed := s % 2 == 0
    exponent := x.exponent - 2 }

/-- An interval over a decimal grid: the bounds and one step of the grid, all as
multiples of one small unit. -/
structure Grid where
  lower : Nat
  middle : Nat
  upper : Nat
  closed : Bool
  step : Nat
deriving DecidableEq, Repr

/-- Lay the grid of multiples of `10 ^ k` over an interval.  The common unit
takes the denominators of both powers. -/
def Interval.grid (interval : Interval) (k : Int) : Grid :=
  let factor := Nat.pow 2 interval.exponent.toNat * Nat.pow 10 (-k).toNat
  { lower := interval.lower * factor
    middle := interval.middle * factor
    upper := interval.upper * factor
    closed := interval.closed
    step := Nat.pow 10 k.toNat * Nat.pow 2 (-interval.exponent).toNat }

/-- Whether a point lies in the interval. -/
def Grid.contains (grid : Grid) (point : Nat) : Bool :=
  if grid.closed then grid.lower ≤ point && point ≤ grid.upper
  else grid.lower < point && point < grid.upper

/-- The grid point of the interval that is nearest to the middle, as a number of
steps.  If any lies in the interval, so does one of the two around the middle;
of these the nearer counts, and the larger where they are equally near. -/
def Grid.nearest? (grid : Grid) : Option Nat :=
  let below := grid.middle / grid.step
  let above := below + 1
  let past := grid.middle - below * grid.step
  match grid.contains (below * grid.step), grid.contains (above * grid.step) with
  | true, true => some (if 2 * past < grid.step then below else above)
  | true, false => some below
  | false, true => some above
  | false, false => none

/-- How many decimal places a positive number `n * 2 ^ e` has before the point,
negative if it begins with zeros after it. -/
def places (n : Nat) (e : Int) : Int :=
  if 0 ≤ e then Decimal.digitCount (n * Nat.pow 2 e.toNat)
  else
    let whole := n / Nat.pow 2 (-e).toNat
    if whole ≠ 0 then Decimal.digitCount whole
    else
      -- The first place is where ten to that power makes the number one or more.
      let scaled := n * Nat.pow 10 400 / Nat.pow 2 (-e).toNat
      (Decimal.digitCount scaled : Int) - 400

/-- Try grids of more and more digits, as many times as `tries` says. -/
def search (interval : Interval) (top : Int) :
    (tries digits : Nat) → Option (Nat × Int)
  | 0, _ => none
  | tries + 1, digits =>
      let k := top - digits
      match (interval.grid k).nearest? with
      | some steps => some (steps, k)
      | none => search interval top tries (digits + 1)

/-- The fewest digits that read back as the double `x`, which is finite and not
zero, with the power of ten that belongs to them.  Seventeen digits are always
enough. -/
def digits (x : Binary64) : Nat × Int :=
  let interval := Interval.around x
  let top := places interval.middle interval.exponent
  (search interval top 17 1).getD (0, 0)

end MiniC.Shortest
