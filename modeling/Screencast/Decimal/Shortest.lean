import Screencast.Binary.Format
import Screencast.Decimal.Numeral

/-!
# The fewest digits that read back

A finite binary number has a whole interval of reals that round to it, its ends included when its
significand is even. Among the decimals in the interval those with the fewest digits are on the
coarsest grid `10 ^ j` that meets it, and of these the nearest to the number is taken.

* `Shortest.onGrid`: the nearest point of one grid that lies in the interval.
* `Shortest.find`: the coarsest grid that has one.
* `Binary.shortest`: the digits, and the place of the point before them.
-/

namespace Screencast

/-- Which of two equally near decimals is taken. -/
inductive Tie
  | up
  | even
  deriving DecidableEq

/-- A positive decimal `0.d₁d₂… × 10 ^ point`, without a zero at either end. -/
structure Decimal where
  digits : List Digit
  point : Int
  deriving DecidableEq

/-- The reals that round to one number, all counted in the same unit: the number itself and the
two ends. -/
structure Shortest where
  value : Nat
  low : Nat
  high : Nat
  closed : Bool

namespace Shortest

variable (s : Shortest)

/-- Inside the interval. -/
def contains (n : Nat) : Bool :=
  if s.closed then s.low ≤ n && n ≤ s.high else s.low < n && n < s.high

/-- The multiple of `10 ^ j` in the interval that is nearest to the number, divided by `10 ^ j`.
Only the two multiples around the number can be it. -/
def onGrid (tie : Tie) (j : Nat) : Option Nat :=
  let step := 10 ^ j
  let below := s.value / step
  let rest := s.value % step
  let upper : Bool := match tie with
    | .up => decide (step ≤ 2 * rest)
    | .even => decide (step < 2 * rest) || (decide (step = 2 * rest) && decide (below % 2 = 1))
  match s.contains (below * step), s.contains ((below + 1) * step) with
  | true, true => some (if upper then below + 1 else below)
  | true, false => some below
  | false, true => some (below + 1)
  | false, false => none

/-- The coefficient on the coarsest of the grids `10 ^ 0` to `10 ^ j` that meets the interval, and
the grid's exponent. -/
def find (tie : Tie) : Nat → Nat × Nat
  | 0 => (s.value, 0)
  | j + 1 => match s.onGrid tie (j + 1) with
    | some c => (c, j + 1)
    | none => find tie j

end Shortest

namespace Binary

variable {f : BinaryFormat} (x : Binary f)

/-- The decimal places that the interval's ends need: halves and quarters of the finest unit have
two places more than the unit. -/
def intervalPlaces (_ : Binary f) : Nat := f.places + 2

/-- The interval of a finite number, counted in units of `1 / 10 ^ intervalPlaces`. The neighbour
below is only half as far away where the exponent changes. -/
def interval : Shortest :=
  let quarter := 25 * 5 ^ f.places
  let value := 4 * x.units
  let step := 2 ^ x.shift
  let low := if x.significand = f.binade ∧ 0 < x.shift then value - step else value - 2 * step
  { value := value * quarter
    low := low * quarter
    high := (value + 2 * step) * quarter
    closed := x.significand % 2 = 0 }

/-- The digits without the zeros at their end. -/
def dropTrailingZeros (ds : List Digit) : List Digit :=
  (ds.reverse.dropWhile (· = 0)).reverse

/-- The shortest decimal that reads back as the positive finite number `x`, nearest to it among
the shortest. -/
def shortest (tie : Tie) : Decimal :=
  let (c, j) := x.interval.find tie (digits x.interval.value).length
  let ds := digits c
  { digits := dropTrailingZeros ds
    point := (ds.length : Int) + j - x.intervalPlaces }

end Binary

end Screencast
