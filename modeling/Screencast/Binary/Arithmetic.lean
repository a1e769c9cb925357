import Screencast.Binary.Format

/-!
# Arithmetic on binary numbers

Each operation is the exact one followed by one rounding to nearest. An operand or a result that is
no finite number follows the usual rules: infinity times zero and zero over zero are not numbers,
a finite number over zero is infinite.

* `Binary.mul`, `Binary.div`: product and quotient in the operands' format.
* `Binary.toFormat`: the same number in another format.
* `Binary.truncate`: the whole part, held between zero and a bound.
-/

namespace Screencast

namespace Binary

variable {f g : BinaryFormat}

/-- The product, rounded to nearest. -/
def mul (x y : Binary f) : Binary f :=
  let sign := x.negative != y.negative
  if x.isNaN || y.isNaN then nan
  else if x.isInfinite || y.isInfinite then
    if x.isZero || y.isZero then nan else infinite sign
  else ofRatio sign (x.units * y.units) (2 ^ (2 * f.places))

/-- The quotient, rounded to nearest. -/
def div (x y : Binary f) : Binary f :=
  let sign := x.negative != y.negative
  if x.isNaN || y.isNaN then nan
  else if x.isInfinite then
    if y.isInfinite then nan else infinite sign
  else if y.isInfinite then zero sign
  else if y.isZero then
    if x.isZero then nan else infinite sign
  else ofRatio sign x.units y.units

instance : Mul (Binary f) := ⟨mul⟩

instance : Div (Binary f) := ⟨div⟩

/-- The number of the format `g` nearest to `x`. -/
def toFormat (x : Binary f) : Binary g :=
  if x.isNaN then nan
  else if x.isInfinite then infinite x.negative
  else ofRatio x.negative x.units (2 ^ f.places)

/-- The same number with the sign reversed. -/
def neg (x : Binary f) : Binary f := { x with negative := !x.negative }

instance : Neg (Binary f) := ⟨neg⟩

/-- The whole part of `x`, cut off toward zero and held in `[0, bound]`. What is no number
gives zero. -/
def truncate (bound : Nat) (x : Binary f) : Nat :=
  if x.isNaN || x.negative then 0
  else if x.isInfinite then bound
  else min (x.units / 2 ^ f.places) bound

theorem truncate_le (bound : Nat) (x : Binary f) : x.truncate bound ≤ bound := by
  unfold truncate; split
  · omega
  · split <;> omega

end Binary

end Screencast
