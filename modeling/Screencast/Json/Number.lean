import Screencast.Binary.Arithmetic
import Screencast.Decimal.Layout
import Screencast.Json.Value

/-!
# Numbers with a fraction in JSON

A number is written with the shortest digits that read back, with a point or an exponent always; an
infinity or what is no number is written as `null`.

Reading is quick rather than exact: as many leading digits as fit 64 bits are taken as an integer,
the integer is rounded to 64-bit floating point, and one multiplication or division by a rounded
power of ten follows. A plain integer of 64 bits is rounded once, to the width asked for.

* `Numeral.toDouble?`: the number read, unless it is too large.
* `Json.double?`, `Json.single?`: the readers of fields of the two widths.
* `Json.ofDouble`, `Json.ofSingle`: their written forms.
-/

namespace Screencast

namespace Numeral

/-- The largest integer that the leading digits may make. -/
def significandBound : Nat := 2 ^ 64 - 1

/-- Appends digits to an integer as long as it stays within the bound; the other digits are
left over. -/
def gather (n : Nat) : List Digit → Nat × List Digit
  | [] => (n, [])
  | d :: ds =>
    if 10 * n + d.val ≤ significandBound then gather (10 * n + d.val) ds else (n, d :: ds)

/-- The leading digits as an integer, and the power of ten that it still has to be multiplied by.
Digits of the whole part that are left over raise the exponent, digits of the fraction that were
taken lower it. -/
def leading (n : Numeral) : Nat × Int :=
  let (a, wholeRest) := gather 0 n.whole
  let (b, fractionRest) := gather a n.fraction
  (b, (wholeRest.length : Int) - (n.fraction.length - fractionRest.length : Nat) +
    n.exponent.getD 0)

/-- The largest power of ten that is finite in 64 bits. -/
def lastPower : Nat := 308

/-- A power of ten in 64-bit floating point. -/
def powerOfTen (n : Nat) : Double := Binary.ofRatio false (10 ^ n) 1

/-- Multiplies by a power of ten, or divides by it. A power that is out of range is taken in
steps when dividing; there is no result when the product is too large. -/
def scale (x : Double) (e : Int) : Option Double :=
  if x.isZero then some x
  else if 0 ≤ e then
    if e ≤ lastPower then
      let y := x * powerOfTen e.toNat
      if y.isInfinite then none else some y
    else none
  else if -e ≤ lastPower then some (x / powerOfTen (-e).toNat)
  else scale (x / powerOfTen lastPower) (e + lastPower)
termination_by e.natAbs
decreasing_by simp only [lastPower] at *; omega

/-- A numeral of the integers from `-2 ^ 63` to `2 ^ 64 - 1`; a negative one is not zero. -/
def toInt? (n : Numeral) : Option Int :=
  if !n.fraction.isEmpty || n.exponent.isSome then none
  else
    let m := toNat n.whole
    if n.negative then if 0 < m && m ≤ 2 ^ 63 then some (-(m : Int)) else none
    else if m ≤ significandBound then some m else none

/-- The number read in 64-bit floating point. -/
def toDouble? (n : Numeral) : Option Double := do
  let (coefficient, e) := n.leading
  let x ← scale (Binary.ofRatio false coefficient 1) e
  return if n.negative then -x else x

end Numeral

namespace Json

/-- A number with a fraction of 64 bits. -/
def double? : Json → Option Double
  | .number n =>
    match n.toInt? with
    | some i => some (Binary.ofInt i)
    | none => n.toDouble?
  | _ => none

/-- A number with a fraction of 32 bits, read by way of 64 unless it is a plain integer. -/
def single? : Json → Option Single
  | .number n =>
    match n.toInt? with
    | some i => some (Binary.ofInt i)
    | none => n.toDouble?.map Binary.toFormat
  | _ => none

/-- Positional up to sixteen digits before the point and four zeros after it. -/
def doubleLayout : Layout := ⟨.even, some (-5, 16), true⟩

/-- Positional up to thirteen digits before the point and five zeros after it. -/
def singleLayout : Layout := ⟨.even, some (-6, 13), true⟩

def ofDouble (x : Double) : Json :=
  if x.isFinite then .number (x.numeral doubleLayout) else .null

def ofSingle (x : Single) : Json :=
  if x.isFinite then .number (x.numeral singleLayout) else .null

end Json

end Screencast
