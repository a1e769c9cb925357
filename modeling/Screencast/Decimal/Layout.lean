import Screencast.Decimal.Shortest

/-!
# Laying out a number in decimal

The shortest digits of a number can be written positionally, or with one digit before the point
and an exponent. A `Layout` says which, and how a whole number and a tie are treated. Apart from
it stands the text with a fixed count of places, which rounds the exact value.

* `Layout.plain`: positional throughout, no point after a whole number.
* `Binary.numeral`: the numeral of a finite number in a layout.
* `Binary.text`, `Binary.fixedText`: the texts used in messages.
-/

namespace Screencast

/-- How a format writes the shortest digits of a number. `0.d₁d₂… × 10 ^ k` is positional when `k`
is above the first bound and at most the second one. -/
structure Layout where
  tie : Tie
  positional : Option (Int × Int)
  /-- Whether a whole number is written with `.0`. -/
  pointAlways : Bool

namespace Layout

/-- Positional throughout, and no point after a whole number. Of two nearest decimals the upper
one is written. -/
def plain : Layout := ⟨.up, none, false⟩

/-- Whether a decimal with its point at `k` is written positionally. -/
def isPositional (l : Layout) (k : Int) : Bool :=
  match l.positional with
  | none => true
  | some (low, high) => low < k && k ≤ high

/-- The fraction written after a whole number. -/
def emptyFraction (l : Layout) : List Digit := if l.pointAlways then [0] else []

/-- The numeral of a positive decimal. -/
def numeral (l : Layout) (negative : Bool) (d : Decimal) : Numeral :=
  let n : Int := d.digits.length
  if l.isPositional d.point then
    if d.point ≤ 0 then
      ⟨negative, [0], List.replicate (-d.point).toNat 0 ++ d.digits, none⟩
    else if n ≤ d.point then
      ⟨negative, d.digits ++ List.replicate (d.point - n).toNat 0, l.emptyFraction, none⟩
    else
      ⟨negative, d.digits.take d.point.toNat, d.digits.drop d.point.toNat, none⟩
  else ⟨negative, d.digits.take 1, d.digits.drop 1, some (d.point - 1)⟩

end Layout

namespace Binary

variable {f : BinaryFormat} (x : Binary f)

/-- The numeral of a finite number. -/
def numeral (l : Layout) : Numeral :=
  if x.isZero then ⟨x.negative, [0], l.emptyFraction, none⟩
  else l.numeral x.negative (x.shortest l.tie)

/-- The text of what has no digits, with its sign. -/
def specialText : String :=
  if x.isNaN then "NaN" else if x.negative then "-inf" else "inf"

/-- The text of a number in a message: its shortest digits, positional throughout. -/
def text : String := if x.isFinite then (x.numeral .plain).text else x.specialText

/-- The exact value rounded to `places` places, a tie going to the even digit. -/
def fixedText (places : Nat) : String :=
  if x.isFinite then
    let n := roundDiv (x.units * 10 ^ places) (2 ^ f.places)
    let rest := digits (n % 10 ^ places)
    let fraction := List.replicate (places - rest.length) 0 ++ rest
    (⟨x.negative, digits (n / 10 ^ places), fraction, none⟩ : Numeral).text
  else x.specialText

end Binary

end Screencast
