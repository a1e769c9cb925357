import Screencast.Failure

/-!
# Quantities with a unit

A bit rate may be given as a plain number, or in millions with an `m` at its end. The number before
the unit is read and multiplied in 64 bits, and the result has 32.

* `Quantity.parse?`: the number that a text stands for, at most a word.
-/

namespace Screencast

namespace Quantity

/-- The factor that the last character stands for, and the characters before it. -/
def splitUnit (cs : List Char) : List Char × UInt64 :=
  match cs.getLast? with
  | some 'm' => (cs.dropLast, 1000000)
  | some 'M' => (cs.dropLast, 1000000)
  | _ => (cs, 1)

/-- A plus sign may stand before the digits. -/
def dropPlus : List Char → List Char
  | '+' :: cs => cs
  | cs => cs

/-- One or more digits. -/
def digits? : List Char → Option (List Digit)
  | [] => none
  | cs => cs.mapM Digit.ofChar?

/-- The number that digits stand for, if it has 64 bits at most. -/
def longWord? (ds : List Digit) : Option UInt64 :=
  if toNat ds < 2 ^ 64 then some (UInt64.ofNat (toNat ds)) else none

/-- The product, if it has 64 bits at most. -/
def times? (n factor : UInt64) : Option UInt64 :=
  if n.toNat * factor.toNat < 2 ^ 64 then some (n * factor) else none

/-- The same number in 32 bits, if it has no more. -/
def narrow? (n : UInt64) : Option UInt32 :=
  if n.toNat < 2 ^ 32 then some n.toUInt32 else none

/-- The number that a text stands for, if it fits in a word. -/
def parse? (s : String) : Option UInt32 := do
  let (cs, factor) := splitUnit s.toList
  let ds ← digits? (dropPlus cs)
  let n ← longWord? ds
  let scaled ← times? n factor
  narrow? scaled

/-- The number, or a failure that quotes the text. -/
def parse (s : String) : Outcome UInt32 :=
  match parse? s with
  | some n => .ok n
  | none => .error ⟨.settings, s!"unrecognized value: {s}"⟩

end Quantity

end Screencast
