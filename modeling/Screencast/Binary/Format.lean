import Screencast.Powers

/-!
# Binary floating-point numbers

A number of a format is a sign and a magnitude, the magnitude being the place of the number among
the format's nonnegative numbers in increasing order. So the bit pattern is the sign above the
magnitude, and the order of the magnitudes is the order of the numbers.

* `Binary.ofRatio`: the number nearest to a quotient of naturals, a tie going to the even
  significand, an overflow to infinity.
* `Binary.units`: every finite number is a whole number of the format's finest units.
* `roundDiv_mul_le`, `le_roundDiv_mul`: the rounded quotient is within half a unit.
-/

namespace Screencast

/-- The natural number nearest to `num / den`; a tie goes to the even one. -/
def roundDiv (num den : Nat) : Nat :=
  if 2 * (num % den) < den then num / den
  else if den < 2 * (num % den) then num / den + 1
  else num / den + num / den % 2

/-- **Not too high.** The rounded quotient exceeds the quotient by half a unit at most. -/
theorem roundDiv_mul_le (num den : Nat) : 2 * (roundDiv num den * den) ≤ 2 * num + den := by
  have h := Nat.div_add_mod num den
  have hc : num / den * den = den * (num / den) := Nat.mul_comm _ _
  unfold roundDiv
  split
  · omega
  · split
    · rw [Nat.add_mul]; omega
    · have : num / den % 2 < 2 := Nat.mod_lt _ (by omega)
      rcases Nat.eq_zero_or_pos (num / den % 2) with h0 | h0
      · rw [h0]; simp only [Nat.add_zero]; omega
      · have h1 : num / den % 2 = 1 := by omega
        rw [h1, Nat.add_mul]; omega

/-- **Not too low.** The rounded quotient falls short of the quotient by half a unit at most. -/
theorem le_roundDiv_mul (num : Nat) {den : Nat} (h0 : 0 < den) :
    2 * num ≤ 2 * (roundDiv num den * den) + den := by
  have h := Nat.div_add_mod num den
  have hc : num / den * den = den * (num / den) := Nat.mul_comm _ _
  have hm := Nat.mod_lt num h0
  unfold roundDiv
  split
  · omega
  · split
    · rw [Nat.add_mul]; omega
    · rw [Nat.add_mul]
      have : 0 ≤ num / den % 2 * den := Nat.zero_le _
      omega

/-- A binary format: the number of significant bits, the leading one included, and the width of
the exponent field. -/
structure BinaryFormat where
  precision : Nat
  exponentBits : Nat
  deriving DecidableEq, Repr

namespace BinaryFormat

variable (f : BinaryFormat)

/-- The 32-bit format: 24 significant bits. -/
def single : BinaryFormat := ⟨24, 8⟩

/-- The 64-bit format: 53 significant bits. -/
def double : BinaryFormat := ⟨53, 11⟩

/-- The width of a bit pattern, the sign included. -/
def width : Nat := f.precision + f.exponentBits

/-- The finest unit of the format is `1 / 2 ^ places`. -/
def places : Nat := 2 ^ (f.exponentBits - 1) + f.precision - 3

/-- The numbers of finite magnitude with one exponent, and so the step between the first
magnitudes of neighbouring exponents. -/
def binade : Nat := 2 ^ (f.precision - 1)

/-- The magnitude of infinity; those above it are not numbers. -/
def infinity : Nat := (2 ^ f.exponentBits - 1) * f.binade

end BinaryFormat

/-- A number of the format, an infinity, or no number. -/
structure Binary (f : BinaryFormat) where
  negative : Bool
  magnitude : Nat
  magnitude_lt : magnitude < 2 ^ (f.width - 1)
  deriving DecidableEq

/-- A number of 32 bits. -/
abbrev Single := Binary .single

/-- A number of 64 bits. -/
abbrev Double := Binary .double

namespace Binary

variable {f : BinaryFormat}

/-- The number with this sign and magnitude; a magnitude too large for the format is cut to the
largest one. -/
def ofMagnitude (negative : Bool) (m : Nat) : Binary f where
  negative := negative
  magnitude := min m (2 ^ (f.width - 1) - 1)
  magnitude_lt := by
    have : 0 < 2 ^ (f.width - 1) := Nat.two_pow_pos _
    omega

/-- The bit pattern, read as a natural number. -/
def bits (x : Binary f) : Nat :=
  (if x.negative then 2 ^ (f.width - 1) else 0) + x.magnitude

/-- The number with this bit pattern. -/
def ofBits (n : Nat) : Binary f :=
  ofMagnitude (n.testBit (f.width - 1)) (n % 2 ^ (f.width - 1))

def isFinite (x : Binary f) : Bool := x.magnitude < f.infinity

def isInfinite (x : Binary f) : Bool := x.magnitude == f.infinity

def isNaN (x : Binary f) : Bool := f.infinity < x.magnitude

def isZero (x : Binary f) : Bool := x.magnitude == 0

/-- Above zero: neither zero, nor negative, nor no number. -/
def isPositive (x : Binary f) : Bool := !x.negative && !x.isZero && !x.isNaN

def zero (negative : Bool) : Binary f := ofMagnitude negative 0

def infinite (negative : Bool) : Binary f := ofMagnitude negative f.infinity

/-- The pattern written for "not a number". -/
def nan : Binary f := ofMagnitude false (f.infinity + f.binade / 2)

/-- The place of the significand: a finite number is `significand * 2 ^ shift` units. -/
def shift (x : Binary f) : Nat := x.magnitude / f.binade - 1

def significand (x : Binary f) : Nat := x.magnitude - x.shift * f.binade

/-- The absolute value of a finite number, counted in units of `1 / 2 ^ places`. -/
def units (x : Binary f) : Nat := x.significand * 2 ^ x.shift

/-- The number nearest to `num / den` with the given sign. The quotient is counted in the finest
units, its leading `precision` bits are kept, and the rest is rounded, ties to even. -/
def ofRatio (negative : Bool) (num den : Nat) : Binary f :=
  let scaled := num * 2 ^ f.places
  let shift := (scaled / den).log2 - (f.precision - 1)
  let significand := roundDiv scaled (den * 2 ^ shift)
  ofMagnitude negative (min (significand + shift * f.binade) f.infinity)

/-- The number nearest to an integer. -/
def ofInt (n : Int) : Binary f := ofRatio (n < 0) n.natAbs 1

/-- The number nearest to `± coefficient * 10 ^ exponent`. -/
def ofDecimal (negative : Bool) (coefficient : Nat) (exponent : Int) : Binary f :=
  ofRatio negative (coefficient * 10 ^ exponent.toNat) (10 ^ (-exponent).toNat)

@[simp] theorem negative_ofMagnitude (s : Bool) (m : Nat) :
    (ofMagnitude s m : Binary f).negative = s := rfl

theorem magnitude_ofMagnitude {m : Nat} (s : Bool) (h : m < 2 ^ (f.width - 1)) :
    (ofMagnitude s m : Binary f).magnitude = m := by
  simp only [ofMagnitude]; omega

end Binary

end Screencast
