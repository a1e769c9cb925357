import Screencast.Powers

/-!
# Decimal numerals

The written form of a number: a sign, the digits before and after the point, and an exponent.

* `digits_toNat`: the digits of a natural number read back as that number.
-/

namespace Screencast

/-- A decimal digit. -/
abbrev Digit := Fin 10

namespace Digit

instance : @NeZero Nat Zero.ofOfNat0 10 := ⟨by decide⟩

/-- The digit's character. -/
def toChar (d : Digit) : Char := Char.ofNat (48 + d.val)

/-- The digit that a character stands for, if it is one of `0` to `9`. -/
def ofChar? (c : Char) : Option Digit :=
  if h : 48 ≤ c.toNat ∧ c.toNat < 58 then some ⟨c.toNat - 48, by omega⟩ else none

theorem ofChar?_toChar (d : Digit) : ofChar? d.toChar = some d := by revert d; decide

end Digit

/-- The natural number that digits stand for, the leading one first. -/
def toNat (ds : List Digit) : Nat := ds.foldl (fun n d => 10 * n + d.val) 0

/-- The digits of a natural number, the leading one first; zero has the one digit `0`. -/
def digits (n : Nat) : List Digit :=
  if h : n < 10 then [⟨n, h⟩] else digits (n / 10) ++ [⟨n % 10, Nat.mod_lt _ (by omega)⟩]

/-- **Digits read back.** -/
theorem toNat_digits (n : Nat) : toNat (digits n) = n := by
  induction n using Nat.strongRecOn with
  | ind n ih =>
    rw [digits]
    split
    · simp [toNat]
    · have := ih (n / 10) (by omega)
      simp only [toNat, List.foldl_append, List.foldl_cons, List.foldl_nil] at this ⊢
      omega

/-- A number as it is written. The whole part has a digit at least; a numeral without a fraction
has no point. -/
structure Numeral where
  negative : Bool
  whole : List Digit
  fraction : List Digit
  exponent : Option Int
  deriving DecidableEq

namespace Numeral

/-- The numeral of a natural number. -/
def ofNat (n : Nat) : Numeral := ⟨false, digits n, [], none⟩

/-- The exponent as it is written: always with its sign. -/
def exponentText (e : Int) : List Char :=
  'e' :: (if e < 0 then '-' else '+') :: (digits e.natAbs).map Digit.toChar

/-- The characters of a numeral. -/
def chars (n : Numeral) : List Char :=
  (if n.negative then ['-'] else []) ++ n.whole.map Digit.toChar ++
    (if n.fraction.isEmpty then [] else '.' :: n.fraction.map Digit.toChar) ++
    (n.exponent.elim [] exponentText)

def text (n : Numeral) : String := String.ofList n.chars

/-- The natural number that a plain numeral stands for: one without sign, point and exponent. -/
def toNat? (n : Numeral) : Option Nat :=
  if n.negative || !n.fraction.isEmpty || n.exponent.isSome then none else some (toNat n.whole)

theorem toNat?_ofNat (n : Nat) : (ofNat n).toNat? = some n := by
  simp [toNat?, ofNat, toNat_digits]

end Numeral

/-- A natural number in decimal. -/
def decimal (n : Nat) : String := (Numeral.ofNat n).text

/-- An integer in decimal, a minus sign before a negative one. -/
def decimalInt (n : Int) : String := { Numeral.ofNat n.natAbs with negative := n < 0 }.text

end Screencast
