import Screencast.Proofs.Conduct.Session

/-!
# Readings of the clock

A reading of the clock has 64 bits with a sign, and so has what is computed of readings. A sum or a
difference that 64 bits hold is the one of the numbers that were read.

* `Held`: the numbers that 64 bits hold.
* `microseconds_sub`: how far two readings are apart.
* `Session.deadline_eq`, `Session.deadline_le`: the end of a time limit.
-/

namespace Screencast

/-- A number that 64 bits with a sign hold. -/
def Held (n : Int) : Prop := -2 ^ 63 ≤ n ∧ n < 2 ^ 63

theorem Held.bmod_eq {n : Int} (hn : Held n) : n.bmod (2 ^ 64) = n :=
  Int.bmod_eq_of_le (by simpa using hn.1) (by simpa using hn.2)

variable {a b : Int64}

theorem toInt_sub_of_held (h : Held ((a : Int) - b)) : ((a - b : Int64) : Int) = a - b := by
  rw [Int64.toInt_sub, h.bmod_eq]

theorem toInt_add_of_held (h : Held ((a : Int) + b)) : ((a + b : Int64) : Int) = a + b := by
  rw [Int64.toInt_add, h.bmod_eq]

/-- **Two readings** are as far apart as the numbers that were read. -/
theorem microseconds_sub (h : Held ((a : Int) - b)) :
    microseconds (a - b) = ((a : Int) - b).tdiv 1000 := by
  rw [microseconds, toInt_sub_of_held h]

namespace Session

variable {s : Session} {started : Int64}

/-- No time limit is too long for 64 bits. -/
theorem toInt_limit (limit : UInt32) :
    ((Int64.ofNat limit.toNat * nanosPerSecond : Int64) : Int) = limit.toNat * 10 ^ 9 := by
  have hlimit := limit.toNat_lt
  have hheld : Held ((limit.toNat : Int) * 10 ^ 9) := by
    unfold Held
    omega
  have hsecond : ((nanosPerSecond : Int64) : Int) = 10 ^ 9 := by decide
  rw [Int64.toInt_mul, Int64.toInt_ofNat_of_lt (by omega), hsecond, hheld.bmod_eq]

/-- **The end of a time limit** is as far behind the start as the limit is long. -/
theorem deadline_eq (h : (started : Int) + s.settings.timeLimit.toNat * 10 ^ 9 < 2 ^ 63) :
    (s.deadline started : Int) = started + s.settings.timeLimit.toNat * 10 ^ 9 := by
  have hstarted := started.le_toInt
  rw [deadline, toInt_add_of_held, toInt_limit]
  rw [toInt_limit]
  unfold Held
  omega

/-- The end of a time limit is never later than that, not even where it has gone round. -/
theorem deadline_le :
    (s.deadline started : Int) ≤ started + s.settings.timeLimit.toNat * 10 ^ 9 := by
  by_cases h : (started : Int) + s.settings.timeLimit.toNat * 10 ^ 9 < 2 ^ 63
  · exact Int.le_of_eq (deadline_eq h)
  · have hdeadline := (s.deadline started).toInt_lt
    omega

end Session

end Screencast
