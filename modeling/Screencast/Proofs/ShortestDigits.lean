import Mathlib.Data.List.TakeWhile
import Mathlib.Tactic.LinearCombination
import Screencast.Decimal.Layout
import Screencast.Proofs.Rounding

/-!
# The shortest digits of a number

The decimal that is written for a number is rounded to this number again, and it is well inside the
interval of what is, unless its grid is as coarse as the interval is wide.

* `Shortest.Found`: the grid and the coefficient that the search ends with.
* `Shortest.Found.below_middle`, `Shortest.Found.above_middle`: on a finer grid than the interval
  the decimal keeps away from its ends.
* `Binary.contains_interval_iff`: the interval of a number has what is rounded to it.
* `Binary.shortened`: the digits of a number and the place of their point.
-/

namespace Screencast

/-! ## Digits -/

section Digits

variable {ds es : List Digit} {n : ℕ}

theorem toNat_append (ds es : List Digit) :
    toNat (ds ++ es) = toNat ds * 10 ^ es.length + toNat es := by
  have hfold : ∀ (es : List Digit) (a : ℕ),
      es.foldl (fun n d => 10 * n + d.val) a = a * 10 ^ es.length + toNat es := by
    intro es
    induction es with
    | nil => simp [toNat]
    | cons e es ih =>
      intro a
      have h := ih e.val
      simp only [toNat, List.foldl_cons, List.length_cons, Nat.mul_zero, Nat.zero_add] at h ⊢
      rw [ih, h, Nat.pow_succ, toNat]
      ring
  rw [toNat, List.foldl_append, hfold]
  rfl

@[simp] theorem toNat_replicate_zero (n : ℕ) : toNat (List.replicate n 0) = 0 := by
  induction n with
  | zero => rfl
  | succ n ih =>
    rw [List.replicate_succ', toNat_append, ih]
    rfl

theorem toNat_lt (ds : List Digit) : toNat ds < 10 ^ ds.length := by
  induction ds using List.reverseRecOn with
  | nil => exact Nat.one_pos
  | append_singleton ds d ih =>
    have hd := d.isLt
    have : toNat [d] = d.val := by simp [toNat]
    rw [toNat_append, List.length_append, List.length_singleton, Nat.pow_one, Nat.pow_succ, this]
    omega

theorem lt_ten_pow_digits (n : ℕ) : n < 10 ^ (digits n).length := by
  have h := toNat_lt (digits n)
  rwa [toNat_digits] at h

/-- The digits of a positive number do not start with a zero. -/
theorem digits_eq_cons (hn : 0 < n) : ∃ d ds, digits n = d :: ds ∧ d ≠ 0 := by
  induction n using Nat.strongRecOn with
  | ind n ih =>
    rw [digits]
    split
    · exact ⟨_, [], rfl, fun h => hn.ne' (congrArg Fin.val h)⟩
    · obtain ⟨d, ds, h, hd⟩ := ih (n / 10) (by omega) (by omega)
      exact ⟨d, ds ++ _, by rw [h, List.cons_append], hd⟩

/-- The zeros that are dropped. -/
theorem exists_dropTrailingZeros (ds : List Digit) :
    ∃ z, ds = Binary.dropTrailingZeros ds ++ List.replicate z 0 := by
  have hsplit := List.takeWhile_append_dropWhile
    (p := fun d : Digit => decide (d = 0)) (l := ds.reverse)
  have hzeros : ∀ d ∈ ds.reverse.takeWhile (fun d : Digit => decide (d = 0)), d = 0 :=
    fun d hd => by simpa using List.mem_takeWhile_imp hd
  refine ⟨(ds.reverse.takeWhile fun d : Digit => decide (d = 0)).length, ?_⟩
  have := congrArg List.reverse hsplit
  rw [List.reverse_append, List.reverse_reverse, List.eq_replicate_of_mem hzeros,
    List.reverse_replicate] at this
  simpa [Binary.dropTrailingZeros] using this.symm

end Digits

/-! ## The search -/

namespace Shortest

variable {s : Shortest} {tie : Tie} {c j n : ℕ}

theorem contains_iff : s.contains n ↔
    (s.closed = true ∧ s.low ≤ n ∧ n ≤ s.high) ∨ (s.closed = false ∧ s.low < n ∧ n < s.high) := by
  unfold contains
  split_ifs with h <;> simp [h]

theorem contains_of_lt (hl : s.low < n) (hh : n < s.high) : s.contains n := by
  rw [contains_iff]
  rcases s.closed <;> simp <;> omega

theorem low_le_of_contains (hn : s.contains n) : s.low ≤ n := by
  rcases contains_iff.1 hn with h | h <;> omega

theorem le_high_of_contains (hn : s.contains n) : n ≤ s.high := by
  rcases contains_iff.1 hn with h | h <;> omega

/-- What the search ends with. The decimal is in the interval, on the coarsest grid that meets it,
and is one of the two around the number: if both are in the interval, the nearer one. -/
structure Found (s : Shortest) (J c j : ℕ) : Prop where
  contains : s.contains (c * 10 ^ j)
  coarsest : ∀ i, j < i → i ≤ J → ∀ k, ¬s.contains (k * 10 ^ i)
  nearest :
    (c = s.value / 10 ^ j ∧
      (s.contains ((s.value / 10 ^ j + 1) * 10 ^ j) → 2 * (s.value % 10 ^ j) ≤ 10 ^ j)) ∨
    (c = s.value / 10 ^ j + 1 ∧
      (s.contains (s.value / 10 ^ j * 10 ^ j) → 10 ^ j ≤ 2 * (s.value % 10 ^ j)))

variable (hlow : s.low < s.value) (hhigh : s.value < s.high)
include hlow hhigh

/-- The interval has no gap on either side of the number. -/
theorem contains_of_between {k : ℕ} (hk : s.contains k)
    (hn : k ≤ n ∧ n ≤ s.value ∨ s.value ≤ n ∧ n ≤ k) : s.contains n := by
  rw [contains_iff] at hk ⊢
  exact hk.imp (fun ⟨hc, h⟩ => ⟨hc, by omega⟩) fun ⟨hc, h⟩ => ⟨hc, by omega⟩

theorem contains_value : s.contains s.value := contains_of_lt hlow hhigh

/-- Of the multiples on a grid, one of the two around the number is in the interval if any is. -/
theorem contains_neighbour {k : ℕ} (hk : s.contains (k * 10 ^ j)) :
    s.contains (s.value / 10 ^ j * 10 ^ j) ∨ s.contains ((s.value / 10 ^ j + 1) * 10 ^ j) := by
  have hrest := Nat.lt_div_mul_add (a := s.value) (b := 10 ^ j) (Nat.pow_pos (by omega))
  rcases Nat.lt_or_ge (s.value / 10 ^ j) k with h | h
  · have hle := Nat.mul_le_mul_right (10 ^ j) (show s.value / 10 ^ j + 1 ≤ k from h)
    refine .inr (contains_of_between hlow hhigh hk (.inr ⟨?_, hle⟩))
    rw [Nat.add_mul, Nat.one_mul]
    omega
  · have hle := Nat.mul_le_mul_right (10 ^ j) h
    exact .inl (contains_of_between hlow hhigh hk (.inl ⟨hle, Nat.div_mul_le_self _ _⟩))

theorem onGrid_eq_none_iff : s.onGrid tie j = none ↔ ∀ k, ¬s.contains (k * 10 ^ j) := by
  constructor
  · intro hnone k hk
    unfold onGrid at hnone
    rcases contains_neighbour hlow hhigh hk with h | h <;> simp only [h] at hnone <;>
      split at hnone <;> simp_all
  · intro hnone
    simp only [onGrid, hnone]

omit hlow hhigh in
/-- The coefficient on a grid is that of a multiple around the number. -/
theorem found_of_onGrid {J : ℕ} (hc : s.onGrid tie j = some c)
    (hcoarse : ∀ i, j < i → i ≤ J → ∀ k, ¬s.contains (k * 10 ^ i)) : s.Found J c j := by
  unfold onGrid at hc
  cases hbelow : s.contains (s.value / 10 ^ j * 10 ^ j) <;>
    cases habove : s.contains ((s.value / 10 ^ j + 1) * 10 ^ j) <;>
    simp only [hbelow, habove] at hc
  case false.false => cases hc
  case false.true =>
    cases hc
    exact ⟨habove, hcoarse, .inr ⟨rfl, fun h => by rw [h] at hbelow; cases hbelow⟩⟩
  case true.false =>
    cases hc
    exact ⟨hbelow, hcoarse, .inl ⟨rfl, fun h => by rw [h] at habove; cases habove⟩⟩
  case true.true =>
    -- either rule for ties takes a multiple that is not the farther one
    have hnearest : (c = s.value / 10 ^ j ∧ 2 * (s.value % 10 ^ j) ≤ 10 ^ j) ∨
        (c = s.value / 10 ^ j + 1 ∧ 10 ^ j ≤ 2 * (s.value % 10 ^ j)) := by
      cases tie <;> simp only [Option.some.injEq] at hc <;> split_ifs at hc with h <;>
        simp at h <;> omega
    rcases hnearest with ⟨rfl, hnear⟩ | ⟨rfl, hnear⟩
    · exact ⟨hbelow, hcoarse, .inl ⟨rfl, fun _ => hnear⟩⟩
    · exact ⟨habove, hcoarse, .inr ⟨rfl, fun _ => hnear⟩⟩

/-- **The search** ends with the coarsest grid that meets the interval. -/
theorem found_find (tie : Tie) (J : ℕ) : s.Found J (s.find tie J).1 (s.find tie J).2 := by
  have hsearch : ∀ i ≤ J, (∀ l, i < l → l ≤ J → ∀ k, ¬s.contains (k * 10 ^ l)) →
      s.Found J (s.find tie i).1 (s.find tie i).2 := by
    intro i hi hcoarse
    induction i with
    | zero =>
      refine ⟨?_, hcoarse, .inl ⟨?_, fun _ => ?_⟩⟩
      · simpa [find] using contains_value hlow hhigh
      · simp [find]
      · simp [find, Nat.mod_one]
    | succ i ih =>
      rw [find]
      split
      case h_1 c hc => exact found_of_onGrid hc hcoarse
      case h_2 hnone =>
        refine ih (by omega) fun l hl hle => ?_
        rcases Nat.lt_or_eq_of_le (show i + 1 ≤ l from hl) with h | rfl
        · exact hcoarse l h hle
        · exact (onGrid_eq_none_iff hlow hhigh).1 hnone
  exact hsearch J le_rfl fun l hl hle => absurd hl (by omega)

section Found

variable {J : ℕ} (hf : s.Found J c j)
include hf

omit hlow hhigh in
theorem Found.le_succ : c ≤ s.value / 10 ^ j + 1 := by
  rcases hf.nearest with ⟨rfl, -⟩ | ⟨rfl, -⟩ <;> omega

omit hlow hhigh in
/-- A decimal in the interval is on the grid or on a finer one. -/
theorem Found.le_of_contains {i k : ℕ} (hi : i ≤ J) (hk : s.contains (k * 10 ^ i)) : i ≤ j := by
  by_contra hlt
  exact hf.coarsest i (by omega) hi k hk

omit hlow in
/-- The next coarser grid is coarser than the lower half of the interval is wide. -/
theorem Found.value_lt (hJ : s.value < 10 ^ J) : s.value < s.low + 10 ^ (j + 1) := by
  by_contra hle
  rcases Nat.lt_or_ge J (j + 1) with h | h
  · have := Nat.pow_le_pow_right (n := 10) (by omega) h.le
    omega
  · have hrest := Nat.lt_div_mul_add (a := s.value) (b := 10 ^ (j + 1)) (Nat.pow_pos (by omega))
    have hbelow := Nat.div_mul_le_self s.value (10 ^ (j + 1))
    have hnone := hf.coarsest (j + 1) (by omega) h (s.value / 10 ^ (j + 1))
    generalize 10 ^ (j + 1) = step at *
    exact hnone (contains_of_lt (by omega) (by omega))

/-- On a grid that is finer than the upper half of the interval is wide, the decimal is in the lower
half of it. -/
theorem Found.below_middle (hj : 10 ^ j < s.high - s.value)
    (hhalf : s.high - s.value ≤ 2 * (s.value - s.low)) : 2 * (c * 10 ^ j) ≤ s.value + s.high := by
  have hbelow := Nat.div_add_mod s.value (10 ^ j)
  rw [Nat.mul_comm] at hbelow
  rcases hf.nearest with ⟨rfl, -⟩ | ⟨rfl, hnear⟩
  · omega
  · by_contra hlt
    rw [Nat.add_mul, Nat.one_mul] at hlt
    have := hnear (contains_of_lt (by omega) (by omega))
    omega

/-- On a grid that is finer than the lower half of the interval is wide, the decimal is in the upper
half of it. -/
theorem Found.above_middle (hj : 10 ^ j < s.value - s.low)
    (hhalf : s.value - s.low ≤ s.high - s.value) : s.value + s.low ≤ 2 * (c * 10 ^ j) := by
  have hbelow := Nat.div_add_mod s.value (10 ^ j)
  rw [Nat.mul_comm] at hbelow
  rcases hf.nearest with ⟨rfl, hnear⟩ | ⟨rfl, -⟩
  · by_contra hlt
    have := hnear (contains_of_lt (by rw [Nat.add_mul]; omega) (by rw [Nat.add_mul]; omega))
    omega
  · rw [Nat.add_mul]
    have := Nat.mod_lt s.value (show 0 < 10 ^ j from Nat.pow_pos (by omega))
    omega

end Found

end Shortest

/-! ## The interval of a number -/

namespace Binary

variable {f : BinaryFormat} {x : Binary f} {n : ℕ}

/-- The units of the interval in a quarter of the finest unit of the format. -/
def quarter (f : BinaryFormat) : ℕ := 25 * 5 ^ f.places

theorem quarter_pos (f : BinaryFormat) : (0 : ℚ) < quarter f :=
  Nat.cast_pos.2 (Nat.mul_pos (by omega) (Nat.pow_pos (by omega)))

theorem ten_pow_intervalPlaces (x : Binary f) :
    (10 ^ x.intervalPlaces : ℚ) = 4 * quarter f * 2 ^ f.places := by
  rw [intervalPlaces, quarter, pow_add, show (10 : ℚ) = 5 * 2 by norm_num, mul_pow]
  push_cast
  ring

/-- The finest units of the format and the units of an interval. -/
theorem scale_eq (x : Binary f) (r : ℚ) :
    r * 2 ^ f.places = r * 10 ^ x.intervalPlaces / (4 * quarter f) := by
  have hq : (4 * quarter f : ℚ) ≠ 0 := by linarith [quarter_pos f]
  rw [ten_pow_intervalPlaces, mul_left_comm, mul_div_cancel_left₀ _ hq]

theorem interval_value (x : Binary f) : x.interval.value = 4 * x.units * quarter f := rfl

/-- The number itself in the units of its interval. -/
theorem value_scaled (x : Binary f) : (x.interval.value : ℚ) = x.value * 10 ^ x.intervalPlaces := by
  rw [ten_pow_intervalPlaces, value, interval_value]
  push_cast
  field_simp

theorem shift_eq (x : Binary f) : x.shift = f.shiftAt x.magnitude := rfl

/-- The interval ends half a unit of the last place above the number. -/
theorem interval_high_eq (x : Binary f) :
    x.interval.high = x.interval.value + 2 * 2 ^ f.shiftAt x.magnitude * quarter f := by
  change (4 * x.units + 2 * 2 ^ x.shift) * quarter f = 4 * x.units * quarter f + _
  rw [Nat.add_mul, ← shift_eq]

/-- The interval starts half a unit of the last place below the number, which is less where the
exponent changes. -/
theorem interval_low_add {m : ℕ} (hm : m + 1 = x.magnitude) :
    x.interval.low + 2 * 2 ^ f.shiftAt m * quarter f = x.interval.value := by
  obtain ⟨s, k, hsplit, hs, hk, hshift⟩ := f.exists_significand x.magnitude
  have hsignificand : x.significand = s := by
    rw [significand, shift_eq, hshift, hsplit, Nat.add_sub_cancel]
  have hb := f.binade_pos
  have hs0 : s ≠ 0 := by
    rintro rfl
    rcases hk with rfl | hk <;> omega
  have hunits : x.units = s * 2 ^ k := by rw [units, hsignificand, shift_eq, hshift]
  have hle : 2 ^ k ≤ s * 2 ^ k := Nat.le_mul_of_pos_left _ (Nat.pos_of_ne_zero hs0)
  have hbelow : (if x.significand = f.binade ∧ 0 < x.shift then 4 * x.units - 2 ^ x.shift
      else 4 * x.units - 2 * 2 ^ x.shift) + 2 * 2 ^ f.shiftAt m = 4 * x.units := by
    rw [hsignificand, shift_eq, hshift, hunits]
    split_ifs with hfirst
    · obtain ⟨rfl, hpos⟩ := hfirst
      obtain ⟨l, rfl⟩ : ∃ l, k = l + 1 := ⟨k - 1, by omega⟩
      obtain rfl : m = 2 * f.binade - 1 + l * f.binade := by
        rw [hsplit, Nat.add_mul] at hm
        omega
      rw [BinaryFormat.shiftAt_add (by omega) (.inr (by omega))]
      rw [Nat.pow_succ] at hle ⊢
      omega
    · obtain rfl : m = s - 1 + k * f.binade := by omega
      rw [BinaryFormat.shiftAt_add (by omega) (by omega)]
      omega
  rw [interval_value, ← hbelow, Nat.add_mul]
  rfl

/-- The upper end of the interval is the midpoint above the number. -/
theorem interval_high (x : Binary f) :
    (x.interval.high : ℚ) = 4 * quarter f * f.midpoint x.magnitude := by
  rw [interval_high_eq, interval_value, BinaryFormat.midpoint, ← units_eq]
  push_cast
  ring

/-- The lower end of the interval is the midpoint below the number. -/
theorem interval_low {m : ℕ} (hm : m + 1 = x.magnitude) :
    (x.interval.low : ℚ) = 4 * quarter f * f.midpoint m := by
  have hlow := congrArg (Nat.cast (R := ℚ)) (interval_low_add hm)
  have hmidpoint := f.midpoint_eq_sub m
  rw [hm, ← units_eq] at hmidpoint
  rw [hmidpoint]
  rw [interval_value] at hlow
  push_cast at hlow
  linear_combination hlow

theorem interval_closed (hf : 1 < f.precision) (x : Binary f) :
    x.interval.closed = true ↔ Even x.magnitude := by
  change decide (x.significand % 2 = 0) = true ↔ _
  obtain ⟨s, k, hsplit, hs, hk, hshift⟩ := f.exists_significand x.magnitude
  have hsignificand : x.significand = s := by
    rw [significand, shift_eq, hshift, hsplit, Nat.add_sub_cancel]
  rw [decide_eq_true_iff, ← Nat.even_iff, hsignificand, hsplit,
    Nat.even_add, iff_true_right ((BinaryFormat.even_binade hf).mul_left k)]

/-- **The interval** has what is rounded to the number. -/
theorem contains_interval_iff (hf : 1 < f.precision) (h0 : x.magnitude ≠ 0) :
    x.interval.contains n ↔ x.IsNearest (n / 10 ^ x.intervalPlaces) := by
  obtain ⟨m, hm⟩ : ∃ m, m + 1 = x.magnitude := ⟨x.magnitude - 1, by omega⟩
  have hq : (0 : ℚ) < 4 * quarter f := by linarith [quarter_pos f]
  have hv : (n / 10 ^ x.intervalPlaces * 2 ^ f.places : ℚ) = n / (4 * quarter f) := by
    rw [scale_eq, div_mul_cancel₀ _ (by positivity)]
  have hlow : (x.interval.low : ℚ) = 4 * quarter f * f.midpoint m := interval_low hm
  have hhigh := interval_high x
  have hn : (n : ℚ) = 4 * quarter f * (n / (4 * quarter f)) := by
    rw [mul_comm, div_mul_cancel₀ _ hq.ne']
  have hbounds : x.interval.low ≤ n ∧ n ≤ x.interval.high ↔
      f.midpoint m ≤ n / (4 * quarter f) ∧ n / (4 * quarter f) ≤ f.midpoint x.magnitude := by
    rw [← Nat.cast_le (α := ℚ), ← Nat.cast_le (α := ℚ), hlow, hhigh, hn,
      mul_le_mul_iff_right₀ hq, mul_le_mul_iff_right₀ hq, ← hn]
  have hstrict : x.interval.low < n ∧ n < x.interval.high ↔
      f.midpoint m < n / (4 * quarter f) ∧ n / (4 * quarter f) < f.midpoint x.magnitude := by
    rw [← Nat.cast_lt (α := ℚ), ← Nat.cast_lt (α := ℚ), hlow, hhigh, hn,
      mul_lt_mul_iff_right₀ hq, mul_lt_mul_iff_right₀ hq, ← hn]
  rw [Shortest.contains_iff, hbounds, hstrict, IsNearest, hv, interval_closed hf,
    ← Bool.not_eq_true, interval_closed hf]
  constructor
  · rintro (⟨heven, h₁, h₂⟩ | ⟨-, h₁, h₂⟩)
    · refine ⟨fun l hl => ?_, h₂, fun _ _ => heven⟩
      obtain rfl : l = m := by omega
      exact h₁
    · refine BinaryFormat.rounds_of_lt (fun l hl => ?_) h₂
      obtain rfl : l = m := by omega
      exact h₁
  · intro hr
    by_cases heven : Even x.magnitude
    · exact .inl ⟨heven, hr.above m hm, hr.below⟩
    · exact .inr ⟨heven, lt_of_le_of_ne (hr.above m hm) fun h => heven (hr.tie m h.symm),
        lt_of_le_of_ne hr.below fun h => heven (hr.tie _ h)⟩

theorem interval_low_lt (h0 : x.magnitude ≠ 0) : x.interval.low < x.interval.value := by
  obtain ⟨m, hm⟩ : ∃ m, m + 1 = x.magnitude := ⟨x.magnitude - 1, by omega⟩
  have hbelow := f.midpoint_lt_unitsAt m
  rw [hm, ← units_eq] at hbelow
  rw [← Nat.cast_lt (α := ℚ), interval_low hm, interval_value]
  have hq := quarter_pos f
  push_cast
  nlinarith

theorem interval_low_pos (h0 : x.magnitude ≠ 0) : 0 < x.interval.low := by
  obtain ⟨m, hm⟩ : ∃ m, m + 1 = x.magnitude := ⟨x.magnitude - 1, by omega⟩
  have hpos : 0 < f.midpoint m := (Nat.cast_nonneg _).trans_lt (f.unitsAt_lt_midpoint m)
  rw [← Nat.cast_pos (α := ℚ), interval_low hm]
  have hq := quarter_pos f
  positivity

theorem lt_interval_high (x : Binary f) : x.interval.value < x.interval.high := by
  have habove := f.unitsAt_lt_midpoint x.magnitude
  rw [← units_eq] at habove
  rw [← Nat.cast_lt (α := ℚ), interval_high, interval_value]
  have hq := quarter_pos f
  push_cast
  nlinarith

end Binary

/-! ## The digits -/

namespace Decimal

/-- The digits as a natural number. -/
def coefficient (d : Decimal) : ℕ := toNat d.digits

/-- The power of ten that the coefficient is multiplied by. -/
def exponent (d : Decimal) : ℤ := d.point - d.digits.length

/-- There are digits, and the first one is not zero. -/
def Led (d : Decimal) : Prop := ∃ a as, d.digits = a :: as ∧ a ≠ 0

end Decimal

namespace Binary

variable {f : BinaryFormat} {x : Binary f}

/-- **The shortest digits** are those of the coefficient that the search ends with, but for zeros
at its end. -/
theorem shortened (h0 : x.magnitude ≠ 0) (tie : Tie) :
    (x.shortest tie).Led ∧ ∃ c j z : ℕ,
      x.interval.Found (digits x.interval.value).length c j ∧
      c = (x.shortest tie).coefficient * 10 ^ z ∧
      (x.shortest tie).exponent = z + j - x.intervalPlaces := by
  have hfound := Shortest.found_find (interval_low_lt h0) (lt_interval_high x) tie
    (digits x.interval.value).length
  have hshortest : x.shortest tie = ⟨dropTrailingZeros (digits
      (x.interval.find tie (digits x.interval.value).length).1),
      (digits (x.interval.find tie (digits x.interval.value).length).1).length +
        (x.interval.find tie (digits x.interval.value).length).2 - x.intervalPlaces⟩ := rfl
  rw [hshortest]
  generalize (x.interval.find tie (digits x.interval.value).length).1 = c at hfound ⊢
  generalize (x.interval.find tie (digits x.interval.value).length).2 = j at hfound ⊢
  obtain ⟨z, hz⟩ := exists_dropTrailingZeros (digits c)
  have hc : 0 < c := by
    refine Nat.pos_of_ne_zero fun hc => ?_
    have := Shortest.low_le_of_contains hfound.contains
    rw [hc, Nat.zero_mul] at this
    exact absurd (interval_low_pos h0) (by omega)
  refine ⟨?_, c, j, z, hfound, ?_, ?_⟩
  · obtain ⟨a, as, hdigits, ha⟩ := digits_eq_cons hc
    rw [hdigits] at hz
    cases hdrop : dropTrailingZeros (digits c) with
    | nil =>
      rw [hdigits] at hdrop
      rw [hdrop, List.nil_append] at hz
      exact absurd (List.eq_of_mem_replicate (hz ▸ List.mem_cons_self)) ha
    | cons b bs =>
      rw [hdigits] at hdrop
      rw [hdrop, List.cons_append] at hz
      exact ⟨b, bs, rfl, (List.cons.inj hz).1 ▸ ha⟩
  · have := toNat_digits c
    rw [hz, toNat_append, toNat_replicate_zero, List.length_replicate, Nat.add_zero] at this
    exact this.symm
  · have := congrArg List.length hz
    rw [List.length_append, List.length_replicate] at this
    simp only [Decimal.exponent]
    omega

end Binary

end Screencast
