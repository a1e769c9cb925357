import Mathlib.Algebra.Order.Field.Basic
import Mathlib.Data.Rat.Cast.Order
import Mathlib.Tactic.FieldSimp
import Mathlib.Tactic.GCongr
import Mathlib.Tactic.Linarith
import Mathlib.Tactic.Positivity
import Mathlib.Tactic.Ring
import Screencast.Binary.Arithmetic

/-!
# Rounding to a binary format

A rational number is rounded to the magnitude between whose two midpoints it lies; a midpoint goes
to the even one of its neighbours. The numbers here are counted in the finest unit of the format.

* `BinaryFormat.unitsAt`: the number of a magnitude; `BinaryFormat.midpoint`: the middle between it
  and the next one.
* `BinaryFormat.Rounds`: the magnitude that a number is rounded to. There is only one
  (`Rounds.unique`), it is within half a unit of the last place (`Rounds.error_le`), and a number of
  the format is rounded to itself (`rounds_unitsAt`).
* `Binary.rounds_ofRatio`: what is rounded to nearest is rounded so.
-/

namespace Screencast

theorem two_pow_cast (n : ℕ) : ((2 ^ n : ℕ) : ℚ) = 2 ^ n := Nat.cast_pow 2 n

/-- A tie of a rounded quotient goes to the even number. -/
theorem even_roundDiv (num : ℕ) {den : ℕ} (hd : 0 < den)
    (ht : 2 * num = 2 * (roundDiv num den * den) + den ∨
      2 * num + den = 2 * (roundDiv num den * den)) : Even (roundDiv num den) := by
  have h := Nat.div_add_mod num den
  have hm := Nat.mod_lt num hd
  rw [Nat.mul_comm] at h
  unfold roundDiv at ht ⊢
  split_ifs at ht ⊢ with h₁ h₂
  · omega
  · rw [Nat.add_mul] at ht
    omega
  · rw [Nat.even_iff]
    omega

namespace BinaryFormat

variable {f : BinaryFormat} {v : ℚ} {m n : ℕ}

/-- The place of the significand at a magnitude. -/
def shiftAt (f : BinaryFormat) (m : ℕ) : ℕ := m / f.binade - 1

/-- The number of a magnitude. -/
def unitsAt (f : BinaryFormat) (m : ℕ) : ℕ := (m - f.shiftAt m * f.binade) * 2 ^ f.shiftAt m

theorem binade_pos : 0 < f.binade := Nat.two_pow_pos _

theorem even_binade (hf : 1 < f.precision) : Even f.binade := by
  rw [binade, Nat.even_pow]
  exact ⟨even_two, by omega⟩

/-- A significand that is not below the first of its place has its own place. -/
theorem shiftAt_add {s k : ℕ} (hs : s < 2 * f.binade) (hk : k = 0 ∨ f.binade ≤ s) :
    f.shiftAt (s + k * f.binade) = k := by
  have hb := f.binade_pos
  rw [shiftAt, Nat.add_mul_div_right _ _ hb]
  rcases lt_or_ge s f.binade with hlow | hhigh
  · obtain rfl : k = 0 := hk.resolve_right (by omega)
    rw [Nat.div_eq_of_lt hlow]
  · rw [Nat.div_eq_of_lt_le (k := 1) (by omega) (by omega)]
    omega

theorem unitsAt_add {s k : ℕ} (hs : s < 2 * f.binade) (hk : k = 0 ∨ f.binade ≤ s) :
    f.unitsAt (s + k * f.binade) = s * 2 ^ k := by
  rw [unitsAt, shiftAt_add hs hk, Nat.add_sub_cancel]

theorem le_shiftAt_add {s k : ℕ} (hk : k = 0 ∨ f.binade ≤ s) :
    k ≤ f.shiftAt (s + k * f.binade) := by
  rcases hk with rfl | hs
  · exact Nat.zero_le _
  · have := Nat.div_pos hs f.binade_pos
    rw [shiftAt, Nat.add_mul_div_right _ _ f.binade_pos]
    omega

/-- Rounding may carry into the next place. -/
theorem unitsAt_add_le {s k : ℕ} (hs : s ≤ 2 * f.binade) (hk : k = 0 ∨ f.binade ≤ s) :
    f.unitsAt (s + k * f.binade) = s * 2 ^ k := by
  rcases Nat.lt_or_eq_of_le hs with h | rfl
  · exact unitsAt_add h hk
  · have hnext : 2 * f.binade + k * f.binade = f.binade + (k + 1) * f.binade := by
      rw [Nat.add_mul]
      omega
    have hb := f.binade_pos
    rw [hnext, unitsAt_add (by omega) (.inr le_rfl), Nat.pow_succ, Nat.mul_comm 2, Nat.mul_assoc,
      Nat.mul_comm 2]

/-- A magnitude has a significand and a place. -/
theorem exists_significand (f : BinaryFormat) (m : ℕ) :
    ∃ s k, m = s + k * f.binade ∧ s < 2 * f.binade ∧ (k = 0 ∨ f.binade ≤ s) ∧
      f.shiftAt m = k := by
  have hb := f.binade_pos
  have hm := Nat.div_add_mod m f.binade
  have hr := Nat.mod_lt m hb
  rcases Nat.eq_zero_or_pos (m / f.binade) with h0 | h0
  · rw [h0] at hm
    exact ⟨m, 0, by omega, by omega, .inl rfl, by rw [shiftAt, h0]⟩
  · obtain ⟨k, hk⟩ : ∃ k, m / f.binade = k + 1 := ⟨m / f.binade - 1, by omega⟩
    rw [hk, Nat.mul_comm, Nat.add_mul] at hm
    have hshift : f.shiftAt m = k := by
      rw [shiftAt, hk]
      rfl
    exact ⟨m % f.binade + f.binade, k, by omega, by omega, .inr (by omega), hshift⟩

/-- **The step to the next magnitude** is a unit of the last place. -/
theorem unitsAt_succ (f : BinaryFormat) (m : ℕ) :
    f.unitsAt (m + 1) = f.unitsAt m + 2 ^ f.shiftAt m := by
  obtain ⟨s, k, rfl, hs, hk, hshift⟩ := f.exists_significand m
  rw [hshift, unitsAt_add hs hk]
  rw [Nat.add_right_comm, unitsAt_add_le (by omega) (by omega), Nat.add_mul, Nat.one_mul]

theorem unitsAt_strictMono (f : BinaryFormat) : StrictMono f.unitsAt :=
  strictMono_nat_of_lt_succ fun m => by
    have := Nat.two_pow_pos (f.shiftAt m)
    rw [unitsAt_succ]
    omega

theorem unitsAt_of_lt (hm : m < 2 * f.binade) : f.unitsAt m = m := by
  have h := unitsAt_add (k := 0) hm (.inl rfl)
  simpa using h

/-- What has no more significant bits than the format is a number of the format. -/
theorem exists_unitsAt {s : ℕ} (hs : s ≤ 2 * f.binade) (k : ℕ) :
    ∃ m, f.unitsAt m = s * 2 ^ k := by
  induction k generalizing s with
  | zero => exact ⟨s, by simpa using unitsAt_add_le (k := 0) hs (.inl rfl)⟩
  | succ k ih =>
    rcases Nat.lt_or_ge s f.binade with h | h
    · obtain ⟨m, hm⟩ := ih (s := 2 * s) (by omega)
      exact ⟨m, by rw [hm, Nat.pow_succ, Nat.mul_comm 2, Nat.mul_assoc, Nat.mul_comm 2]⟩
    · exact ⟨s + (k + 1) * f.binade, unitsAt_add_le hs (.inr h)⟩

/-- A unit of the last place is small against the number. -/
theorem binade_mul_le (hm : f.binade ≤ m) : f.binade * 2 ^ f.shiftAt m ≤ f.unitsAt m := by
  obtain ⟨s, k, rfl, hs, hk, hshift⟩ := f.exists_significand m
  rw [hshift, unitsAt_add hs hk]
  refine Nat.mul_le_mul_right _ ?_
  rcases hk with rfl | h <;> omega

/-! ## The nearest number -/

/-- The middle between the number of a magnitude and the next one. -/
def midpoint (f : BinaryFormat) (m : ℕ) : ℚ := f.unitsAt m + 2 ^ f.shiftAt m / 2

theorem unitsAt_lt_midpoint (f : BinaryFormat) (m : ℕ) : (f.unitsAt m : ℚ) < f.midpoint m := by
  have : (0 : ℚ) < 2 ^ f.shiftAt m := by positivity
  rw [midpoint]
  linarith

theorem midpoint_eq_sub (f : BinaryFormat) (m : ℕ) :
    f.midpoint m = f.unitsAt (m + 1) - 2 ^ f.shiftAt m / 2 := by
  rw [midpoint, unitsAt_succ]
  push_cast
  ring

theorem midpoint_lt_unitsAt (f : BinaryFormat) (m : ℕ) : f.midpoint m < f.unitsAt (m + 1) := by
  have : (0 : ℚ) < 2 ^ f.shiftAt m := by positivity
  rw [midpoint_eq_sub]
  linarith

theorem midpoint_strictMono (f : BinaryFormat) : StrictMono f.midpoint :=
  strictMono_nat_of_lt_succ fun m => (f.midpoint_lt_unitsAt m).trans (f.unitsAt_lt_midpoint (m + 1))

/-- A number is rounded to this magnitude: it lies between its midpoints, and is a midpoint only if
the magnitude is even. -/
structure Rounds (f : BinaryFormat) (v : ℚ) (m : ℕ) : Prop where
  above : ∀ n, n + 1 = m → f.midpoint n ≤ v
  below : v ≤ f.midpoint m
  tie : ∀ n, v = f.midpoint n → Even m

/-- **Only one magnitude** is rounded to. -/
theorem Rounds.unique (hm : f.Rounds v m) (hn : f.Rounds v n) : m = n := by
  have hle : ∀ {m n : ℕ}, f.Rounds v m → f.Rounds v n → m ≤ n := by
    intro m n hm hn
    by_contra hlt
    obtain ⟨k, rfl⟩ : ∃ k, m = k + 1 := ⟨m - 1, by omega⟩
    -- both lie at the midpoint between them, and neighbours are not both even
    have hmid : f.midpoint k ≤ f.midpoint n := (hm.above k rfl).trans hn.below
    obtain rfl : k = n := le_antisymm (f.midpoint_strictMono.le_iff_le.1 hmid) (by omega)
    have hv : v = f.midpoint k := le_antisymm hn.below (hm.above k rfl)
    exact absurd (hn.tie k hv) (Nat.even_add_one.1 (hm.tie k hv))
  exact le_antisymm (hle hm hn) (hle hn hm)

/-- A number of the format is rounded to itself. -/
theorem rounds_unitsAt (f : BinaryFormat) (m : ℕ) : f.Rounds (f.unitsAt m) m where
  above n hn := by
    rw [← hn]
    exact (f.midpoint_lt_unitsAt n).le
  below := (f.unitsAt_lt_midpoint m).le
  tie n hn := by
    -- a number of the format is no midpoint
    exfalso
    have hlow : (f.unitsAt n : ℚ) < f.unitsAt m := hn ▸ f.unitsAt_lt_midpoint n
    have hhigh : (f.unitsAt m : ℚ) < f.unitsAt (n + 1) := hn ▸ f.midpoint_lt_unitsAt n
    have h₁ := f.unitsAt_strictMono.lt_iff_lt.1 (Nat.cast_lt.1 hlow)
    have h₂ := f.unitsAt_strictMono.lt_iff_lt.1 (Nat.cast_lt.1 hhigh)
    omega

/-- What lies strictly between the midpoints of a magnitude is rounded to it. -/
theorem rounds_of_lt (hlow : ∀ k, k + 1 = m → f.midpoint k < v) (hhigh : v < f.midpoint m) :
    f.Rounds v m where
  above k hk := (hlow k hk).le
  below := hhigh.le
  tie k hk := by
    exfalso
    rw [hk] at hlow hhigh
    have hkm := f.midpoint_strictMono.lt_iff_lt.1 hhigh
    have := f.midpoint_strictMono.lt_iff_lt.1 (hlow (m - 1) (by omega))
    omega

/-- From the first number with a full significand on, a unit of the last place is small. -/
theorem two_pow_shiftAt_le (hb : (f.binade : ℚ) < f.unitsAt (m + 1)) :
    (2 ^ f.shiftAt m : ℚ) ≤ f.unitsAt m / f.binade := by
  have hpos := f.binade_pos
  have hfirst : f.unitsAt f.binade = f.binade := unitsAt_of_lt (by omega)
  have hm : f.binade < m + 1 :=
    f.unitsAt_strictMono.lt_iff_lt.1 (by rw [hfirst]; exact_mod_cast hb)
  have hle := binade_mul_le (f := f) (m := m) (by omega)
  rw [le_div_iff₀ (Nat.cast_pos.2 hpos), mul_comm, ← two_pow_cast]
  exact_mod_cast hle

/-- **The error** is at most half a unit of the last place. -/
theorem Rounds.error_le (hr : f.Rounds v m) (hv : (f.binade : ℚ) ≤ v) :
    |f.unitsAt m - v| ≤ v / (2 * f.binade) := by
  have hpos : (0 : ℚ) < f.binade := Nat.cast_pos.2 f.binade_pos
  -- the number lies between two neighbours, one of which it is rounded to
  obtain ⟨n, hlow, hhigh, herror⟩ : ∃ n, (f.unitsAt n : ℚ) ≤ v ∧ v < f.unitsAt (n + 1) ∧
      |f.unitsAt m - v| ≤ 2 ^ f.shiftAt n / 2 := by
    rcases le_or_gt (f.unitsAt m : ℚ) v with h | h
    · refine ⟨m, h, hr.below.trans_lt (f.midpoint_lt_unitsAt m), ?_⟩
      have := hr.below
      rw [midpoint] at this
      rw [abs_of_nonpos (by linarith)]
      linarith
    · obtain ⟨n, rfl⟩ : ∃ n, m = n + 1 := by
        refine Nat.exists_eq_add_one_of_ne_zero ?_
        rintro rfl
        rw [unitsAt_of_lt (by have := f.binade_pos; omega), Nat.cast_zero] at h
        linarith
      have habove := hr.above n rfl
      refine ⟨n, (f.unitsAt_lt_midpoint n).le.trans habove, h, ?_⟩
      rw [midpoint_eq_sub] at habove
      rw [abs_of_pos (by linarith)]
      linarith
  calc |f.unitsAt m - v| ≤ 2 ^ f.shiftAt n / 2 := herror
    _ ≤ f.unitsAt n / f.binade / 2 := by
      have := two_pow_shiftAt_le (hv.trans_lt hhigh)
      linarith
    _ = f.unitsAt n / (2 * f.binade) := by rw [div_div, mul_comm]
    _ ≤ v / (2 * f.binade) := by gcongr

/-! ## Significands -/

section Significand

variable {num unit s k n : ℕ}

/-- The quotient against the natural number that it is rounded to. -/
theorem quotient_bounds (hu : 0 < unit) (hle : 2 * (s * unit) ≤ 2 * num + unit)
    (hge : 2 * num ≤ 2 * (s * unit) + unit) :
    (s - 1 / 2 : ℚ) ≤ num / unit ∧ (num / unit : ℚ) ≤ s + 1 / 2 := by
  have huq : (0 : ℚ) < unit := Nat.cast_pos.2 hu
  have hle' : (2 * (s * unit) : ℚ) ≤ 2 * num + unit := by exact_mod_cast hle
  have hge' : (2 * num : ℚ) ≤ 2 * (s * unit) + unit := by exact_mod_cast hge
  constructor
  · rw [le_div_iff₀ huq]
    linarith
  · rw [div_le_iff₀ huq]
    linarith

/-- What a quotient with the bits of a significand is rounded to has these bits, or one unit
more. -/
theorem significand_bounds (hu : 0 < unit) (hhigh : num < 2 * f.binade * unit)
    (hlow : k = 0 ∨ f.binade * unit ≤ num) (hle : 2 * (s * unit) ≤ 2 * num + unit)
    (hge : 2 * num ≤ 2 * (s * unit) + unit) : s ≤ 2 * f.binade ∧ (k = 0 ∨ f.binade ≤ s) := by
  constructor
  · by_contra hlt
    have := Nat.mul_le_mul_right unit (show 2 * f.binade + 1 ≤ s by omega)
    rw [Nat.add_mul] at this
    omega
  · refine hlow.imp_right fun h => ?_
    by_contra hlt
    have := Nat.mul_le_mul_right unit (show s + 1 ≤ f.binade by omega)
    rw [Nat.add_mul] at this
    omega

theorem cast_unitsAt_add (hs : s ≤ 2 * f.binade) (hsk : k = 0 ∨ f.binade ≤ s) :
    (f.unitsAt (s + k * f.binade) : ℚ) = s * 2 ^ k := by
  rw [unitsAt_add_le hs hsk]
  push_cast
  rfl

/-- The midpoint below a significand of a place is half a unit away, or is closer because the place
changes there. -/
theorem midpoint_before (hs : s ≤ 2 * f.binade) (hsk : k = 0 ∨ f.binade ≤ s)
    (hn : n + 1 = s + k * f.binade) :
    f.midpoint n = s * 2 ^ k - 2 ^ k / 2 ∨
      k ≠ 0 ∧ s = f.binade ∧ f.midpoint n < s * 2 ^ k := by
  by_cases hplace : k = 0 ∨ f.binade ≤ s - 1
  · have hs0 : s ≠ 0 := by
      rintro rfl
      have := f.binade_pos
      rcases hplace with rfl | h <;> omega
    obtain rfl : n = s - 1 + k * f.binade := by omega
    refine .inl ?_
    rw [midpoint_eq_sub, hn, cast_unitsAt_add hs hsk, shiftAt_add (by omega) hplace]
  · have hnext := f.midpoint_lt_unitsAt n
    rw [hn, cast_unitsAt_add hs hsk] at hnext
    exact .inr ⟨by tauto, by omega, hnext⟩

/-- A quotient with the bits of a significand, rounded to a natural number, is rounded to a
magnitude. -/
theorem rounds_significand (hf : 1 < f.precision) (hu : 0 < unit)
    (hhigh : num < 2 * f.binade * unit) (hlow : k = 0 ∨ f.binade * unit ≤ num)
    (hle : 2 * (s * unit) ≤ 2 * num + unit) (hge : 2 * num ≤ 2 * (s * unit) + unit)
    (htie : 2 * num = 2 * (s * unit) + unit ∨ 2 * num + unit = 2 * (s * unit) → Even s) :
    f.Rounds (num / unit * 2 ^ k) (s + k * f.binade) := by
  have huq : (0 : ℚ) < unit := Nat.cast_pos.2 hu
  have hpow : (0 : ℚ) < 2 ^ k := by positivity
  obtain ⟨hs, hsk⟩ := significand_bounds hu hhigh hlow hle hge
  obtain ⟨hq_ge, hq_le⟩ := quotient_bounds hu hle hge
  have hunits := cast_unitsAt_add hs hsk
  have hbefore : ∀ n, n + 1 = s + k * f.binade →
      f.midpoint n = s * 2 ^ k - 2 ^ k / 2 ∨ f.midpoint n < num / unit * 2 ^ k := fun n hn => by
    refine (midpoint_before hs hsk hn).imp_right fun ⟨hk, hfirst, h⟩ => h.trans_le ?_
    -- where the place changes the quotient is not below the first number of the place
    have hlow' : (f.binade * unit : ℚ) ≤ num := by exact_mod_cast hlow.resolve_left hk
    rw [hfirst]
    exact mul_le_mul_of_nonneg_right ((le_div_iff₀ huq).2 hlow') hpow.le
  have habove : ∀ n, n + 1 = s + k * f.binade → f.midpoint n ≤ num / unit * 2 ^ k := fun n hn => by
    rcases hbefore n hn with h | h
    · rw [h]
      nlinarith
    · exact h.le
  have hshift : (2 ^ k : ℚ) ≤ 2 ^ f.shiftAt (s + k * f.binade) :=
    pow_le_pow_right₀ (by norm_num) (le_shiftAt_add hsk)
  have hbelow : (num / unit * 2 ^ k : ℚ) ≤ f.midpoint (s + k * f.binade) := by
    rw [midpoint, hunits]
    nlinarith
  refine ⟨habove, hbelow, fun n hn => ?_⟩
  suffices Even s from this.add ((even_binade hf).mul_left k)
  have hnm : n ≤ s + k * f.binade := f.midpoint_strictMono.le_iff_le.1 (hn ▸ hbelow)
  rcases Nat.lt_or_eq_of_le hnm with hlt | rfl
  · -- the midpoint before
    obtain ⟨l, hl⟩ : ∃ l, l + 1 = s + k * f.binade := ⟨s + k * f.binade - 1, by omega⟩
    obtain rfl : n = l := le_antisymm (by omega)
      (f.midpoint_strictMono.le_iff_le.1 (hn ▸ habove l hl))
    have h := (hbefore n hl).resolve_right (hn.le.not_gt)
    have hhalf : (num / unit : ℚ) = s - 1 / 2 := by
      rw [← hn] at h
      nlinarith
    rw [div_eq_iff huq.ne'] at hhalf
    have heq : (2 * num + unit : ℚ) = 2 * (s * unit) := by linarith
    exact htie (.inr (by exact_mod_cast heq))
  · -- the midpoint after
    have hhalf : (num / unit : ℚ) = s + 1 / 2 := by
      rw [midpoint, hunits] at hn
      nlinarith
    rw [div_eq_iff huq.ne'] at hhalf
    have heq : (2 * num : ℚ) = 2 * (s * unit) + unit := by linarith
    exact htie (.inl (by exact_mod_cast heq))

end Significand

end BinaryFormat

namespace Binary

variable {f : BinaryFormat} {x : Binary f}

/-- The absolute value of a finite number. -/
def value (x : Binary f) : ℚ := x.units / 2 ^ f.places

theorem units_eq (x : Binary f) : x.units = f.unitsAt x.magnitude := rfl

theorem ext {x y : Binary f} (hs : x.negative = y.negative) (hm : x.magnitude = y.magnitude) :
    x = y := by
  cases x
  cases y
  cases hs
  cases hm
  rfl

/-- A nonnegative number is rounded to the magnitude of this one. -/
def IsNearest (x : Binary f) (r : ℚ) : Prop := f.Rounds (r * 2 ^ f.places) x.magnitude

theorem infinity_lt (hf : 0 < f.precision) : f.infinity < 2 ^ (f.width - 1) := by
  have hw : f.width - 1 = f.exponentBits + (f.precision - 1) := by
    rw [BinaryFormat.width]
    omega
  rw [BinaryFormat.infinity, hw, Nat.pow_add]
  have hb : 0 < 2 ^ f.exponentBits := Nat.two_pow_pos _
  exact Nat.mul_lt_mul_of_pos_right (by omega) f.binade_pos

/-- **Rounding to nearest**, up to the largest magnitude. -/
theorem rounds_ofRatio (hf : 1 < f.precision) (num : ℕ) {den : ℕ} (hd : 0 < den) :
    ∃ m, f.Rounds (num / den * 2 ^ f.places) m ∧
      ∀ s, (ofRatio s num den : Binary f).magnitude = min m f.infinity := by
  have hdq : (0 : ℚ) < den := Nat.cast_pos.2 hd
  generalize hscaled : num * 2 ^ f.places = scaled
  generalize hk : (scaled / den).log2 - (f.precision - 1) = k
  generalize hunit : den * 2 ^ k = unit
  generalize hs : roundDiv scaled unit = s
  have hupos : 0 < unit := hunit ▸ Nat.mul_pos hd (Nat.two_pow_pos k)
  have hv : (num / den * 2 ^ f.places : ℚ) = scaled / unit * 2 ^ k := by
    rw [← hscaled, ← hunit]
    push_cast
    field_simp
  -- the quotient has the bits of a significand before its point
  have hsum : f.binade * 2 = 2 ^ f.precision := by
    rw [BinaryFormat.binade, ← Nat.pow_succ]
    congr 1
    omega
  have hhigh : scaled < 2 * f.binade * unit := by
    have hlog : scaled / den < 2 ^ (k + f.precision) :=
      (Nat.lt_log2_self).trans_le (Nat.pow_le_pow_right (by omega) (by omega))
    have := (Nat.div_lt_iff_lt_mul hd).1 hlog
    rw [Nat.pow_add, ← hsum] at this
    rw [← hunit]
    linarith
  have hlow : k = 0 ∨ f.binade * unit ≤ scaled := by
    refine or_iff_not_imp_left.2 fun hk0 => ?_
    have hne : scaled / den ≠ 0 := by
      intro h0
      rw [h0] at hk
      exact hk0 (by rw [← hk]; simp)
    have hlog : 2 ^ (k + (f.precision - 1)) ≤ scaled / den := by
      rw [show k + (f.precision - 1) = (scaled / den).log2 by omega]
      exact Nat.log2_self_le hne
    have := (Nat.le_div_iff_mul_le hd).1 hlog
    rw [Nat.pow_add] at this
    rw [← hunit, BinaryFormat.binade]
    linarith
  have hs_le := roundDiv_mul_le scaled unit
  have hs_ge := le_roundDiv_mul scaled hupos
  have htie := even_roundDiv scaled hupos
  rw [hs] at hs_le hs_ge htie
  refine ⟨s + k * f.binade, ?_, fun sign => ?_⟩
  · rw [hv]
    exact BinaryFormat.rounds_significand hf hupos hhigh hlow hs_le hs_ge htie
  · rw [ofRatio, hscaled, hk, hunit, hs]
    exact magnitude_ofMagnitude _ (lt_of_le_of_lt (min_le_right _ _) (infinity_lt (by omega)))

section Nearest

variable {y : Binary f} {r : ℚ} {num den : ℕ}

theorem value_mul (x : Binary f) : x.value * 2 ^ f.places = f.unitsAt x.magnitude :=
  div_mul_cancel₀ _ (by positivity)

theorem IsNearest.unique (hx : x.IsNearest r) (hy : y.IsNearest r) :
    x.magnitude = y.magnitude := BinaryFormat.Rounds.unique hx hy

/-- What has no more significant bits than the format is nearest to itself only. -/
theorem IsNearest.value_eq_of_units {s k : ℕ} (hx : x.IsNearest r) (hs : s ≤ 2 * f.binade)
    (hr : r * 2 ^ f.places = s * 2 ^ k) : x.value = r := by
  obtain ⟨m, hm⟩ := BinaryFormat.exists_unitsAt hs k
  have hunits : r * 2 ^ f.places = f.unitsAt m := by
    rw [hr, hm]
    push_cast
    rfl
  have hmagnitude : x.magnitude = m :=
    BinaryFormat.Rounds.unique (hunits ▸ hx) (f.rounds_unitsAt m)
  rw [value, units_eq, hmagnitude, ← hunits, mul_div_cancel_right₀ _ (by positivity)]

/-- What is rounded to nearest is the number that is nearest. -/
theorem ofRatio_eq (hf : 1 < f.precision) (hd : 0 < den) (hx : x.isFinite)
    (hr : x.IsNearest (num / den)) : ofRatio x.negative num den = x := by
  obtain ⟨m, hm, hmagnitude⟩ := rounds_ofRatio (f := f) hf num hd
  have hlt : x.magnitude < f.infinity := of_decide_eq_true hx
  refine ext rfl ?_
  rw [hmagnitude, ← BinaryFormat.Rounds.unique hr hm]
  omega

/-- What is rounded to a finite number is rounded to the nearest. -/
theorem isNearest_ofRatio {s : Bool} (hf : 1 < f.precision) (hd : 0 < den)
    (hx : (ofRatio s num den : Binary f).isFinite) :
    (ofRatio s num den : Binary f).IsNearest (num / den) := by
  obtain ⟨m, hm, hmagnitude⟩ := rounds_ofRatio (f := f) hf num hd
  have hlt : (ofRatio s num den : Binary f).magnitude < f.infinity := of_decide_eq_true hx
  rw [hmagnitude] at hlt
  rw [IsNearest, hmagnitude, min_eq_left (by omega)]
  exact hm

/-- What is not above a number of the format is not rounded to infinity. -/
theorem isFinite_ofRatio {s : Bool} {k : ℕ} (hf : 1 < f.precision) (hd : 0 < den)
    (hk : (k + 1) * f.binade < f.infinity)
    (hr : (num / den * 2 ^ f.places : ℚ) ≤ f.binade * 2 ^ k) :
    (ofRatio s num den : Binary f).isFinite := by
  obtain ⟨m, hm, hmagnitude⟩ := rounds_ofRatio (f := f) hf num hd
  have hb := f.binade_pos
  have hunits : (f.unitsAt ((k + 1) * f.binade) : ℚ) = f.binade * 2 ^ k := by
    rw [Nat.add_mul, Nat.one_mul, Nat.add_comm, BinaryFormat.unitsAt_add (by omega) (.inr le_rfl)]
    push_cast
    rfl
  have hle : m ≤ (k + 1) * f.binade := by
    by_contra hlt
    have habove := hm.above (m - 1) (by omega)
    have := f.unitsAt_lt_midpoint (m - 1)
    have hmono : f.unitsAt ((k + 1) * f.binade) ≤ f.unitsAt (m - 1) :=
      f.unitsAt_strictMono.monotone (by omega)
    have : (f.unitsAt ((k + 1) * f.binade) : ℚ) ≤ f.unitsAt (m - 1) := Nat.cast_le.2 hmono
    linarith
  rw [isFinite, hmagnitude]
  exact decide_eq_true (by omega)

/-- **The error** of the nearest number is at most half a unit of the last place. -/
theorem IsNearest.error_le (hx : x.IsNearest r) (hr : (f.binade : ℚ) ≤ r * 2 ^ f.places) :
    |x.value - r| ≤ r / (2 * f.binade) := by
  have hp : (0 : ℚ) < 2 ^ f.places := by positivity
  have h := BinaryFormat.Rounds.error_le hx hr
  rw [← value_mul, ← sub_mul, abs_mul, abs_of_pos hp, mul_div_right_comm] at h
  exact le_of_mul_le_mul_right h hp

/-! ## Products and quotients -/

theorem isNaN_eq_false (hx : x.isFinite) : x.isNaN = false := by
  have hlt : x.magnitude < f.infinity := of_decide_eq_true hx
  exact decide_eq_false (by omega)

theorem isInfinite_eq_false (hx : x.isFinite) : x.isInfinite = false := by
  have hlt : x.magnitude < f.infinity := of_decide_eq_true hx
  exact beq_eq_false_iff_ne.2 (by omega)

/-- A product of finite numbers is rounded once. -/
theorem mul_eq (hx : x.isFinite) (hy : y.isFinite) :
    x * y = ofRatio (x.negative != y.negative) (x.units * y.units) (2 ^ (2 * f.places)) := by
  change mul x y = _
  simp [mul, isNaN_eq_false, isInfinite_eq_false, hx, hy]

theorem product_eq (x y : Binary f) :
    ((x.units * y.units : ℕ) : ℚ) / (2 ^ (2 * f.places) : ℕ) = x.value * y.value := by
  rw [value, value, two_pow_cast, mul_comm 2, pow_mul, sq]
  push_cast
  rw [div_mul_div_comm]

/-- A quotient of finite numbers is rounded once. -/
theorem div_eq (hx : x.isFinite) (hy : y.isFinite) (h0 : y.magnitude ≠ 0) :
    x / y = ofRatio (x.negative != y.negative) x.units y.units := by
  have hzero : y.isZero = false := beq_eq_false_iff_ne.2 h0
  change div x y = _
  simp [div, isNaN_eq_false, isInfinite_eq_false, hx, hy, hzero]

theorem quotient_eq (x y : Binary f) : (x.units : ℚ) / y.units = x.value / y.value := by
  rw [value, value, div_div_div_cancel_right₀ (by positivity)]

theorem unitsAt_zero (f : BinaryFormat) : f.unitsAt 0 = 0 :=
  BinaryFormat.unitsAt_of_lt (by have := f.binade_pos; omega)

theorem units_pos (h0 : x.magnitude ≠ 0) : 0 < x.units := by
  have := f.unitsAt_strictMono (Nat.pos_of_ne_zero h0)
  rw [units_eq]
  omega

theorem magnitude_ne_zero (h0 : x.value ≠ 0) : x.magnitude ≠ 0 := by
  intro h
  rw [value, units_eq, h, unitsAt_zero, Nat.cast_zero, zero_div] at h0
  exact h0 rfl

end Nearest

end Binary

end Screencast
