import Screencast.Proofs.Midpoints
import Screencast.Proofs.QuickReading

/-!
# Numbers read back

A finite number of 32 bits is read back from its shortest digits, although they are read by way of
64 bits and with two roundings: the digits keep away from the midpoints, or are one of them exactly,
or are one of three decimals that are looked at one by one. A number of 64 bits is read back where
its digits and their power are few, as those of a time of less than `2 ^ 53` nanoseconds are.

* `Binary.apart`: the shortest digits keep away from the ends of their interval.
* `Binary.laid`: the numeral of a number, and what the search for its digits has ended with.
* `Json.single?_ofSingle`: numbers of 32 bits.
* `Json.double?_ofDouble_time`: times in seconds.
-/

namespace Screencast

open Midpoints

namespace Binary

/-! ## The ends of an interval -/

theorem quarter_single : quarter .single = 5 ^ 151 := by decide +kernel

variable {x : Single} {m c j : ℕ}

/-- A midpoint is an odd multiple of half a unit of the last place. -/
theorem exists_midpoint (f : BinaryFormat) (m : ℕ) : ∃ s, s < 2 * f.binade ∧
    (f.shiftAt m = 0 ∨ f.binade ≤ s) ∧ m = s + f.shiftAt m * f.binade ∧
      2 * f.midpoint m = (2 * s + 1 : ℕ) * 2 ^ f.shiftAt m := by
  obtain ⟨s, k, hm, hs, hk, rfl⟩ := f.exists_significand m
  refine ⟨s, hs, hk, hm, ?_⟩
  have hunits : f.unitsAt m = s * 2 ^ f.shiftAt m := by
    conv_lhs => rw [hm]
    exact BinaryFormat.unitsAt_add hs hk
  rw [BinaryFormat.midpoint, hunits]
  push_cast
  ring

theorem half_eq (place : ℕ) : half place = 2 * 2 ^ place * quarter .single := by
  rw [half, quarter_single, Nat.pow_succ, Nat.mul_comm 2]

/-- A midpoint in the units of an interval. -/
theorem midpoint_single (m : ℕ) : ∃ s, s < 2 ^ 24 ∧
    (BinaryFormat.single.shiftAt m = 0 ∨ 2 ^ 23 ≤ s) ∧
    m = s + BinaryFormat.single.shiftAt m * 2 ^ 23 ∧
    4 * quarter .single * BinaryFormat.single.midpoint m =
      ((2 * s + 1) * half (BinaryFormat.single.shiftAt m) : ℕ) := by
  obtain ⟨s, hs, hk, hm, hmidpoint⟩ := exists_midpoint .single m
  have hb : BinaryFormat.single.binade = 2 ^ 23 := by decide
  rw [hb] at hs hk hm
  refine ⟨s, by omega, hk, hm, ?_⟩
  rw [half_eq]
  push_cast at hmidpoint ⊢
  linear_combination 2 * (quarter .single : ℚ) * hmidpoint

theorem shiftAt_succ_le (f : BinaryFormat) (m : ℕ) : f.shiftAt (m + 1) ≤ f.shiftAt m + 1 := by
  have hb := f.binade_pos
  have hnext : (m + 1) / f.binade ≤ m / f.binade + 1 := by
    rw [← Nat.add_div_right _ hb]
    exact Nat.div_le_div_right (by omega)
  rw [BinaryFormat.shiftAt, BinaryFormat.shiftAt]
  omega

theorem shiftAt_le_succ (f : BinaryFormat) (m : ℕ) : f.shiftAt m ≤ f.shiftAt (m + 1) :=
  Nat.sub_le_sub_right (Nat.div_le_div_right (by omega)) 1

theorem half_succ (place : ℕ) : half (place + 1) = 2 * half place := by
  rw [half, half, Nat.pow_succ, Nat.mul_comm _ 2, Nat.mul_assoc]

theorem half_mono {k l : ℕ} (h : k ≤ l) : half k ≤ half l := by
  rw [half_eq, half_eq]
  have := Nat.pow_le_pow_right (n := 2) (by omega) h
  gcongr

/-- On a grid finer than half a unit of the last place the decimal stays away from the ends. -/
theorem grid_coarse {J k e : ℕ} (h0 : x.magnitude ≠ 0) (hf : x.interval.Found J c j)
    (hk : k = x.magnitude ∨ k + 1 = x.magnitude)
    (he : (e : ℚ) = 4 * quarter .single * BinaryFormat.single.midpoint k)
    (hbelow : 2 ^ 35 * e ≤ 2 ^ 35 * (c * 10 ^ j) + 257 * half (BinaryFormat.single.shiftAt k))
    (habove : 2 ^ 35 * (c * 10 ^ j) ≤ 2 ^ 35 * e + 257 * half (BinaryFormat.single.shiftAt k)) :
    half (BinaryFormat.single.shiftAt k) ≤ 10 ^ j := by
  obtain ⟨m, hm⟩ : ∃ m, m + 1 = x.magnitude := ⟨x.magnitude - 1, by omega⟩
  have hlow := interval_low_add hm
  have hhigh := interval_high_eq x
  rw [← half_eq] at hlow hhigh
  have hlt := interval_low_lt h0
  have hgt := lt_interval_high x
  have hmono := half_mono (shiftAt_le_succ .single m)
  have hnext := half_mono (shiftAt_succ_le .single m)
  have hdouble := half_succ (BinaryFormat.single.shiftAt m)
  rw [hm] at hmono hnext
  by_contra hfine
  rcases hk with rfl | hk
  · have hend : e = x.interval.high := by
      rw [← interval_high] at he
      exact_mod_cast he
    have := hf.below_middle hlt hgt (by omega) (by omega)
    omega
  · obtain rfl : k = m := by omega
    have hend : e = x.interval.low := by
      rw [← interval_low hm] at he
      exact_mod_cast he
    have := hf.above_middle hlt hgt (by omega) (by omega)
    omega

/-- The magnitudes on either side of the midpoints that the exceptions come near. -/
def awkward : List ℕ :=
  [363742205, 363742206, 372130813, 372130814, 853298129, 853298130]

theorem mem_awkward {k s : ℕ} (hk : k = x.magnitude ∨ k + 1 = x.magnitude)
    (hs : k = s + BinaryFormat.single.shiftAt k * 2 ^ 23)
    (hj : grid (BinaryFormat.single.shiftAt k) ≤ j)
    (hmem : (BinaryFormat.single.shiftAt k,
      c * 10 ^ (j - grid (BinaryFormat.single.shiftAt k))) ∈ exceptions)
    (hbelow : 2 ^ 35 * ((2 * s + 1) * half (BinaryFormat.single.shiftAt k)) ≤
      2 ^ 35 * (c * 10 ^ j) + 257 * half (BinaryFormat.single.shiftAt k))
    (habove : 2 ^ 35 * (c * 10 ^ j) ≤
      2 ^ 35 * ((2 * s + 1) * half (BinaryFormat.single.shiftAt k)) +
        257 * half (BinaryFormat.single.shiftAt k)) : x.magnitude ∈ awkward := by
  have hcoefficient : c * 10 ^ (j - grid (BinaryFormat.single.shiftAt k)) *
      10 ^ grid (BinaryFormat.single.shiftAt k) = c * 10 ^ j := by
    rw [Nat.mul_assoc, ← Nat.pow_add, Nat.sub_add_cancel hj]
  rw [← hcoefficient] at hbelow habove
  generalize c * 10 ^ (j - grid (BinaryFormat.single.shiftAt k)) = c at hmem hbelow habove
  generalize BinaryFormat.single.shiftAt k = place at hmem hbelow habove hs
  simp only [exceptions, List.mem_cons, Prod.mk.injEq, List.not_mem_nil, or_false] at hmem
  simp only [awkward, List.mem_cons, List.not_mem_nil, or_false]
  rcases hmem with ⟨rfl, rfl⟩ | ⟨rfl, rfl⟩ | ⟨rfl, rfl⟩ <;>
    norm_num [half, grid] at hbelow habove <;> omega

/-- **A decimal keeps away** from the ends of its interval unless it is one of them. -/
theorem apart {J k : ℕ} (hx : x.isFinite) (h0 : x.magnitude ≠ 0) (hx' : x.magnitude ∉ awkward)
    (hf : x.interval.Found J c j) (hk : k = x.magnitude ∨ k + 1 = x.magnitude) :
    ∃ e : ℕ, (e : ℚ) = 4 * quarter .single * BinaryFormat.single.midpoint k ∧
      e + half (BinaryFormat.single.shiftAt k) ≤ 2 ^ 25 * half (BinaryFormat.single.shiftAt k) ∧
      (c * 10 ^ j = e ∨
        2 ^ 35 * (c * 10 ^ j) + 257 * half (BinaryFormat.single.shiftAt k) < 2 ^ 35 * e ∨
        2 ^ 35 * e + 257 * half (BinaryFormat.single.shiftAt k) < 2 ^ 35 * (c * 10 ^ j)) := by
  obtain ⟨s, hs, hfull, hsplit, hend⟩ := midpoint_single k
  have hplace : BinaryFormat.single.shiftAt k < 254 := by
    have hlt : x.magnitude < 255 * 2 ^ 23 := of_decide_eq_true hx
    omega
  refine ⟨(2 * s + 1) * half (BinaryFormat.single.shiftAt k), hend.symm, ?_, ?_⟩
  · rw [← Nat.succ_mul]
    exact Nat.mul_le_mul_right _ (by omega)
  · by_contra hnear
    simp only [not_or, not_lt] at hnear
    obtain ⟨hne, hbelow, habove⟩ := hnear
    have hcoarse := grid_coarse h0 hf hk hend.symm hbelow habove
    rcases near_eq hplace hcoarse ⟨s, rfl⟩ (by omega) (by omega) hbelow habove with h | ⟨hj, hmem⟩
    · exact hne h
    · exact hx' (mem_awkward hk hsplit hj hmem hbelow habove)

/-- An error of two roundings does not lead back over the end of an interval. -/
theorem lt_of_apart {n e h : ℕ} {V : ℚ} (hV : n - 257 / 2 ^ 60 * n ≤ V)
    (hlast : e + h ≤ 2 ^ 25 * h) (hapart : 2 ^ 35 * e + 257 * h < 2 ^ 35 * n) : (e : ℚ) < V := by
  have hlast' : (e + h : ℚ) ≤ 2 ^ 25 * h := by exact_mod_cast hlast
  have hapart' : (2 ^ 35 * e + 257 * h : ℚ) < 2 ^ 35 * n := by exact_mod_cast hapart
  have hh : (0 : ℚ) ≤ h := Nat.cast_nonneg h
  rcases le_total (n : ℚ) (2 ^ 25 * h) with hn | hn <;> linarith

theorem gt_of_apart {n e h : ℕ} {V : ℚ} (hV : V ≤ n + 257 / 2 ^ 60 * n)
    (hlast : e + h ≤ 2 ^ 25 * h) (hapart : 2 ^ 35 * n + 257 * h < 2 ^ 35 * e) : V < e := by
  have hlast' : (e + h : ℚ) ≤ 2 ^ 25 * h := by exact_mod_cast hlast
  have hapart' : (2 ^ 35 * n + 257 * h : ℚ) < 2 ^ 35 * e := by exact_mod_cast hapart
  linarith

/-- **What is near the decimal** is rounded to the same number of 32 bits, if the decimal is no
midpoint or is hit exactly. -/
theorem isNearest_of_error {J : ℕ} {v : ℚ} (hx : x.isFinite) (h0 : x.magnitude ≠ 0)
    (hx' : x.magnitude ∉ awkward) (hf : x.interval.Found J c j)
    (hv : |v - (c * 10 ^ j : ℕ) / 10 ^ x.intervalPlaces| ≤
      257 / 2 ^ 60 * ((c * 10 ^ j : ℕ) / 10 ^ x.intervalPlaces))
    (hexact : ∀ k, (c * 10 ^ j : ℕ) = 4 * quarter .single * BinaryFormat.single.midpoint k →
      v = (c * 10 ^ j : ℕ) / 10 ^ x.intervalPlaces) : x.IsNearest v := by
  have hnearest := (contains_interval_iff (by decide) h0).1 hf.contains
  by_cases hmid : ∃ k, ((c * 10 ^ j : ℕ) : ℚ) = 4 * quarter .single * BinaryFormat.single.midpoint k
  · obtain ⟨k, hk⟩ := hmid
    rwa [hexact k hk]
  have hq : (0 : ℚ) < 4 * quarter .single := by linarith [quarter_pos .single]
  have hten : (0 : ℚ) < 10 ^ x.intervalPlaces := by positivity
  have hapart := fun k => apart (k := k) hx h0 hx' hf
  generalize c * 10 ^ j = n at hv hmid hnearest hapart
  -- everything in the units of the interval
  rw [IsNearest, scale_eq, div_mul_cancel₀ _ hten.ne'] at hnearest
  obtain ⟨V, rfl⟩ : ∃ V, v = V / 10 ^ x.intervalPlaces :=
    ⟨v * 10 ^ x.intervalPlaces, by rw [mul_div_cancel_right₀ _ hten.ne']⟩
  rw [← sub_div, abs_div, abs_of_pos hten, ← mul_div_assoc, div_le_div_iff_of_pos_right hten,
    abs_le] at hv
  rw [IsNearest, scale_eq, div_mul_cancel₀ _ hten.ne']
  refine BinaryFormat.rounds_of_lt (fun k hk => ?_) ?_
  · obtain ⟨e, hend, hlast, hcase⟩ := hapart k (.inr hk)
    have hle : e ≤ n := by
      have := hnearest.above k hk
      rw [le_div_iff₀ hq, mul_comm, ← hend] at this
      exact_mod_cast this
    rw [lt_div_iff₀ hq, mul_comm, ← hend]
    rcases hcase with rfl | h | h
    · exact absurd ⟨k, hend⟩ hmid
    · omega
    · exact lt_of_apart (by linarith) hlast h
  · obtain ⟨e, hend, hlast, hcase⟩ := hapart x.magnitude (.inl rfl)
    have hge : n ≤ e := by
      have := hnearest.below
      rw [div_le_iff₀ hq, mul_comm, ← hend] at this
      exact_mod_cast this
    rw [div_lt_iff₀ hq, mul_comm, ← hend]
    rcases hcase with rfl | h | h
    · exact absurd ⟨_, hend⟩ hmid
    · exact gt_of_apart (by linarith) hlast h
    · omega

/-! ## The bounds of the digits -/

/-- The numeral of a number, and what the search for its digits has ended with. -/
theorem laid {f : BinaryFormat} {x : Binary f} (h0 : x.magnitude ≠ 0) {l : Layout}
    (hl : l.pointAlways) : ∃ c j z : ℕ,
      x.interval.Found (digits x.interval.value).length c j ∧
      c = (x.shortest l.tie).coefficient * 10 ^ z ∧ 0 < (x.shortest l.tie).coefficient ∧
      (x.shortest l.tie).exponent = z + j - x.intervalPlaces ∧
      l.Lays x.negative (x.shortest l.tie) (x.numeral l) ∧
      ((x.shortest l.tie).coefficient * 10 ^ (x.shortest l.tie).exponent : ℚ) =
        (c * 10 ^ j : ℕ) / 10 ^ x.intervalPlaces := by
  obtain ⟨hled, c, j, z, hf, hc, he⟩ := shortened h0 l.tie
  have hnumeral : x.numeral l = l.numeral x.negative (x.shortest l.tie) :=
    if_neg (by simpa [isZero] using h0)
  have hlays := Layout.lays_numeral x.negative hl hled
  rw [← hnumeral] at hlays
  refine ⟨c, j, z, hf, hc, ?_, he, hlays, ?_⟩
  · have hlow := interval_low_pos h0
    have hle := Shortest.low_le_of_contains hf.contains
    refine Nat.pos_of_ne_zero fun h => ?_
    rw [hc, h, Nat.zero_mul, Nat.zero_mul] at hle
    omega
  · rw [he, hc, zpow_sub₀ (by norm_num), zpow_add₀ (by norm_num)]
    push_cast
    simp only [zpow_natCast]
    field_simp

/-- A number that is written with a point or an exponent is no plain integer. -/
theorem toInt?_numeral {f : BinaryFormat} {x : Binary f} (h0 : x.magnitude ≠ 0) {l : Layout}
    (hl : l.pointAlways) : (x.numeral l).toInt? = none := by
  obtain ⟨c, j, z, -, -, -, -, hlays, -⟩ := laid h0 hl
  exact hlays.toInt?_eq

section Bounds

variable {J z coefficient : ℕ} (hx : x.isFinite) (h0 : x.magnitude ≠ 0)
  (hf : x.interval.Found J c j) (hJ : x.interval.value < 10 ^ J)
include hx h0 hf

omit h0 in
/-- The decimal is below the first power of two that is too large. -/
theorem decimal_le : c * 10 ^ j ≤ 2 ^ 25 * half (BinaryFormat.single.shiftAt x.magnitude) ∧
    BinaryFormat.single.shiftAt x.magnitude < 254 := by
  obtain ⟨s, hs, hfull, hsplit, hend⟩ := midpoint_single x.magnitude
  have hlt : x.magnitude < 255 * 2 ^ 23 := of_decide_eq_true hx
  have hle := Shortest.le_high_of_contains hf.contains
  have hhigh : x.interval.high = (2 * s + 1) * half (BinaryFormat.single.shiftAt x.magnitude) := by
    rw [← interval_high] at hend
    exact_mod_cast hend
  refine ⟨?_, by omega⟩
  rw [hhigh] at hle
  exact hle.trans (Nat.mul_le_mul_right _ (by omega))

include hJ

/-- The coefficient has nine digits at most. -/
theorem coefficient_lt : c < 10 ^ 9 ∧ 105 ≤ j := by
  obtain ⟨m, hm⟩ : ∃ m, m + 1 = x.magnitude := ⟨x.magnitude - 1, by omega⟩
  have hwide := hf.value_lt (lt_interval_high x) hJ
  have hlow := interval_low_add hm
  rw [← half_eq] at hlow
  have hnext := half_mono (shiftAt_succ_le .single m)
  have hdouble := half_succ (BinaryFormat.single.shiftAt m)
  rw [hm] at hnext
  constructor
  · have hle := (decimal_le hx hf).1
    have hmul : c * 10 ^ j < 10 ^ 9 * 10 ^ j := by
      rw [Nat.pow_succ] at hwide
      omega
    exact Nat.lt_of_mul_lt_mul_right hmul
  · by_contra hlt
    have hleast := half_mono (Nat.zero_le (BinaryFormat.single.shiftAt m))
    have hfew : 10 ^ (j + 1) ≤ 10 ^ 105 := Nat.pow_le_pow_right (by omega) (by omega)
    have : 10 ^ 105 < half 0 := by decide +kernel
    omega

omit h0 hJ in
/-- The power of ten is within those that are read with one step. -/
theorem exponent_bounds (hc : c = coefficient * 10 ^ z) (hpos : 0 < coefficient) : z + j ≤ 190 := by
  obtain ⟨hle, hplace⟩ := decimal_le hx hf
  have hmost := half_mono (show BinaryFormat.single.shiftAt x.magnitude ≤ 253 by omega)
  by_contra hlt
  have hmany : 10 ^ 191 ≤ 10 ^ (z + j) := Nat.pow_le_pow_right (by omega) (by omega)
  have hle' : 10 ^ (z + j) ≤ c * 10 ^ j := by
    rw [hc, Nat.mul_assoc, ← Nat.pow_add]
    exact Nat.le_mul_of_pos_left _ hpos
  have : 2 ^ 25 * half 253 < 10 ^ 191 := by decide +kernel
  omega

end Bounds

/-- A decimal that is a midpoint has a small power of ten. -/
theorem exponent_of_midpoint {coefficient t M place : ℕ} (hpos : 0 < coefficient)
    (hc : coefficient < 10 ^ 9) (hM : M < 2 ^ 25) (hodd : Odd M)
    (heq : coefficient * 10 ^ t = M * half place) : 129 ≤ t ∧ t ≤ 173 := by
  have hfive : ∀ {a b n : ℕ}, 0 < b → b < 5 ^ 23 → b * 2 ^ a = n → ¬5 ^ 23 ∣ n := by
    rintro a b n hb hlt rfl hdvd
    have hcoprime : Nat.Coprime (5 ^ 23) (2 ^ a) := Nat.Coprime.pow _ _ (by decide)
    have := Nat.le_of_dvd hb (hcoprime.dvd_of_dvd_mul_right hdvd)
    omega
  have hten : 10 ^ t = 2 ^ t * 5 ^ t := by rw [← Nat.mul_pow]
  have hM0 : 0 < M := hodd.pos
  rw [hten, half] at heq
  by_contra hfar
  rcases Nat.lt_or_ge 173 t with h | h
  · obtain ⟨u, rfl⟩ : ∃ u, t = u + 23 + 151 := ⟨t - 174, by omega⟩
    refine hfive (a := place + 1) hM0 (by omega) rfl ⟨coefficient * 2 ^ (u + 23 + 151) * 5 ^ u, ?_⟩
    refine Nat.eq_of_mul_eq_mul_right (Nat.pow_pos (n := 151) (show 0 < 5 by omega)) ?_
    rw [Nat.mul_assoc, ← heq, Nat.pow_add 5, Nat.pow_add 5]
    ring
  · obtain ⟨u, hu⟩ : ∃ u, 151 = u + 23 + t := ⟨128 - t, by omega⟩
    refine hfive (a := t) hpos (by omega) rfl ⟨M * 2 ^ (place + 1) * 5 ^ u, ?_⟩
    refine Nat.eq_of_mul_eq_mul_right (Nat.pow_pos (n := t) (show 0 < 5 by omega)) ?_
    rw [Nat.mul_assoc, heq, hu, Nat.pow_add 5, Nat.pow_add 5]
    ring

/-! ## Numbers of 32 bits -/

/-- A midpoint of 32 bits in the finest units of 64 bits. -/
theorem midpoint_scaled (n place : ℕ) :
    ((n * half place : ℕ) / 10 ^ 151 * 2 ^ BinaryFormat.double.places : ℚ) =
      n * 2 ^ (place + 924) := by
  have hten : (10 ^ 151 : ℚ) = 2 ^ 151 * 5 ^ 151 := by
    rw [← mul_pow]
    norm_num
  have htwo : (2 ^ 1074 : ℚ) = 2 ^ 150 * 2 ^ 924 := by rw [← pow_add]
  rw [half, double_places, hten, htwo, pow_add 2 place 924, div_mul_eq_mul_div,
    div_eq_iff (by positivity)]
  generalize (2 ^ 924 : ℚ) = a
  push_cast
  ring

/-- The shortest digits of a number of 32 bits are read as a number of 64 bits near to it. -/
theorem toDouble?_numeral (hx : x.isFinite) (h0 : x.magnitude ≠ 0) (hx' : x.magnitude ∉ awkward) :
    ∃ y : Double, (x.numeral Json.singleLayout).toDouble? = some (if x.negative then -y else y) ∧
      y.isFinite ∧ y.negative = false ∧ x.IsNearest y.value := by
  obtain ⟨c, j, z, hf, hc, hpos, he, hlays, hvalue⟩ := laid h0 (l := Json.singleLayout) rfl
  generalize x.shortest Json.singleLayout.tie = d at hc hpos he hlays hvalue
  generalize x.numeral Json.singleLayout = n at hlays ⊢
  obtain ⟨hnine, hj⟩ := coefficient_lt hx h0 hf (lt_ten_pow_digits _)
  have hzj := exponent_bounds hx hf hc hpos
  have hplaces : x.intervalPlaces = 151 := rfl
  rw [hplaces] at he
  have hcoefficient : d.coefficient < 10 ^ 9 :=
    (Nat.le_mul_of_pos_right _ (Nat.pow_pos (by omega))).trans_lt (hc ▸ hnine)
  -- a whole number has fourteen digits at most with the zero after its point
  have hzeros : ∀ e : ℕ, d.exponent = e → Json.singleLayout.isPositional d.point →
      d.coefficient * 10 ^ (e + 1) ≤ 2 ^ 53 := by
    intro e hwhole hpositional
    have hpoint : d.point ≤ 13 := by
      simp only [Layout.isPositional, Json.singleLayout, Bool.and_eq_true] at hpositional
      exact of_decide_eq_true hpositional.2
    rw [Decimal.exponent] at hwhole
    calc d.coefficient * 10 ^ (e + 1)
      _ ≤ 10 ^ d.digits.length * 10 ^ (e + 1) := Nat.mul_le_mul_right _ (toNat_lt _).le
      _ = 10 ^ (d.digits.length + (e + 1)) := (Nat.pow_add ..).symm
      _ ≤ 10 ^ 14 := Nat.pow_le_pow_right (by omega) (by omega)
      _ ≤ 2 ^ 53 := by norm_num
  obtain ⟨y, hread, hy⟩ := hlays.toDouble?_spec hpos (by omega) (by omega) hzeros
  rw [hvalue] at hy
  refine ⟨y, hread, hy.finite, hy.positive, isNearest_of_error hx h0 hx' hf hy.error_le
    fun k hk => ?_⟩
  obtain ⟨s, hs, -, -, hend⟩ := midpoint_single k
  rw [hend] at hk
  have hmidpoint : c * 10 ^ j = (2 * s + 1) * half (BinaryFormat.single.shiftAt k) := by
    exact_mod_cast hk
  have hfew := exponent_of_midpoint (t := z + j) hpos hcoefficient
    (show 2 * s + 1 < 2 ^ 25 by omega) ⟨s, rfl⟩
    (by rw [Nat.pow_add, ← Nat.mul_assoc, ← hc, hmidpoint])
  refine (hy.nearest (by omega)).value_eq_of_units (s := 2 * s + 1)
    (k := BinaryFormat.single.shiftAt k + 924) ?_ ?_
  · exact (show 2 * s + 1 ≤ 2 ^ 53 by omega).trans_eq (by decide)
  · rw [hmidpoint, hplaces]
    exact midpoint_scaled (2 * s + 1) (BinaryFormat.single.shiftAt k)

/-- A number under either sign. -/
theorem signed {f : BinaryFormat} {y : Binary f} (hy : y.negative = false) (s : Bool) :
    (if s then -y else y).negative = s ∧ (if s then -y else y).magnitude = y.magnitude := by
  cases s
  · exact ⟨hy, rfl⟩
  · exact ⟨congrArg (!·) hy, rfl⟩

/-- A number is found again by way of another format that keeps near to it. -/
theorem toFormat_eq {f g : BinaryFormat} {x : Binary f} {y : Binary g} (hf : 1 < f.precision)
    (hx : x.isFinite) (hy : y.isFinite) (hnegative : y.negative = x.negative)
    (hnearest : x.IsNearest y.value) : y.toFormat = x := by
  rw [toFormat, isNaN_eq_false hy, isInfinite_eq_false hy, if_neg (by simp), if_neg (by simp),
    hnegative]
  refine ofRatio_eq hf (Nat.two_pow_pos _) hx ?_
  rw [two_pow_cast]
  exact hnearest

end Binary

namespace Json

/-- **A number of 32 bits is read back** if it is finite, and nothing is if it is not. -/
theorem single?_ofSingle (x : Single) :
    single? (ofSingle x) = if x.isFinite then some x else none := by
  by_cases hx : x.isFinite
  · rw [ofSingle, if_pos hx, if_pos hx]
    by_cases h0 : x.magnitude = 0
    · obtain ⟨s, rfl⟩ : ∃ s, x = .zero s := ⟨x.negative, Binary.ext rfl h0⟩
      cases s <;> decide +kernel
    by_cases hx' : x.magnitude ∈ Binary.awkward
    · have hall : ∀ m ∈ Binary.awkward, ∀ s, single? (.number
          ((Binary.ofMagnitude s m : Single).numeral singleLayout)) = some (.ofMagnitude s m) := by
        decide +kernel
      have hself : .ofMagnitude x.negative x.magnitude = x :=
        Binary.ext rfl (Binary.magnitude_ofMagnitude _ x.magnitude_lt)
      have := hall _ hx' x.negative
      rwa [hself] at this
    · obtain ⟨y, hread, hy, hpositive, hnearest⟩ := Binary.toDouble?_numeral hx h0 hx'
      have hfraction := Binary.toInt?_numeral h0 (l := singleLayout) rfl
      generalize x.numeral singleLayout = n at hread hfraction
      obtain ⟨hnegative, hmagnitude⟩ := Binary.signed hpositive x.negative
      simp only [single?, hfraction, hread, Option.map_some, Option.some.injEq]
      generalize (if x.negative then -y else y) = y' at hnegative hmagnitude
      refine Binary.toFormat_eq (by decide) hx ?_ hnegative ?_
      · rwa [Binary.isFinite, hmagnitude]
      · rwa [Binary.value, Binary.units_eq, hmagnitude]
  · rw [ofSingle, if_neg hx, if_neg hx]
    rfl

end Json

/-! ## Times in seconds -/

namespace Binary

section Time

variable {x : Double} {n : ℕ} (h0 : x.magnitude ≠ 0) (hn : 0 < n) (hbits : n < 2 ^ 53)
  (hx : x.IsNearest (n / 10 ^ 9))
include h0 hn hbits hx

omit h0 in
/-- A number of nanoseconds is within half a unit of the last place. -/
theorem time_error_le : |x.value - n / 10 ^ 9| ≤ (n / 10 ^ 9 / 2 ^ 53 : ℚ) ∧
    (1 / 10 ^ 9 : ℚ) ≤ n / 10 ^ 9 ∧ (n / 10 ^ 9 : ℚ) < 10 ^ 7 := by
  have hnq : (1 : ℚ) ≤ n := Nat.one_le_cast.2 hn
  have hnq' : (n : ℚ) < 2 ^ 53 := by exact_mod_cast hbits
  have hge : (1 / 10 ^ 9 : ℚ) ≤ n / 10 ^ 9 := by gcongr
  refine ⟨hx.double_error_le (hge.trans' ?_), hge, ?_⟩
  · rw [div_le_div_iff₀ (by positivity) (by positivity), one_mul, one_mul]
    exact (show (10 ^ 9 : ℚ) ≤ 2 ^ 30 by norm_num).trans
      (pow_le_pow_right₀ (by norm_num) (by norm_num))
  · rw [div_lt_iff₀ (by positivity)]
    linarith

/-- The shortest digits of a number of nanoseconds end at the nanoseconds or before, and make no
larger number than the next one. -/
theorem time_digits {J c j : ℕ} (hf : x.interval.Found J c j) (hJ : x.interval.value < 10 ^ J) :
    x.intervalPlaces ≤ j + 9 ∧ c ≤ 2 ^ 53 := by
  obtain ⟨herror, hge, -⟩ := time_error_le hn hbits hx
  obtain ⟨hlow, hhigh⟩ := abs_le.1 herror
  have hnq' : (n : ℚ) < 2 ^ 53 := by exact_mod_cast hbits
  obtain ⟨k, hk⟩ : ∃ k, k + 9 = x.intervalPlaces := ⟨1067, rfl⟩
  have hten : (0 : ℚ) < 10 ^ k := by positivity
  -- the nanoseconds are on one of the grids
  have hnanos : x.interval.contains (n * 10 ^ k) := by
    rw [contains_interval_iff (by decide) h0, ← hk, pow_add]
    push_cast
    rwa [mul_comm (10 ^ k : ℚ), mul_div_mul_right _ _ hten.ne']
  have hvalue : (x.interval.value : ℚ) = x.value * 10 ^ 9 * 10 ^ k := by
    rw [mul_assoc, mul_comm (10 ^ 9 : ℚ), ← pow_add, hk, value_scaled]
  have hbelow : x.interval.value < (n + 1) * 10 ^ k := by
    rw [← Nat.cast_lt (α := ℚ), hvalue]
    push_cast
    exact mul_lt_mul_of_pos_right (by linarith) hten
  have hj : k ≤ j := by
    refine hf.le_of_contains ?_ hnanos
    by_contra hfew
    have hpow : 10 * 10 ^ J ≤ 10 ^ k := by
      rw [← Nat.pow_succ']
      exact Nat.pow_le_pow_right (by omega) (by omega)
    have hpow' : (10 * 10 ^ J : ℚ) ≤ 10 ^ k := by exact_mod_cast hpow
    have hJ' : (x.interval.value : ℚ) < 10 ^ J := by exact_mod_cast hJ
    have := mul_le_mul_of_nonneg_right (show 1 / 10 ≤ x.value * 10 ^ 9 by linarith) hten.le
    linarith
  refine ⟨by omega, ?_⟩
  calc c ≤ x.interval.value / 10 ^ j + 1 := hf.le_succ
    _ ≤ x.interval.value / 10 ^ k + 1 :=
      Nat.succ_le_succ (Nat.div_le_div_left (Nat.pow_le_pow_right (by omega) hj)
        (Nat.pow_pos (by omega)))
    _ ≤ n + 1 := by
      have := (Nat.div_lt_iff_lt_mul (Nat.pow_pos (by omega))).2 hbelow
      omega
    _ ≤ 2 ^ 53 := hbits

/-- The shortest digits of a number of nanoseconds are read as that number. -/
theorem toDouble?_time : ∃ y : Double,
    (x.numeral Json.doubleLayout).toDouble? = some (if x.negative then -y else y) ∧
      y.negative = false ∧ y.magnitude = x.magnitude := by
  obtain ⟨c, j, z, hf, hc, hpos, he, hlays, hvalue⟩ := laid h0 (l := Json.doubleLayout) rfl
  obtain ⟨hj, hcbits⟩ := time_digits h0 hn hbits hx hf (lt_ten_pow_digits _)
  obtain ⟨herror, hge, hlt⟩ := time_error_le hn hbits hx
  have hnearest := (contains_interval_iff (by decide) h0).1 hf.contains
  generalize x.shortest Json.doubleLayout.tie = d at hc hpos he hlays hvalue
  generalize x.numeral Json.doubleLayout = m at hlays ⊢
  rw [← hvalue] at hnearest
  have hdbits : d.coefficient ≤ 2 ^ 53 :=
    (Nat.le_mul_of_pos_right _ (Nat.pow_pos (by omega))).trans (hc ▸ hcbits)
  have hdpos : (1 : ℚ) ≤ d.coefficient := Nat.one_le_cast.2 hpos
  have hfine : -9 ≤ d.exponent := by omega
  -- the decimal is not much larger than the time
  have hsmall : (d.coefficient * 10 ^ d.exponent : ℚ) < 10 ^ 8 := by
    have hten : (10 ^ (-9 : ℤ) : ℚ) ≤ 10 ^ d.exponent := zpow_le_zpow_right₀ (by norm_num) hfine
    have hleast : (1 / 2 ^ 255 : ℚ) ≤ d.coefficient * 10 ^ d.exponent :=
      calc (1 / 2 ^ 255 : ℚ) ≤ 1 * 10 ^ (-9 : ℤ) := by norm_num
        _ ≤ d.coefficient * 10 ^ d.exponent := by gcongr
    obtain ⟨hnear, -⟩ := abs_le.1 (hnearest.double_error_le hleast)
    obtain ⟨-, hnear'⟩ := abs_le.1 herror
    clear hvalue hnearest hx
    linarith
  have hexponent : d.exponent < 8 := by
    by_contra hle
    have hlarge : (10 ^ (8 : ℤ) : ℚ) ≤ 10 ^ d.exponent :=
      zpow_le_zpow_right₀ (by norm_num) (by omega)
    have : (1 * 10 ^ (8 : ℤ) : ℚ) ≤ d.coefficient * 10 ^ d.exponent := by gcongr
    exact absurd hsmall (not_lt.2 (by simpa using this))
  have hzeros : ∀ e : ℕ, d.exponent = e → Json.doubleLayout.isPositional d.point →
      d.coefficient * 10 ^ (e + 1) ≤ 2 ^ 53 := by
    intro e hwhole _
    rw [hwhole, zpow_natCast] at hsmall
    have hsmall' : d.coefficient * 10 ^ e < 10 ^ 8 := by exact_mod_cast hsmall
    rw [Nat.pow_succ, ← Nat.mul_assoc]
    omega
  obtain ⟨y, hread, hy⟩ := hlays.toDouble?_spec hpos hdbits (by omega) hzeros
  exact ⟨y, hread, hy.positive, (hy.nearest (by omega)).unique hnearest⟩

end Time

/-- Seconds from nanoseconds are rounded once. -/
theorem seconds_spec {n : ℤ} (hn : n.natAbs ≤ 2 ^ 53) :
    (ofInt n / ofInt 1000000000 : Double).isFinite ∧
      (ofInt n / ofInt 1000000000 : Double).IsNearest (n.natAbs / 10 ^ 9) := by
  obtain ⟨hnanos, hnanosValue⟩ := value_ofRatio_one (s := n < 0) hn
  obtain ⟨hsecond, hsecondValue⟩ := value_ofRatio_one (s := decide ((1000000000 : ℤ) < 0))
    (a := 1000000000) (by norm_num)
  have hsecond0 := magnitude_ne_zero (by rw [hsecondValue]; norm_num)
  have hratio := quotient_eq (ofRatio (n < 0) n.natAbs 1 : Double)
    (ofRatio (decide ((1000000000 : ℤ) < 0)) 1000000000 1)
  rw [hnanosValue, hsecondValue] at hratio
  have hnq : (n.natAbs : ℚ) ≤ 2 ^ 53 := by exact_mod_cast hn
  change (ofRatio (n < 0) n.natAbs 1 / ofRatio _ 1000000000 1 : Double).isFinite ∧
    (ofRatio (n < 0) n.natAbs 1 / ofRatio _ 1000000000 1 : Double).IsNearest _
  rw [div_eq hnanos hsecond hsecond0]
  have hrounded := ofRatio_double (decide (n < 0) != false)
    (ofRatio (n < 0) n.natAbs 1 : Double).units (units_pos hsecond0) (by
      rw [hratio]
      push_cast
      linarith)
  rw [hratio] at hrounded
  norm_num at hrounded ⊢
  exact hrounded

end Binary

namespace Json

theorem double?_number {m : Numeral} (hm : m.toInt? = none) :
    double? (.number m) = m.toDouble? := by
  simp only [double?, hm]

/-- **A time in seconds is read back** if it is less than `2 ^ 53` nanoseconds. -/
theorem double?_ofDouble_time {n : ℤ} (hn : n.natAbs < 2 ^ 53) :
    double? (ofDouble (Binary.ofInt n / Binary.ofInt 1000000000)) =
      some (Binary.ofInt n / Binary.ofInt 1000000000) := by
  rcases eq_or_ne n 0 with rfl | hne
  · decide +kernel
  obtain ⟨hfinite, hnearest⟩ := Binary.seconds_spec hn.le
  generalize (Binary.ofInt n / Binary.ofInt 1000000000 : Double) = x at hfinite hnearest ⊢
  have hpos : 0 < n.natAbs := Int.natAbs_pos.2 hne
  have h0 : x.magnitude ≠ 0 := by
    obtain ⟨herror, hge, -⟩ := Binary.time_error_le hpos hn hnearest
    obtain ⟨hlow, -⟩ := abs_le.1 herror
    exact Binary.magnitude_ne_zero (by linarith)
  obtain ⟨y, hread, hpositive, hmagnitude⟩ := Binary.toDouble?_time h0 hpos hn hnearest
  have hfraction := Binary.toInt?_numeral h0 (l := doubleLayout) rfl
  rw [ofDouble, if_pos hfinite]
  generalize x.numeral doubleLayout = m at hread hfraction
  obtain ⟨hsign, hsame⟩ := Binary.signed hpositive x.negative
  rw [double?_number hfraction, hread]
  exact congrArg some (Binary.ext hsign (hsame.trans hmagnitude))

end Json

end Screencast
