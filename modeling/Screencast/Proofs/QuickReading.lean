import Screencast.Json.Number
import Screencast.Proofs.ShortestDigits

/-!
# Reading numbers quickly

A numeral of up to 19 digits is read as its coefficient times a power of ten, with one rounding for
the power and one for the product. The result is within a little more than a unit of the last place;
where the power has few digits it is the nearest number.

* `Numeral.leading_eq`: the coefficient and the power of a numeral.
* `Numeral.scale_spec`: the product in 64-bit floating point.
* `Layout.lays_numeral`: the coefficient and the power of what a layout writes;
  `Layout.Lays.toDouble?_spec`: what it is read as.
-/

namespace Screencast

namespace Numeral

variable {n : Numeral} {ds : List Digit} {a : ℕ}

/-- All digits as one natural number. -/
def coefficient (n : Numeral) : ℕ := toNat (n.whole ++ n.fraction)

/-- The power of ten that the coefficient is multiplied by. -/
def power (n : Numeral) : ℤ := n.exponent.getD 0 - n.fraction.length

theorem gather_eq (h : a * 10 ^ ds.length + toNat ds ≤ significandBound) :
    gather a ds = (a * 10 ^ ds.length + toNat ds, []) := by
  induction ds generalizing a with
  | nil => simp [gather, toNat]
  | cons d ds ih =>
    have hcons : toNat (d :: ds) = d * 10 ^ ds.length + toNat ds := by
      have := toNat_append [d] ds
      simpa [toNat] using this
    have hsum : (10 * a + d) * 10 ^ ds.length + toNat ds =
        a * 10 ^ (d :: ds).length + toNat (d :: ds) := by
      rw [hcons, List.length_cons, Nat.pow_succ]
      ring
    have hfits : 10 * a + d ≤ significandBound := by
      have hten : 0 < 10 ^ ds.length := Nat.pow_pos (by omega)
      have := Nat.le_mul_of_pos_right (10 * a + d.val) hten
      omega
    rw [gather, if_pos hfits, ih (by omega), hsum]

/-- A coefficient that fits is taken as a whole. -/
theorem leading_eq (h : n.coefficient ≤ significandBound) :
    n.leading = (n.coefficient, n.power) := by
  have hsum := toNat_append n.whole n.fraction
  rw [coefficient, hsum] at h
  have hwhole : gather 0 n.whole = (toNat n.whole, []) := by
    have hten : 0 < 10 ^ n.fraction.length := Nat.pow_pos (by omega)
    have := Nat.le_mul_of_pos_right (toNat n.whole) hten
    have hgather : gather 0 n.whole = (0 * 10 ^ n.whole.length + toNat n.whole, []) :=
      gather_eq (by omega)
    simpa using hgather
  simp only [leading, hwhole, gather_eq h, coefficient, hsum, power]
  simp only [List.length_nil, Prod.mk.injEq, true_and]
  omega

end Numeral

/-! ## Numbers of 64 bits -/

namespace Binary

theorem double_binade : (BinaryFormat.double.binade : ℚ) = 2 ^ 52 := by
  norm_num [BinaryFormat.binade, BinaryFormat.double]

theorem double_places : BinaryFormat.double.places = 1074 := by decide

/-- A quotient far from the largest number is rounded to the nearest. -/
theorem ofRatio_double (s : Bool) (num : ℕ) {den : ℕ} (hd : 0 < den)
    (hr : (num / den : ℚ) ≤ 2 ^ 255) :
    (ofRatio s num den : Double).isFinite ∧ (ofRatio s num den : Double).IsNearest (num / den) := by
  have hfinite : (ofRatio s num den : Double).isFinite := by
    refine isFinite_ofRatio (k := 1600) (by decide) hd (by decide) ?_
    rw [double_binade, double_places]
    calc (num / den * 2 ^ 1074 : ℚ) ≤ 2 ^ 255 * 2 ^ 1074 := by gcongr
      _ ≤ 2 ^ 52 * 2 ^ 1600 := by
        rw [← pow_add, ← pow_add]
        exact pow_le_pow_right₀ (by norm_num) (by norm_num)
  exact ⟨hfinite, isNearest_ofRatio (by decide) hd hfinite⟩

/-- The error of one rounding. -/
theorem IsNearest.double_error_le {x : Double} {r : ℚ} (hx : x.IsNearest r) (hr : 1 / 2 ^ 255 ≤ r) :
    |x.value - r| ≤ r / 2 ^ 53 := by
  have h := hx.error_le (by
    rw [double_binade, double_places]
    calc (2 ^ 52 : ℚ) ≤ 2 ^ 819 := pow_le_pow_right₀ (by norm_num) (by norm_num)
      _ = 1 / 2 ^ 255 * 2 ^ 1074 := by
        rw [div_mul_eq_mul_div, one_mul, eq_div_iff (by positivity), ← pow_add]
      _ ≤ r * 2 ^ 1074 := by gcongr)
  rw [double_binade] at h
  exact h.trans_eq (by norm_num)

/-- A natural number of 53 bits is itself. -/
theorem value_ofRatio_one {s : Bool} {a : ℕ} (ha : a ≤ 2 ^ 53) :
    (ofRatio s a 1 : Double).isFinite ∧ (ofRatio s a 1 : Double).value = a := by
  have haq : (a : ℚ) ≤ 2 ^ 53 := by exact_mod_cast ha
  obtain ⟨hfinite, hnearest⟩ := ofRatio_double s a Nat.zero_lt_one (by
    rw [Nat.cast_one, div_one]
    exact haq.trans (by norm_num))
  rw [Nat.cast_one, div_one] at hnearest
  refine ⟨hfinite, hnearest.value_eq_of_units (s := a) (k := 1074) ?_ ?_⟩
  · exact ha.trans_eq (by decide)
  · rw [double_places]

/-- A power of ten is rounded once, and not at all if its odd part has 53 bits. -/
theorem powerOfTen_spec {k : ℕ} (hk : k ≤ 60) :
    (Numeral.powerOfTen k).isFinite ∧ (Numeral.powerOfTen k).negative = false ∧
      |(Numeral.powerOfTen k).value - 10 ^ k| ≤ 10 ^ k / 2 ^ 53 ∧
      (k ≤ 22 → (Numeral.powerOfTen k).value = 10 ^ k) := by
  have hle : (10 ^ k : ℚ) ≤ 10 ^ 60 := pow_le_pow_right₀ (by norm_num) hk
  have hge : (1 : ℚ) ≤ 10 ^ k := one_le_pow₀ (by norm_num)
  have hcast : ((10 ^ k : ℕ) : ℚ) / (1 : ℕ) = 10 ^ k := by
    rw [Nat.cast_one, div_one]
    exact Nat.cast_pow 10 k
  obtain ⟨hfinite, hnearest⟩ := ofRatio_double false (10 ^ k) Nat.zero_lt_one (by
    rw [hcast]
    exact hle.trans (by norm_num))
  rw [hcast] at hnearest
  refine ⟨hfinite, rfl, hnearest.double_error_le (hge.trans' (by norm_num)), fun hk' => ?_⟩
  refine hnearest.value_eq_of_units (s := 5 ^ k) (k := k + 1074) ?_ ?_
  · exact (Nat.pow_le_pow_right (by omega) hk').trans (by decide)
  · rw [double_places, pow_add, ← mul_assoc]
    push_cast
    rw [← mul_pow]
    norm_num

end Binary

namespace Numeral

/-- What a coefficient times a power of ten is read as: within a little more than two roundings, and
the nearest number if the power is small. -/
structure ReadAs (r : ℚ) (e : ℤ) (y : Double) : Prop where
  finite : y.isFinite
  positive : y.negative = false
  error_le : |y.value - r| ≤ 257 / 2 ^ 60 * r
  nearest : e.natAbs ≤ 22 → y.IsNearest r

/-- The error of a product with a factor that was rounded itself. -/
theorem error_mul_le {y a p P : ℚ} (ha : 0 < a) (hy : |y - a * p| ≤ a * p / 2 ^ 53)
    (hp : |p - P| ≤ P / 2 ^ 53) : |y - a * P| ≤ 257 / 2 ^ 60 * (a * P) := by
  rw [abs_le] at hy hp ⊢
  have hlow := mul_le_mul_of_nonneg_left (show P - P / 2 ^ 53 ≤ p by linarith) ha.le
  have hhigh := mul_le_mul_of_nonneg_left (show p ≤ P + P / 2 ^ 53 by linarith) ha.le
  constructor <;> linarith

/-- The error of a quotient by a divisor that was rounded itself. -/
theorem error_div_le {y a p P : ℚ} (ha : 0 < a) (hP : 0 < P) (hy : |y - a / p| ≤ a / p / 2 ^ 53)
    (hp : |p - P| ≤ P / 2 ^ 53) : |y - a / P| ≤ 257 / 2 ^ 60 * (a / P) := by
  rw [abs_le] at hy hp ⊢
  have hppos : 0 < p := by linarith
  have hlow : a / p * (1 - 1 / 2 ^ 53) ≤ a / P := by
    rw [le_div_iff₀ hP, mul_assoc, div_mul_eq_mul_div, div_le_iff₀ hppos]
    refine mul_le_mul_of_nonneg_left ?_ ha.le
    linarith
  have hhigh : a / P ≤ a / p * (1 + 1 / 2 ^ 53) := by
    rw [div_le_iff₀ hP, mul_assoc, div_mul_eq_mul_div, le_div_iff₀ hppos]
    refine mul_le_mul_of_nonneg_left ?_ ha.le
    linarith
  constructor <;> linarith

section Scale

variable {x : Double} {a k : ℕ} (hx : x.isFinite) (hvalue : x.value = a) (hneg : x.negative = false)
  (h0 : 0 < a) (ha : a ≤ 2 ^ 53) (hk : k ≤ 60)
include hx hvalue hneg h0 ha hk

theorem readAs_product : ReadAs (a * 10 ^ k) k (x * powerOfTen k) := by
  obtain ⟨hp, hpneg, herror, hexact⟩ := Binary.powerOfTen_spec hk
  have hge : (1 : ℚ) ≤ 10 ^ k := one_le_pow₀ (by norm_num)
  have hle : (10 ^ k : ℚ) ≤ 10 ^ 60 := pow_le_pow_right₀ (by norm_num) hk
  have haq : (1 : ℚ) ≤ a := Nat.one_le_cast.2 h0
  have haq' : (a : ℚ) ≤ 2 ^ 53 := by exact_mod_cast ha
  rw [Binary.mul_eq hx hp, hneg, hpneg]
  generalize powerOfTen k = p at hp herror hexact ⊢
  obtain ⟨hlow, hhigh⟩ := abs_le.1 herror
  have hproduct := Binary.product_eq x p
  rw [hvalue] at hproduct
  obtain ⟨hfinite, hnearest⟩ := Binary.ofRatio_double false
    (x.units * p.units) (Nat.two_pow_pos (2 * BinaryFormat.double.places)) (by
      rw [hproduct]
      calc (a * p.value : ℚ) ≤ 2 ^ 53 * (2 * 10 ^ 60) :=
            mul_le_mul haq' (by linarith) (by linarith) (by norm_num)
        _ ≤ 2 ^ 255 := by norm_num)
  rw [hproduct] at hnearest
  have hrounded := hnearest.double_error_le (by nlinarith)
  exact ⟨hfinite, rfl, error_mul_le (by linarith) hrounded herror, fun hk' => by
    rw [← hexact (by omega)]
    exact hnearest⟩

theorem readAs_quotient : ReadAs (a / 10 ^ k) (-k) (x / powerOfTen k) := by
  obtain ⟨hp, hpneg, herror, hexact⟩ := Binary.powerOfTen_spec hk
  have hge : (1 : ℚ) ≤ 10 ^ k := one_le_pow₀ (by norm_num)
  have hle : (10 ^ k : ℚ) ≤ 10 ^ 60 := pow_le_pow_right₀ (by norm_num) hk
  have haq : (1 : ℚ) ≤ a := Nat.one_le_cast.2 h0
  have haq' : (a : ℚ) ≤ 2 ^ 53 := by exact_mod_cast ha
  generalize powerOfTen k = p at hp hpneg herror hexact ⊢
  obtain ⟨hlow, hhigh⟩ := abs_le.1 herror
  have hppos : 1 / 2 ≤ p.value := by linarith
  have hp0 : p.magnitude ≠ 0 := Binary.magnitude_ne_zero (by linarith)
  rw [Binary.div_eq hx hp hp0, hneg, hpneg]
  have hquotient := Binary.quotient_eq x p
  rw [hvalue] at hquotient
  obtain ⟨hfinite, hnearest⟩ := Binary.ofRatio_double false x.units
    (Binary.units_pos hp0) (by
      rw [hquotient, div_le_iff₀ (by linarith)]
      linarith)
  rw [hquotient] at hnearest
  have hrounded := hnearest.double_error_le (by
    rw [div_le_div_iff₀ (by positivity) (by linarith)]
    linarith)
  exact ⟨hfinite, rfl, error_div_le (by linarith) (by linarith) hrounded herror, fun hk' => by
    rw [← hexact (by omega)]
    exact hnearest⟩

end Scale

theorem scale_spec {a : ℕ} {e : ℤ} (h0 : 0 < a) (ha : a ≤ 2 ^ 53) (he : e.natAbs ≤ 60) :
    ∃ y, scale (Binary.ofRatio false a 1) e = some y ∧ ReadAs (a * 10 ^ e) e y := by
  obtain ⟨hx, hvalue⟩ := Binary.value_ofRatio_one (s := false) ha
  have hneg : (Binary.ofRatio false a 1 : Double).negative = false := rfl
  generalize Binary.ofRatio false a 1 = x at hx hvalue hneg
  have hx0 : x.isZero = false := by
    refine beq_eq_false_iff_ne.2 (Binary.magnitude_ne_zero ?_)
    rw [hvalue]
    exact Nat.cast_ne_zero.2 h0.ne'
  rw [scale, hx0, if_neg (by simp)]
  rcases le_or_gt 0 e with hpos | hlt
  · obtain ⟨k, rfl⟩ := Int.eq_ofNat_of_zero_le hpos
    have hy := readAs_product hx hvalue hneg h0 ha (k := k) (by omega)
    refine ⟨x * powerOfTen k, ?_, by rwa [zpow_natCast]⟩
    rw [if_pos hpos, if_pos (by rw [lastPower]; omega), Int.toNat_natCast]
    simp [Binary.isInfinite_eq_false hy.finite]
  · obtain ⟨k, hk⟩ := Int.eq_ofNat_of_zero_le (show 0 ≤ -e by omega)
    obtain rfl : e = -k := by omega
    refine ⟨x / powerOfTen k, ?_, ?_⟩
    · rw [if_neg (by omega), if_pos (by rw [lastPower]; omega), neg_neg, Int.toNat_natCast]
    · rw [zpow_neg, zpow_natCast, ← div_eq_mul_inv]
      exact readAs_quotient hx hvalue hneg h0 ha (by omega)

variable {n : Numeral}

/-- What a numeral with a coefficient of 53 bits is read as. -/
theorem toDouble?_spec (h0 : 0 < n.coefficient) (hc : n.coefficient ≤ 2 ^ 53)
    (he : n.power.natAbs ≤ 60) :
    ∃ y, n.toDouble? = some (if n.negative then -y else y) ∧
      ReadAs (n.coefficient * 10 ^ n.power) n.power y := by
  obtain ⟨y, hscale, hy⟩ := scale_spec h0 hc he
  refine ⟨y, ?_, hy⟩
  rw [toDouble?, leading_eq (hc.trans (by decide))]
  simp [hscale]

end Numeral

/-! ## What a layout writes -/

namespace Layout

variable {l : Layout} {negative : Bool} {d : Decimal}

/-- The numeral of a decimal: its value is that of the decimal, it is no plain integer, and zeros
are added to its digits only where a whole number is written positionally. -/
structure Lays (l : Layout) (negative : Bool) (d : Decimal) (n : Numeral) : Prop where
  negative_eq : n.negative = negative
  toInt?_eq : n.toInt? = none
  value_eq : ∃ z : ℕ, n.coefficient = d.coefficient * 10 ^ z ∧ n.power = d.exponent - z ∧
    (z = 0 ∨ l.isPositional d.point ∧ 0 ≤ d.exponent ∧ z = d.exponent + 1)

theorem toInt?_eq_none {n : Numeral} (h : n.fraction ≠ [] ∨ n.exponent ≠ none) :
    n.toInt? = none := by
  unfold Numeral.toInt?
  rw [if_pos]
  rcases h with h | h
  · simp [h]
  · simp [Option.isSome_iff_ne_none.2 h]

theorem lays_numeral (negative : Bool) (hp : l.pointAlways) (hd : d.Led) :
    l.Lays negative d (l.numeral negative d) := by
  obtain ⟨a, as, hdigits, -⟩ := hd
  have hlen : d.digits.length = as.length + 1 := by rw [hdigits, List.length_cons]
  have hne : d.digits ≠ [] := by simp [hdigits]
  unfold Layout.numeral
  simp only
  split_ifs with hpositional hsmall hwhole
  · refine ⟨rfl, toInt?_eq_none (.inl (by simp [hne])), 0, ?_, ?_, .inl rfl⟩
    · simp only [Numeral.coefficient, toNat_append, toNat_replicate_zero]
      simp [toNat, Decimal.coefficient]
    · simp only [Numeral.power, Decimal.exponent, List.length_append, List.length_replicate,
        Option.getD_none]
      omega
  · have hfraction : l.emptyFraction = [0] := by rw [Layout.emptyFraction, if_pos hp]
    refine ⟨rfl, toInt?_eq_none (.inl (by simp [hfraction])),
      (d.point - d.digits.length).toNat + 1, ?_, ?_, .inr ⟨hpositional, ?_, ?_⟩⟩
    · simp only [Numeral.coefficient, hfraction, List.append_assoc]
      rw [← List.replicate_one, List.replicate_append_replicate, toNat_append,
        toNat_replicate_zero, List.length_replicate]
      rfl
    · simp only [Numeral.power, Decimal.exponent, hfraction, List.length_singleton,
        Option.getD_none]
      omega
    · rw [Decimal.exponent]
      omega
    · rw [Decimal.exponent]
      omega
  · refine ⟨rfl, toInt?_eq_none (.inl ?_), 0, ?_, ?_, .inl rfl⟩
    · rw [ne_eq, List.drop_eq_nil_iff]
      omega
    · simp [Numeral.coefficient, Decimal.coefficient]
    · simp only [Numeral.power, Decimal.exponent, List.length_drop, Option.getD_none]
      omega
  · refine ⟨rfl, toInt?_eq_none (.inr (by simp)), 0, ?_, ?_, .inl rfl⟩
    · simp only [Numeral.coefficient, List.take_append_drop, Nat.pow_zero, Nat.mul_one]
      rfl
    · simp only [Numeral.power, Decimal.exponent, List.length_drop, Option.getD_some]
      omega

/-- **What a layout writes is read** as the decimal that it writes, if the digits and the zeros after
them have 53 bits. -/
theorem Lays.toDouble?_spec {m : Numeral} (h : l.Lays negative d m) (h0 : 0 < d.coefficient)
    (hc : d.coefficient ≤ 2 ^ 53) (he : d.exponent.natAbs ≤ 60)
    (hzeros : ∀ e : ℕ, d.exponent = e → l.isPositional d.point →
      d.coefficient * 10 ^ (e + 1) ≤ 2 ^ 53) :
    ∃ y : Double, m.toDouble? = some (if negative then -y else y) ∧
      Numeral.ReadAs (d.coefficient * 10 ^ d.exponent) d.exponent y := by
  obtain ⟨z, hsum, hpower, hz⟩ := h.value_eq
  have hvalue : (m.coefficient * 10 ^ m.power : ℚ) = d.coefficient * 10 ^ d.exponent := by
    rw [hsum, hpower, zpow_sub₀ (by norm_num), zpow_natCast]
    push_cast
    field_simp
  have hpos : 0 < m.coefficient := by
    rw [hsum]
    exact Nat.mul_pos h0 (Nat.pow_pos (by omega))
  have hbits : m.coefficient ≤ 2 ^ 53 := by
    rw [hsum]
    rcases hz with rfl | ⟨hpositional, hwhole, hz⟩
    · omega
    · obtain ⟨e, he⟩ := Int.eq_ofNat_of_zero_le hwhole
      rw [show z = e + 1 by omega]
      exact hzeros e he hpositional
  obtain ⟨y, hread, hy⟩ := Numeral.toDouble?_spec hpos hbits (by omega)
  rw [h.negative_eq] at hread
  rw [hvalue] at hy
  exact ⟨y, hread, hy.finite, hy.positive, hy.error_le, fun hsmall => hy.nearest (by omega)⟩

end Layout

end Screencast
