import Mathlib.Algebra.Order.Floor.Semifield
import Mathlib.Data.Rat.Floor
import Screencast.Projection
import Screencast.Proofs.Rounding

/-!
# The picture keeps the display's proportions

The aspect ratio and the free side of the picture are computed in 32-bit floating point, with one
rounding for each operation. A chain of roundings is followed by counting them: after `n` of them the
result and the exact value are within a factor of `(1 - 2⁻²⁴) ^ n` of each other. On a canvas of
at most `2 ^ 20` pixels a side that is less than one pixel.

* `Binary.Approximates`: a number after so many roundings; `Approximates.mul`, `Approximates.div`:
  the count of a product and of a quotient.
* `Approximates.abs_sub_lt`: the count as an error in pixels.
* `Projection.value_width_lt`: where the full width leaves no room for the height, the full height
  leaves room for the width, although the two are rounded apart.
* `Projection.fit_placed_in_proportion`: the picture lies within the canvas, in the middle, and one
  of its sides is the canvas's, the other in proportion.
-/

namespace Screencast

namespace Binary

variable {x y : Single} {m n : ℕ} {r s : ℚ}

theorem single_binade : (BinaryFormat.single.binade : ℚ) = 2 ^ 23 := by
  norm_num [BinaryFormat.binade, BinaryFormat.single]

theorem single_places : BinaryFormat.single.places = 149 := by decide

/-- What one rounding to 24 significant bits leaves of a number at least. -/
def kept : ℚ := 1 - 1 / 2 ^ 24

theorem kept_pos : 0 < kept := by norm_num [kept]

theorem kept_le_one : kept ≤ 1 := by norm_num [kept]

/-- Two numbers that are `n` roundings apart. -/
structure Within (n : ℕ) (r v : ℚ) : Prop where
  below : kept ^ n * r ≤ v
  above : kept ^ n * v ≤ r

namespace Within

variable {t v : ℚ}

theorem refl (r : ℚ) : Within 0 r r := ⟨by simp, by simp⟩

theorem mono (h : Within m r v) (hr : 0 ≤ r) (hv : 0 ≤ v) (hmn : m ≤ n) : Within n r v := by
  have hpow : kept ^ n ≤ kept ^ m := pow_le_pow_of_le_one kept_pos.le kept_le_one hmn
  exact ⟨(mul_le_mul_of_nonneg_right hpow hr).trans h.below,
    (mul_le_mul_of_nonneg_right hpow hv).trans h.above⟩

theorem trans (hr : Within m r s) (hs : Within n s v) : Within (m + n) r v := by
  have hpow : ∀ k, (0 : ℚ) ≤ kept ^ k := fun k => (pow_pos kept_pos k).le
  constructor
  · calc kept ^ (m + n) * r = kept ^ n * (kept ^ m * r) := by ring
      _ ≤ kept ^ n * s := mul_le_mul_of_nonneg_left hr.below (hpow n)
      _ ≤ v := hs.below
  · calc kept ^ (m + n) * v = kept ^ m * (kept ^ n * v) := by ring
      _ ≤ kept ^ m * s := mul_le_mul_of_nonneg_left hs.above (hpow m)
      _ ≤ r := hr.above

theorem mul (hr : Within m r v) (hs : Within n s t) (hr0 : 0 ≤ r) (hs0 : 0 ≤ s) (hv0 : 0 ≤ v)
    (ht0 : 0 ≤ t) : Within (m + n) (r * s) (v * t) := by
  have hpow : ∀ k, (0 : ℚ) ≤ kept ^ k := fun k => (pow_pos kept_pos k).le
  constructor
  · calc kept ^ (m + n) * (r * s) = kept ^ m * r * (kept ^ n * s) := by ring
      _ ≤ v * t := mul_le_mul hr.below hs.below (mul_nonneg (hpow n) hs0) hv0
  · calc kept ^ (m + n) * (v * t) = kept ^ m * v * (kept ^ n * t) := by ring
      _ ≤ r * s := mul_le_mul hr.above hs.above (mul_nonneg (hpow n) ht0) hr0

theorem inv (h : Within n r v) (hr : 0 < r) (hv : 0 < v) : Within n r⁻¹ v⁻¹ := by
  constructor
  · rw [← div_eq_mul_inv, div_le_iff₀ hr, inv_mul_eq_div, le_div_iff₀ hv]
    exact h.above
  · rw [← div_eq_mul_inv, div_le_iff₀ hv, inv_mul_eq_div, le_div_iff₀ hr]
    exact h.below

theorem div (hr : Within m r v) (hs : Within n s t) (hr0 : 0 ≤ r) (hs0 : 0 < s) (hv0 : 0 ≤ v)
    (ht0 : 0 < t) : Within (m + n) (r / s) (v / t) := by
  rw [div_eq_mul_inv, div_eq_mul_inv]
  exact hr.mul (hs.inv hs0 ht0) hr0 (inv_pos.2 hs0).le hv0 (inv_pos.2 ht0).le

/-- A few roundings do not halve a number. -/
theorem half_le (h : Within n r v) (hr : 0 ≤ r) (hv : 0 ≤ v) (hn : n ≤ 8) :
    r / 2 ≤ v ∧ v / 2 ≤ r := by
  have h8 := h.mono hr hv hn
  have hhalf : (1 : ℚ) / 2 ≤ kept ^ 8 := by norm_num [kept]
  constructor
  · nlinarith [h8.below]
  · nlinarith [h8.above]

end Within

/-- A nonnegative finite number, `n` roundings away from the exact value. -/
structure Approximates (n : ℕ) (r : ℚ) (x : Single) : Prop where
  finite : x.isFinite
  positive : x.negative = false
  exact_nonneg : 0 ≤ r
  within : Within n r x.value

theorem value_nonneg (x : Single) : 0 ≤ x.value := by
  rw [value]
  positivity

/-- The numbers that a rounding neither carries to infinity nor brings near zero, and zero. -/
def Moderate (r : ℚ) : Prop := r = 0 ∨ 1 / 2 ^ 100 ≤ r ∧ r ≤ 2 ^ 63

/-- A few roundings keep a number away from the bounds of the format. -/
theorem Moderate.within (h : Within n r s) (hr : 0 ≤ r) (hs : 0 ≤ s) (hn : n ≤ 8)
    (hm : r = 0 ∨ 1 / 2 ^ 99 ≤ r ∧ r ≤ 2 ^ 62) : Moderate s := by
  obtain ⟨hlow, hhigh⟩ := h.half_le hr hs hn
  rcases hm with rfl | ⟨hge, hle⟩
  · exact .inl (by linarith)
  · refine .inr ⟨?_, ?_⟩
    · norm_num at hge ⊢
      linarith
    · norm_num at hle ⊢
      linarith

/-- **One rounding.** -/
theorem approximates_ofRatio {num den : ℕ} (hd : 0 < den) (hr : Moderate (num / den)) :
    Approximates 1 (num / den) (ofRatio false num den) := by
  have hr0 : (0 : ℚ) ≤ num / den := by positivity
  have hle : (num / den : ℚ) ≤ 2 ^ 63 := by
    rcases hr with h | h
    · rw [h]
      positivity
    · exact h.2
  have hfinite : (ofRatio false num den : Single).isFinite := by
    refine isFinite_ofRatio (k := 200) (by decide) hd (by decide) ?_
    rw [single_binade, single_places]
    calc (num / den * 2 ^ 149 : ℚ) ≤ 2 ^ 63 * 2 ^ 149 := by gcongr
      _ ≤ 2 ^ 23 * 2 ^ 200 := by norm_num
  have hnearest := isNearest_ofRatio (f := .single) (s := false) (by decide) hd hfinite
  refine ⟨hfinite, rfl, hr0, ?_⟩
  rcases hr with h | ⟨hge, -⟩
  · rw [h] at hnearest ⊢
    have hzero := hnearest.value_eq_of_units (s := 0) (k := 0) (Nat.zero_le _) (by norm_num)
    rw [hzero]
    exact ⟨by norm_num, by norm_num⟩
  · have herror := hnearest.error_le (by
      rw [single_binade, single_places]
      calc (2 ^ 23 : ℚ) ≤ 1 / 2 ^ 100 * 2 ^ 149 := by norm_num
        _ ≤ num / den * 2 ^ 149 := by gcongr)
    rw [single_binade, abs_le] at herror
    norm_num at herror
    constructor
    · norm_num [kept]
      linarith [herror.1]
    · norm_num [kept]
      linarith [herror.2]

/-- **A product** is rounded once more than its factors together. -/
theorem Approximates.mul (hx : Approximates m r x) (hy : Approximates n s y) (hmn : m + n ≤ 8)
    (hrs : r * s = 0 ∨ 1 / 2 ^ 99 ≤ r * s ∧ r * s ≤ 2 ^ 62) :
    Approximates (m + n + 1) (r * s) (x * y) := by
  have hx0 := value_nonneg x
  have hy0 := value_nonneg y
  have hproduct := hx.within.mul hy.within hx.exact_nonneg hy.exact_nonneg hx0 hy0
  have hrs0 := mul_nonneg hx.exact_nonneg hy.exact_nonneg
  have hmoderate := Moderate.within hproduct hrs0 (mul_nonneg hx0 hy0) hmn hrs
  rw [← product_eq] at hmoderate hproduct
  have hrounded := approximates_ofRatio (Nat.two_pow_pos _) hmoderate
  rw [mul_eq hx.finite hy.finite, hx.positive, hy.positive]
  exact ⟨hrounded.finite, hrounded.positive, hrs0, hproduct.trans hrounded.within⟩

/-- **A quotient** is rounded once more than its terms together. -/
theorem Approximates.div (hx : Approximates m r x) (hy : Approximates n s y) (hmn : m + n ≤ 8)
    (hs : 0 < s) (hrs : r / s = 0 ∨ 1 / 2 ^ 99 ≤ r / s ∧ r / s ≤ 2 ^ 62) :
    Approximates (m + n + 1) (r / s) (x / y) := by
  have hx0 := value_nonneg x
  have hy0 : 0 < y.value := (mul_pos (pow_pos kept_pos n) hs).trans_le hy.within.below
  have hquotient := hx.within.div hy.within hx.exact_nonneg hs hx0 hy0
  have hrs0 := div_nonneg hx.exact_nonneg hs.le
  have hmoderate := Moderate.within hquotient hrs0 (div_nonneg hx0 hy0.le) hmn hrs
  have hne := magnitude_ne_zero hy0.ne'
  rw [← quotient_eq] at hmoderate hquotient
  have hrounded := approximates_ofRatio (units_pos hne) hmoderate
  rw [div_eq hx.finite hy.finite hne, hx.positive, hy.positive]
  exact ⟨hrounded.finite, hrounded.positive, hrs0, hquotient.trans hrounded.within⟩

/-- What is computed from a number is computed exactly from its value. -/
theorem Approximates.self (hx : Approximates n r x) : Approximates 0 x.value x :=
  ⟨hx.finite, hx.positive, value_nonneg x, .refl _⟩

/-- **The error in pixels** of up to four roundings, on a canvas of at most `2 ^ 20` pixels. -/
theorem Approximates.abs_sub_lt (hx : Approximates n r x) (hn : n ≤ 4)
    (hle : x.value ≤ 2 ^ 20 + 1) : |x.value - r| < 1 := by
  have hv0 := value_nonneg x
  obtain ⟨hbelow, habove⟩ := hx.within.mono hx.exact_nonneg hv0 hn
  have hr : r ≤ 2 * (2 ^ 20 + 1) := by
    have := (hx.within.half_le hx.exact_nonneg hv0 (by omega)).1
    linarith
  have hlost : 1 - kept ^ 4 ≤ 1 / 2 ^ 22 := by norm_num [kept]
  have hr0 := hx.exact_nonneg
  rw [abs_lt]
  constructor <;> nlinarith

end Binary

namespace Projection

open Binary

variable {canvas : FrameSize} {width height : UInt32} {a x : Single} {m n : ℕ} {q r : ℚ}

/-! ## Pixels -/

theorem cast_pixels_le (p : UInt32) : (p.toNat : ℚ) ≤ 2 ^ 32 := by
  exact_mod_cast p.toNat_lt.le

theorem one_le_pixels {p : UInt32} (hp : p ≠ 0) : (1 : ℚ) ≤ p.toNat := by
  have : p.toNat ≠ 0 := fun h => hp (UInt32.toNat_inj.1 h)
  exact_mod_cast Nat.one_le_iff_ne_zero.2 this

/-- A number of pixels is rounded once. -/
theorem approximates_ofPixels (p : UInt32) : Approximates 1 p.toNat (ofPixels p) := by
  have hmoderate : Moderate ((p.toNat : ℚ) / (1 : ℕ)) := by
    rw [Nat.cast_one, div_one]
    rcases eq_or_ne p 0 with rfl | hp
    · exact .inl rfl
    · exact .inr ⟨(one_le_pixels hp).trans' (by norm_num),
        (cast_pixels_le p).trans (by norm_num)⟩
  have hrounded := approximates_ofRatio Nat.one_pos hmoderate
  rwa [Nat.cast_one, div_one] at hrounded

/-- A number of pixels that fits into a significand is not rounded at all. -/
theorem approximates_ofPixels_zero {p : UInt32} (hp : p.toNat ≤ 2 ^ 24) :
    Approximates 0 p.toNat (ofPixels p) := by
  have hrounded := approximates_ofPixels p
  have hnearest := isNearest_ofRatio (f := .single) (by decide) Nat.one_pos hrounded.finite
  have hvalue : (ofPixels p).value = p.toNat := by
    rw [Nat.cast_one, div_one] at hnearest
    exact hnearest.value_eq_of_units (k := 149) (hp.trans_eq (by decide)) (by rw [single_places])
  have hself := hrounded.self
  rwa [hvalue] at hself

/-- The whole pixels are the whole part, up to the largest word. -/
theorem toNat_toPixels (hx : Approximates n r x) :
    (toPixels x).toNat = min ⌊x.value⌋₊ (2 ^ 32 - 1) := by
  have hfloor : ⌊x.value⌋₊ = x.units / 2 ^ BinaryFormat.single.places := by
    rw [value, ← two_pow_cast, Nat.floor_div_eq_div]
  have hcut : x.truncate (2 ^ 32 - 1) = min ⌊x.value⌋₊ (2 ^ 32 - 1) := by
    simp [truncate, isNaN_eq_false hx.finite, isInfinite_eq_false hx.finite, hx.positive, hfloor]
  rw [toPixels, hcut, UInt32.toNat_ofNat_of_lt']
  exact (min_le_right _ _).trans_lt (by decide)

/-- Cut down to whole pixels, a side of the picture is off by less than two. -/
theorem abs_toPixels_sub_lt (hx : Approximates n r x) (hn : n ≤ 4) (hle : x.value ≤ 2 ^ 20 + 1) :
    |((toPixels x).toNat : ℚ) - r| < 2 := by
  have herror := abs_lt.1 (hx.abs_sub_lt hn hle)
  have hfloor : ⌊x.value⌋₊ ≤ 2 ^ 32 - 1 := by
    refine Nat.floor_le_of_le (hle.trans ?_)
    norm_num
  rw [toNat_toPixels hx, min_eq_left hfloor, abs_lt]
  have hlow := Nat.floor_le (value_nonneg x)
  have hhigh := Nat.lt_floor_add_one x.value
  constructor <;> linarith

/-! ## The sides of the picture -/

/-- An aspect ratio of a display that has an extent. -/
def IsAspect (q : ℚ) : Prop := 1 / 2 ^ 32 ≤ q ∧ q ≤ 2 ^ 32

theorem isAspect_div (hw : width ≠ 0) (hh : height ≠ 0) :
    IsAspect (height.toNat / width.toNat) := by
  have hw1 := one_le_pixels hw
  constructor
  · exact div_le_div₀ (by positivity) (one_le_pixels hh) (by linarith) (cast_pixels_le width)
  · rw [div_le_iff₀ (by linarith)]
    have := cast_pixels_le height
    nlinarith

theorem approximates_aspect (hw : width ≠ 0) (hh : height ≠ 0) :
    Approximates 3 (height.toNat / width.toNat) (ofPixels height / ofPixels width) := by
  obtain ⟨hlow, hhigh⟩ := isAspect_div hw hh
  refine (approximates_ofPixels height).div (approximates_ofPixels width) (by norm_num)
    (by linarith [one_le_pixels hw]) (.inr ⟨hlow.trans' (by norm_num), hhigh.trans (by norm_num)⟩)

/-- An aspect ratio that was rounded a few times still is a moderate number. -/
theorem value_bounds (ha : Approximates n q a) (hn : n ≤ 8) (hq : IsAspect q) :
    1 / 2 ^ 33 ≤ a.value ∧ a.value ≤ 2 ^ 33 := by
  obtain ⟨hlow, hhigh⟩ := ha.within.half_le ha.exact_nonneg (value_nonneg a) hn
  obtain ⟨hge, hle⟩ := hq
  norm_num at hge hle ⊢
  constructor <;> linarith

/-- The height that goes with the full width. -/
theorem approximates_height {p : UInt32} (hp : p.toNat ≤ 2 ^ 20) (ha : Approximates n r a)
    (hr : 1 / 2 ^ 33 ≤ r ∧ r ≤ 2 ^ 33) (hn : n ≤ 8) :
    Approximates (n + 1) (p.toNat * r) (ofPixels p * a) := by
  have hpq : (p.toNat : ℚ) ≤ 2 ^ 20 := by exact_mod_cast hp
  have hproduct := (approximates_ofPixels_zero (hp.trans (by norm_num))).mul ha (by omega) (by
    rcases eq_or_ne p 0 with rfl | hp0
    · exact .inl (zero_mul r)
    · have hp1 := one_le_pixels hp0
      refine .inr ⟨?_, ?_⟩
      · calc (1 / 2 ^ 99 : ℚ) ≤ 1 * (1 / 2 ^ 33) := by norm_num
          _ ≤ p.toNat * r := mul_le_mul hp1 hr.1 (by positivity) (by positivity)
      · calc (p.toNat * r : ℚ) ≤ 2 ^ 20 * 2 ^ 33 :=
            mul_le_mul hpq hr.2 ha.exact_nonneg (by positivity)
          _ ≤ 2 ^ 62 := by norm_num)
  rwa [Nat.zero_add] at hproduct

/-- The width that goes with the full height. -/
theorem approximates_width {p : UInt32} (hp : p.toNat ≤ 2 ^ 20) (ha : Approximates n r a)
    (hr : 1 / 2 ^ 33 ≤ r ∧ r ≤ 2 ^ 33) (hn : n ≤ 8) :
    Approximates (n + 1) (p.toNat / r) (ofPixels p / a) := by
  have hpq : (p.toNat : ℚ) ≤ 2 ^ 20 := by exact_mod_cast hp
  have hr0 : 0 < r := hr.1.trans_lt' (by norm_num)
  have hquotient := (approximates_ofPixels_zero (hp.trans (by norm_num))).div ha (by omega) hr0 (by
    rcases eq_or_ne p 0 with rfl | hp0
    · exact .inl (zero_div r)
    · have hp1 := one_le_pixels hp0
      refine .inr ⟨?_, ?_⟩
      · calc (1 / 2 ^ 99 : ℚ) ≤ 1 / 2 ^ 33 := by norm_num
          _ ≤ p.toNat / r := div_le_div₀ (by positivity) hp1 hr0 hr.2
      · calc (p.toNat / r : ℚ) ≤ 2 ^ 20 / (1 / 2 ^ 33) :=
            div_le_div₀ (by positivity) hpq (by positivity) hr.1
          _ ≤ 2 ^ 62 := by norm_num)
  rwa [Nat.zero_add] at hquotient

/-- **One side has room.** If the height that goes with the full width is not below the canvas's,
the width that goes with the full height is not above it by a whole pixel. The two are computed
from the same rounded ratio, so each of them is off by its own last rounding only. -/
theorem value_width_lt {p s : UInt32} (hp : p.toNat ≤ 2 ^ 20) (hs : s.toNat ≤ 2 ^ 20)
    (ha : Approximates n q a) (hn : n ≤ 8) (hq : IsAspect q)
    (hfull : (s.toNat : ℚ) ≤ (ofPixels p * a).value) : (ofPixels s / a).value < p.toNat + 1 := by
  have hpq : (p.toNat : ℚ) ≤ 2 ^ 20 := by exact_mod_cast hp
  have hbounds := value_bounds ha hn hq
  have ha0 : 0 < a.value := hbounds.1.trans_lt' (by norm_num)
  have hheight := (approximates_height hp ha.self hbounds (by norm_num)).within.above
  have hwidth := (approximates_width hs ha.self hbounds (by norm_num)).within.above
  rw [zero_add, pow_one] at hheight hwidth
  have hle : kept * (kept * (ofPixels s / a).value) ≤ p.toNat :=
    calc kept * (kept * (ofPixels s / a).value) ≤ kept * (s.toNat / a.value) :=
          mul_le_mul_of_nonneg_left hwidth kept_pos.le
      _ ≤ kept * ((ofPixels p * a).value / a.value) := by
          have := kept_pos
          gcongr
      _ ≤ p.toNat * a.value / a.value := by
          rw [← mul_div_assoc]
          gcongr
      _ = p.toNat := mul_div_cancel_right₀ _ ha0.ne'
  norm_num [kept] at hle
  linarith

/-! ## The picture on the canvas -/

/-- A picture no larger than the canvas, with what is left over halved between the two sides. -/
structure Placed (canvas picture : FrameSize) (d : Rectangle) : Prop where
  width_le : picture.width ≤ canvas.width
  height_le : picture.height ≤ canvas.height
  left : d.left.toNat = (canvas.width.toNat - picture.width.toNat) / 2
  top : d.top.toNat = (canvas.height.toNat - picture.height.toNat) / 2
  right : d.right.toNat = d.left.toNat + picture.width.toNat
  bottom : d.bottom.toNat = d.top.toNat + picture.height.toNat
  right_le : d.right ≤ canvas.width
  bottom_le : d.bottom ≤ canvas.height

/-- One side of the picture is the canvas's; the other is less than two pixels from what the aspect
ratio of a `width × height` display gives for it. -/
def InProportion (canvas picture : FrameSize) (width height : UInt32) : Prop :=
  picture.width = canvas.width ∧
      |(picture.height.toNat : ℚ) - canvas.width.toNat * height.toNat / width.toNat| < 2 ∨
    picture.height = canvas.height ∧
      |(picture.width.toNat : ℚ) - canvas.height.toNat * width.toNat / height.toNat| < 2

/-- A side cut down to whole pixels does not exceed a side that it is below in value. -/
theorem toPixels_le {p : UInt32} (hx : Approximates n r x) (hlt : x.value < p.toNat + 1) :
    toPixels x ≤ p := by
  have hfloor : ⌊x.value⌋₊ < p.toNat + 1 := by
    rw [Nat.floor_lt (value_nonneg x)]
    exact_mod_cast hlt
  rw [UInt32.le_iff_toNat_le, toNat_toPixels hx]
  omega

theorem value_lt_of_toPixels_lt {p : UInt32} (hx : Approximates n r x) (hlt : toPixels x < p) :
    x.value < p.toNat := by
  have hp := p.toNat_lt
  rw [UInt32.lt_iff_toNat_lt, toNat_toPixels hx] at hlt
  exact (Nat.floor_lt (value_nonneg x)).1 (by omega)

theorem le_value_of_le_toPixels {p : UInt32} (hx : Approximates n r x) (hle : p ≤ toPixels x) :
    (p.toNat : ℚ) ≤ x.value := by
  rw [UInt32.le_iff_toNat_le, toNat_toPixels hx] at hle
  exact (Nat.le_floor_iff (value_nonneg x)).1 (by omega)

/-- The full width leaves room for the height that goes with it. -/
theorem fitted_of_lt
    (hlt : toPixels (ofPixels canvas.width * (ofPixels height / ofPixels width)) < canvas.height) :
    fitted canvas width height =
      ⟨canvas.width, toPixels (ofPixels canvas.width * (ofPixels height / ofPixels width))⟩ :=
  if_pos hlt

/-- The full width leaves no room, so the full height is taken. -/
theorem fitted_of_le
    (hle : canvas.height ≤ toPixels (ofPixels canvas.width * (ofPixels height / ofPixels width))) :
    fitted canvas width height =
      ⟨toPixels (ofPixels canvas.height / (ofPixels height / ofPixels width)), canvas.height⟩ :=
  if_neg (UInt32.not_lt.2 hle)

/-- **The picture's size**: within the canvas, and in proportion. -/
theorem fitted_spec (hw : width ≠ 0) (hh : height ≠ 0) (hcw : canvas.width.toNat ≤ 2 ^ 20)
    (hch : canvas.height.toNat ≤ 2 ^ 20) :
    (fitted canvas width height).width ≤ canvas.width ∧
      (fitted canvas width height).height ≤ canvas.height ∧
      InProportion canvas (fitted canvas width height) width height := by
  have hcwq : (canvas.width.toNat : ℚ) ≤ 2 ^ 20 := by exact_mod_cast hcw
  have hchq : (canvas.height.toNat : ℚ) ≤ 2 ^ 20 := by exact_mod_cast hch
  have haspect := approximates_aspect hw hh
  have hq := isAspect_div hw hh
  have hmoderate := hq.imp (fun h => h.trans' (by norm_num : (1 : ℚ) / 2 ^ 33 ≤ 1 / 2 ^ 32))
    fun h => h.trans (by norm_num : (2 : ℚ) ^ 32 ≤ 2 ^ 33)
  rcases UInt32.lt_or_le (toPixels (ofPixels canvas.width * (ofPixels height / ofPixels width)))
    canvas.height with hlt | hle
  · have hheight := approximates_height hcw haspect hmoderate (by norm_num)
    have hroom := value_lt_of_toPixels_lt hheight hlt
    have herror := abs_toPixels_sub_lt hheight (by norm_num) (by linarith)
    rw [← mul_div_assoc] at herror
    rw [fitted_of_lt hlt]
    exact ⟨UInt32.le_refl _, UInt32.le_of_lt hlt, .inl ⟨rfl, herror⟩⟩
  · have hheight := approximates_height hcw haspect hmoderate (by norm_num)
    have hwidth := approximates_width hch haspect hmoderate (by norm_num)
    have hroom := value_width_lt hcw hch haspect (by norm_num) hq
      (le_value_of_le_toPixels hheight hle)
    have herror := abs_toPixels_sub_lt hwidth (by norm_num) (by linarith)
    rw [div_div_eq_mul_div] at herror
    rw [fitted_of_le hle]
    exact ⟨toPixels_le hwidth hroom, UInt32.le_refl _, .inr ⟨rfl, herror⟩⟩

/-- Half of what is left over, and the picture after it, stay below the canvas's side. -/
theorem centred_side {full part : UInt32} (hle : part ≤ full) :
    ((full - part) / 2).toNat = (full.toNat - part.toNat) / 2 ∧
      ((full - part) / 2 + part).toNat = ((full - part) / 2).toNat + part.toNat ∧
      (full - part) / 2 + part ≤ full := by
  have hfull := full.toNat_lt
  have hle' := UInt32.le_iff_toNat_le.1 hle
  have hhalf : ((full - part) / 2).toNat = (full.toNat - part.toNat) / 2 := by
    rw [UInt32.toNat_div, UInt32.toNat_sub_of_le _ _ hle]
    rfl
  have hsum : ((full - part) / 2 + part).toNat = ((full - part) / 2).toNat + part.toNat := by
    rw [UInt32.toNat_add, hhalf]
    exact Nat.mod_eq_of_lt (by omega)
  exact ⟨hhalf, hsum, UInt32.le_iff_toNat_le.2 (by omega)⟩

theorem centred_placed {picture : FrameSize} (hw : picture.width ≤ canvas.width)
    (hh : picture.height ≤ canvas.height) : Placed canvas picture (centred canvas picture) := by
  obtain ⟨hleft, hright, hright_le⟩ := centred_side hw
  obtain ⟨htop, hbottom, hbottom_le⟩ := centred_side hh
  exact ⟨hw, hh, hleft, htop, hright, hbottom, hright_le, hbottom_le⟩

/-- The canvas of a video: the video itself, or its sides exchanged if the picture is turned. -/
def canvasOf (video : FrameSize) (rotate : Bool) : FrameSize :=
  if rotate then video.turned else video

/-- The size of the picture of a display in a video. -/
def pictureOf (display : Geometry) (video : FrameSize) (rotate : Bool) : FrameSize :=
  fitted (canvasOf video rotate) display.width display.height

theorem destination_fit {display : Geometry} (hw : display.width ≠ 0) (hh : display.height ≠ 0)
    (video : FrameSize) (rotate : Bool) : (fit display video rotate).destination =
      centred (canvasOf video rotate) (pictureOf display video rotate) :=
  if_neg (not_or.2 ⟨hw, hh⟩)

/-- **The projection fits, is centred and keeps the proportions**, whatever the display, on every
video of up to `2 ^ 20` pixels a side. No subtraction on the way goes below zero. -/
theorem fit_placed_in_proportion (display : Geometry) (video : FrameSize) (rotate : Bool)
    (hw : display.width ≠ 0) (hh : display.height ≠ 0) (hvw : video.width.toNat ≤ 2 ^ 20)
    (hvh : video.height.toNat ≤ 2 ^ 20) :
    Placed (canvasOf video rotate) (pictureOf display video rotate)
        (fit display video rotate).destination ∧
      InProportion (canvasOf video rotate) (pictureOf display video rotate) display.width
        display.height := by
  have hsides : (canvasOf video rotate).width.toNat ≤ 2 ^ 20 ∧
      (canvasOf video rotate).height.toNat ≤ 2 ^ 20 := by
    cases rotate
    · exact ⟨hvw, hvh⟩
    · exact ⟨hvh, hvw⟩
  obtain ⟨hwidth, hheight, hproportion⟩ := fitted_spec hw hh hsides.1 hsides.2
  rw [destination_fit hw hh]
  exact ⟨centred_placed hwidth hheight, hproportion⟩

/-- An upright display in a turned video: the canvas is as high as the video is wide. -/
theorem fit_placed_in_proportion_upright :
    (1080 : UInt32) ≠ 0 ∧ (2400 : UInt32) ≠ 0 ∧ (1280 : UInt32).toNat ≤ 2 ^ 20 ∧
      (720 : UInt32).toNat ≤ 2 ^ 20 ∧
      (fit ⟨1080, 2400, .none, 0⟩ ⟨1280, 720⟩ true).destination = ⟨72, 0, 648, 1280⟩ ∧
      Placed ⟨720, 1280⟩ ⟨576, 1280⟩ ⟨72, 0, 648, 1280⟩ ∧
      InProportion ⟨720, 1280⟩ ⟨576, 1280⟩ 1080 2400 := by
  have hcanvas : canvasOf ⟨1280, 720⟩ true = ⟨720, 1280⟩ := rfl
  have hpicture : pictureOf ⟨1080, 2400, .none, 0⟩ ⟨1280, 720⟩ true = ⟨576, 1280⟩ := by
    decide +kernel
  have hdestination :
      (fit ⟨1080, 2400, .none, 0⟩ ⟨1280, 720⟩ true).destination = ⟨72, 0, 648, 1280⟩ := by
    decide +kernel
  have hplaced := fit_placed_in_proportion ⟨1080, 2400, .none, 0⟩ ⟨1280, 720⟩ true (by decide)
    (by decide) (by decide) (by decide)
  rw [hcanvas, hpicture, hdestination] at hplaced
  exact ⟨by decide, by decide, by decide, by decide, hdestination, hplaced⟩

end Projection

end Screencast
