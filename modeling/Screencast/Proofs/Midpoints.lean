import Mathlib.Tactic.Linarith
import Mathlib.Tactic.LinearCombination
import Mathlib.Tactic.Ring
import Screencast.Powers

/-!
# Decimals near the midpoints of 32 bits

A short decimal on a coarse grid is either a midpoint between two numbers of 32 bits or keeps away
from all of them, by more than the error of a reader that rounds twice in 64 bits. Three decimals do
not.

The multiples of one number that come near a multiple of another one are found by the steps of
Euclid's algorithm: the rests of the one against the other are the next pair, and fewer multiples
are left to look at.

* `Midpoints.avoids`: whether a range of multiples avoids a window; `Midpoints.avoids_sound`: its
  answer is right.
* `Midpoints.near_eq`: the decimals that do come near a midpoint.
-/

namespace Screencast.Midpoints

/-- Whether no multiple `n * a` with `0 ≤ n < count` lies in the window from `low` to `high`, up to
a multiple of `b`. -/
def avoids : ℕ → (a b low high count : ℤ) → Bool
  | 0, _, _, _, _, _ => false
  | fuel + 1, a, b, low, high, count =>
    let l := low % b
    let h := high - low / b * b
    let r := a % b
    if high < low then true
    else if l = 0 || b ≤ h then false
    else if (count - 1) * r < l then true
    else avoids fuel b r (-h) (-l) (((count - 1) * r - l) / b + 1)

/-- **The answer is right**, by induction on the steps: what a multiple of `a` leaves over `b` is
what a multiple of `b` leaves over the rest of `a`. -/
theorem avoids_sound {fuel : ℕ} {a b low high count n t : ℤ} (hb : 0 < b)
    (ha : avoids fuel a b low high count) (hn : 0 ≤ n) (hcount : n < count)
    (hlow : low ≤ n * a - t * b) : high < n * a - t * b := by
  induction fuel generalizing a b low high count n t with
  | zero => cases ha
  | succ fuel ih =>
    by_contra hhigh
    have hdiv := Int.mul_ediv_add_emod low b
    have hadiv := Int.mul_ediv_add_emod a b
    have hr := Int.emod_nonneg a hb.ne'
    have hl := Int.emod_nonneg low hb.ne'
    simp only [avoids] at ha
    generalize low % b = l at ha hdiv hl
    generalize hh : high - low / b * b = h at ha
    generalize a % b = r at ha hadiv hr
    -- the same window and multiple, with what is left over `b`
    have hsame : n * a - t * b - low / b * b = n * r - (t - n * (a / b) + low / b) * b := by
      linear_combination (-n) * hadiv
    generalize t - n * (a / b) + low / b = u at hsame
    have hlow' : l ≤ n * r - u * b := by linarith [mul_comm b (low / b)]
    have hhigh' : n * r - u * b ≤ h := by linarith
    have hu : h < b → 0 ≤ u := by
      intro hhb
      by_contra hneg
      have := mul_le_mul_of_nonneg_right (show u ≤ -1 by omega) hb.le
      have := mul_nonneg hn hr
      linarith
    split_ifs at ha with h₁ h₂ h₃
    · omega
    · -- the last multiple that counts does not reach the window
      simp only [Bool.or_eq_true, decide_eq_true_eq, not_or, not_le] at h₂
      have := mul_le_mul_of_nonneg_right (show n ≤ count - 1 by omega) hr
      have := mul_nonneg (hu h₂.2) hb.le
      linarith
    · simp only [Bool.or_eq_true, decide_eq_true_eq, not_or, not_le] at h₂
      have hrpos : 0 < r := by
        refine lt_of_le_of_ne hr fun h0 => h₃ ?_
        rw [← h0, mul_zero]
        omega
      have hufew : u < ((count - 1) * r - l) / b + 1 := by
        have := mul_le_mul_of_nonneg_right (show n ≤ count - 1 by omega) hr
        have := (Int.le_ediv_iff_mul_le hb (a := u) (b := (count - 1) * r - l)).2 (by linarith)
        omega
      have := ih hrpos ha (hu h₂.2) hufew (t := n) (by linarith)
      linarith

/-! ## The midpoints of 32 bits -/

/-- Half a unit of the last place at this place of the significand, counted in the units that the
ends of an interval are counted in. -/
def half (place : ℕ) : ℕ := 2 ^ (place + 1) * 5 ^ 151

/-- The finest grid that is as coarse as half a unit of the last place. -/
def grid (place : ℕ) : ℕ := (30103 * (place + 1) + 10554437) / 100000 + 1

/-- What the grid and half a unit have in common. -/
def common (place : ℕ) : ℕ := (10 ^ grid place).gcd (half place)

/-- The coefficients that come near a midpoint without being one, with their places. -/
def exceptions : List (ℕ × ℕ) := [(42, 7038531), (43, 14077062), (100, 25645849)]

/-- The coefficients from the first to before the last, without the exception. -/
def ranges (place first last : ℕ) : List (ℕ × ℕ) :=
  match exceptions.lookup place with
  | none => [(first, last)]
  | some c => [(first, c), (c + 1, last)]

/-- Whether no coefficient of a range leaves, over two units, a rest within the margin of one unit
and other than it. -/
def keepsAway (step unit margin : ℕ) (range : ℕ × ℕ) : Bool :=
  let offset : ℕ := range.1 * step
  let count : ℤ := range.2 - range.1
  avoids 40 step (2 * unit) (unit - margin - offset) (unit - 1 - offset) count &&
    avoids 40 step (2 * unit) (unit + 1 - offset) (unit + margin - offset) count

/-- Whether the coefficients keep away from the midpoints of a place: those of the numbers with a
full significand, but at the lowest place those of all numbers. -/
def isClear (place : ℕ) : Bool :=
  let step := 10 ^ grid place / common place
  let unit := half place / common place
  let first := if place = 0 then 0 else 2 ^ 24 * unit / step
  let last := 2 ^ 25 * unit / step + 1
  10 ^ (grid place - 1) < half place &&
    (ranges place first last).all (keepsAway step unit (257 * unit / 2 ^ 35))

theorem all_isClear : (List.range 254).all isClear = true := by decide +kernel

variable {place c j M : ℕ}

theorem half_pos (place : ℕ) : 0 < half place :=
  Nat.mul_pos (Nat.two_pow_pos _) (Nat.pow_pos (by omega))

/-- A coefficient is in one of the ranges unless it is the exception. -/
theorem mem_ranges {first last : ℕ} (hf : first ≤ c) (hl : c < last)
    (he : (place, c) ∉ exceptions) :
    ∃ range ∈ ranges place first last, range.1 ≤ c ∧ c < range.2 := by
  unfold ranges
  split
  · exact ⟨_, List.mem_singleton_self _, hf, hl⟩
  · rename_i e hlookup
    have hne : c ≠ e := by
      rintro rfl
      obtain ⟨l₁, l₂, hsplit, -⟩ := List.lookup_eq_some_iff.1 hlookup
      exact he (hsplit ▸ List.mem_append_right _ List.mem_cons_self)
    rcases Nat.lt_or_gt_of_ne hne with h | h
    · exact ⟨(first, e), List.mem_cons_self, hf, h⟩
    · exact ⟨(e + 1, last), List.mem_cons_of_mem _ List.mem_cons_self, h, hl⟩

theorem eq_of_keepsAway {step unit margin t : ℕ} {range : ℕ × ℕ} (hu : 0 < unit)
    (hk : keepsAway step unit margin range) (hf : range.1 ≤ c) (hl : c < range.2)
    (hbelow : (2 * t + 1) * unit ≤ c * step + margin)
    (habove : c * step ≤ (2 * t + 1) * unit + margin) : c * step = (2 * t + 1) * unit := by
  obtain ⟨hlower, hupper⟩ := Bool.and_eq_true_iff.1 hk
  have hpos : (0 : ℤ) < 2 * unit := by omega
  -- what the coefficient leaves over two units, counted from the first of the range
  have hrest : ((c : ℤ) - range.1) * step - t * (2 * unit) =
      c * step - (2 * t + 1) * unit + unit - (range.1 * step : ℕ) := by
    push_cast
    ring
  have hbelow' : ((2 * t + 1) * unit : ℤ) ≤ c * step + margin := by exact_mod_cast hbelow
  have habove' : (c * step : ℤ) ≤ (2 * t + 1) * unit + margin := by exact_mod_cast habove
  have hge := avoids_sound (n := c - range.1) (t := t) hpos hlower (by omega) (by omega)
    (by rw [hrest]; linarith)
  rw [hrest] at hge
  have hle : (c * step : ℤ) ≤ (2 * t + 1) * unit := by
    by_contra hlt
    have := avoids_sound (n := c - range.1) (t := t) hpos hupper (by omega) (by omega)
      (by rw [hrest]; linarith)
    rw [hrest] at this
    linarith
  have : (c * step : ℤ) = (2 * t + 1) * unit := by linarith
  exact_mod_cast this

/-- A coefficient near an odd number of units is among those that are looked at. -/
theorem coefficient_range {step unit : ℕ} (hstep : 0 < step) (hM : M < 2 ^ 25)
    (hfull : place = 0 ∨ 2 ^ 24 < M) (hbelow : 2 ^ 35 * (M * unit) ≤ 2 ^ 35 * (c * step) + 257 * unit)
    (habove : 2 ^ 35 * (c * step) ≤ 2 ^ 35 * (M * unit) + 257 * unit) :
    (if place = 0 then 0 else 2 ^ 24 * unit / step) ≤ c ∧ c < 2 ^ 25 * unit / step + 1 := by
  constructor
  · split_ifs with h0
    · exact Nat.zero_le _
    · have hfull := Nat.mul_le_mul_right unit (show 2 ^ 24 + 1 ≤ M by omega)
      rw [Nat.add_mul] at hfull
      exact Nat.div_le_of_le_mul (by rw [Nat.mul_comm step]; omega)
  · have hfew := Nat.mul_le_mul_right unit (show M + 1 ≤ 2 ^ 25 by omega)
    rw [Nat.add_mul] at hfew
    exact Nat.lt_succ_of_le ((Nat.le_div_iff_mul_le hstep).2 (by omega))

/-- **Near a midpoint** there are only the midpoint itself and the exceptions. -/
theorem near_eq (hp : place < 254) (hj : half place ≤ 10 ^ j) (hodd : Odd M) (hM : M < 2 ^ 25)
    (hfull : place = 0 ∨ 2 ^ 24 ≤ M)
    (hbelow : 2 ^ 35 * (M * half place) ≤ 2 ^ 35 * (c * 10 ^ j) + 257 * half place)
    (habove : 2 ^ 35 * (c * 10 ^ j) ≤ 2 ^ 35 * (M * half place) + 257 * half place) :
    c * 10 ^ j = M * half place ∨
      grid place ≤ j ∧ (place, c * 10 ^ (j - grid place)) ∈ exceptions := by
  obtain ⟨t, rfl⟩ := hodd
  have hclear := List.all_eq_true.1 all_isClear place (List.mem_range.2 hp)
  simp only [isClear, Bool.and_eq_true, decide_eq_true_eq] at hclear
  obtain ⟨hcoarse, hclear⟩ := hclear
  -- the decimal as a multiple of the finest of the grids
  have hgrid : grid place ≤ j := by
    by_contra hlt
    have := Nat.pow_le_pow_right (n := 10) (by omega) (show j ≤ grid place - 1 by omega)
    omega
  refine or_iff_not_imp_right.2 fun hexception => ?_
  replace hexception := not_and.1 hexception hgrid
  have hcoefficient : c * 10 ^ (j - grid place) * 10 ^ grid place = c * 10 ^ j := by
    rw [Nat.mul_assoc, ← Nat.pow_add, Nat.sub_add_cancel hgrid]
  rw [← hcoefficient] at hbelow habove ⊢
  generalize c * 10 ^ (j - grid place) = c at hbelow habove hexception ⊢
  -- without what the grid and half a unit have in common
  have hcommon : 0 < common place := Nat.gcd_pos_of_pos_right _ (half_pos place)
  obtain ⟨step, hstep⟩ : common place ∣ 10 ^ grid place := Nat.gcd_dvd_left _ _
  obtain ⟨unit, hunit⟩ : common place ∣ half place := Nat.gcd_dvd_right _ _
  have hunitpos : 0 < unit := by
    refine Nat.pos_of_ne_zero fun h0 => ?_
    rw [h0, Nat.mul_zero] at hunit
    exact (half_pos place).ne' hunit
  rw [hstep, hunit, Nat.mul_div_cancel_left _ hcommon, Nat.mul_div_cancel_left _ hcommon] at hclear
  rw [hstep, hunit] at hbelow habove ⊢
  have hbelow' : 2 ^ 35 * ((2 * t + 1) * unit) ≤ 2 ^ 35 * (c * step) + 257 * unit := by
    refine Nat.le_of_mul_le_mul_left ?_ hcommon
    linarith
  have habove' : 2 ^ 35 * (c * step) ≤ 2 ^ 35 * ((2 * t + 1) * unit) + 257 * unit := by
    refine Nat.le_of_mul_le_mul_left ?_ hcommon
    linarith
  have hsteppos : 0 < step := by
    refine Nat.pos_of_ne_zero fun h0 => ?_
    rw [h0, Nat.mul_zero] at hstep
    exact (Nat.pow_pos (n := grid place) (show 0 < 10 by omega)).ne' hstep
  obtain ⟨hfirst, hlast⟩ := coefficient_range hsteppos hM
    (hfull.imp_right fun hfull => by omega) hbelow' habove'
  obtain ⟨range, hrange, hf, hl⟩ := mem_ranges hfirst hlast hexception
  have heq := eq_of_keepsAway hunitpos (List.all_eq_true.1 hclear range hrange) hf hl (t := t)
    (by omega) (by omega)
  rw [Nat.mul_left_comm, heq, Nat.mul_left_comm]

end Screencast.Midpoints
