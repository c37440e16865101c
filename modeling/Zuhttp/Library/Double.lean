import Mathlib.Algebra.Order.Round
import Mathlib.Data.Int.Log
import Mathlib.Data.Rat.Floor

/-!
# Rounding to binary64

Numbers with 53 significant bits, and rounding to the nearest of them, to an even one from half
way. The exponent is unbounded: what would overflow is a number past every other.
-/

namespace Double

/-- To the nearest integer, and to an even one from half way. -/
def roundEven (x : ℚ) : ℤ :=
  if Int.fract x < 1 / 2 then ⌊x⌋
  else if 1 / 2 < Int.fract x then ⌊x⌋ + 1
  else if 2 ∣ ⌊x⌋ then ⌊x⌋ else ⌊x⌋ + 1

/-- The distance of the numbers around `x`. -/
def ulp (x : ℚ) : ℚ := 2 ^ (Int.log 2 |x| - 52)

def round (x : ℚ) : ℚ := roundEven (x / ulp x) * ulp x

lemma abs_sub_roundEven (x : ℚ) :
    |x - roundEven x| = min (Int.fract x) (1 - Int.fract x) := by
  have hfloor : x - ⌊x⌋ = Int.fract x := rfl
  have hnonneg := Int.fract_nonneg x
  have hlt := Int.fract_lt_one x
  have hdown : |x - ((⌊x⌋ : ℤ) : ℚ)| = Int.fract x := by rw [hfloor, abs_of_nonneg hnonneg]
  have hup : |x - ((⌊x⌋ + 1 : ℤ) : ℚ)| = 1 - Int.fract x := by
    rw [Int.cast_add, Int.cast_one, ← sub_sub, hfloor, abs_of_neg (by linarith)]
    ring
  unfold roundEven
  split_ifs with h₁ h₂ h₃
  · rw [hdown, min_eq_left (by linarith)]
  · rw [hup, min_eq_right (by linarith)]
  · rw [hdown, min_eq_left (by linarith)]
  · rw [hup, min_eq_right (by linarith)]

lemma roundEven_near (x : ℚ) (z : ℤ) : |x - roundEven x| ≤ |x - z| := by
  rw [abs_sub_roundEven, ← abs_sub_round_eq_min]
  exact round_le x z

lemma ulp_pos (x : ℚ) : 0 < ulp x := zpow_pos (by norm_num) _

/-- Of the multiples of the distance, none is nearer. -/
lemma round_near_mul (x : ℚ) (z : ℤ) : |x - round x| ≤ |x - z * ulp x| := by
  have hpos := ulp_pos x
  have hscale : ∀ y : ℚ, |x - y * ulp x| = |x / ulp x - y| * ulp x := by
    intro y
    rw [← abs_of_pos hpos, ← abs_mul, abs_of_pos hpos, sub_mul, div_mul_cancel₀ _ hpos.ne']
  rw [round, hscale, hscale]
  exact mul_le_mul_of_nonneg_right (roundEven_near _ z) hpos.le

/-- No integer of at most 53 bits is nearer. -/
theorem round_near (x : ℚ) {k : ℤ} (hk : |k| ≤ 2 ^ 53) : |x - round x| ≤ |x - k| := by
  by_cases hlog : Int.log 2 |x| ≤ 52
  · -- the integers are multiples of the distance
    obtain ⟨j, hj⟩ := Int.eq_ofNat_of_zero_le (sub_nonneg.mpr hlog)
    have hk : (k : ℚ) = ((k * 2 ^ j : ℤ) : ℚ) * ulp x := by
      have hulp : ulp x = (2 ^ j)⁻¹ := by
        rw [ulp, ← neg_sub, hj, zpow_neg, zpow_natCast]
      rw [hulp, Int.cast_mul, Int.cast_pow, Int.cast_ofNat,
        mul_inv_cancel_right₀ (pow_ne_zero _ two_ne_zero)]
    rw [hk]
    exact round_near_mul x _
  · -- a power of two lies between the integers and `x`
    have hlog : 53 ≤ Int.log 2 |x| := by omega
    have hx : x ≠ 0 := by
      rintro rfl
      rw [abs_zero, Int.log_zero_right] at hlog
      exact absurd hlog (by decide)
    have hbelow : (2 : ℚ) ^ Int.log 2 |x| ≤ |x| := by
      simpa using Int.zpow_log_le_self (b := 2) (by norm_num) (abs_pos.mpr hx)
    have hmul : ((2 ^ 52 : ℤ) : ℚ) * ulp x = 2 ^ Int.log 2 |x| := by
      have hpow : (2 : ℚ) ^ (52 : ℤ) = ((2 ^ 52 : ℤ) : ℚ) := by norm_num
      rw [ulp, zpow_sub₀ two_ne_zero, hpow, mul_div_cancel₀ _ (by norm_num)]
    have hpower : |x - round x| ≤ |x| - 2 ^ Int.log 2 |x| := by
      rcases le_or_gt 0 x with hpos | hneg
      · have h := round_near_mul x (2 ^ 52)
        rw [hmul] at h
        rw [abs_of_nonneg hpos] at hbelow h ⊢
        rwa [abs_of_nonneg (a := x - 2 ^ Int.log 2 x) (sub_nonneg.mpr hbelow)] at h
      · have h := round_near_mul x (-2 ^ 52)
        rw [Int.cast_neg, neg_mul, hmul, sub_neg_eq_add] at h
        rw [abs_of_neg hneg] at hbelow h ⊢
        rw [abs_of_nonpos (a := x + 2 ^ Int.log 2 (-x)) (by linarith)] at h
        linarith
    have hkx : |(k : ℚ)| ≤ 2 ^ Int.log 2 |x| := by
      calc |(k : ℚ)| = ((|k| : ℤ) : ℚ) := (Int.cast_abs).symm
        _ ≤ ((2 ^ 53 : ℤ) : ℚ) := by exact_mod_cast hk
        _ = 2 ^ (53 : ℤ) := by norm_num
        _ ≤ 2 ^ Int.log 2 |x| := zpow_le_zpow_right₀ (by norm_num) hlog
    have htri := abs_sub_abs_le_abs_sub x k
    linarith

theorem round_intCast {k : ℤ} (hk : |k| ≤ 2 ^ 53) : round k = k := by
  have hnear := round_near (k : ℚ) hk
  rw [sub_self, abs_zero] at hnear
  exact (sub_eq_zero.mp (abs_nonpos_iff.mp hnear)).symm

theorem le_round {x : ℚ} {k : ℤ} (hk : |k| ≤ 2 ^ 53) (h : k ≤ x) : k ≤ round x := by
  have hnear := round_near x hk
  rw [abs_of_nonneg (sub_nonneg.mpr h)] at hnear
  have := le_abs_self (x - round x)
  linarith

lemma round_natCast {k : ℕ} (hk : k ≤ 2 ^ 53) : round k = k := by
  have h : |(k : ℤ)| ≤ 2 ^ 53 := by
    rw [abs_of_nonneg (Int.natCast_nonneg k)]
    exact_mod_cast hk
  simpa using round_intCast h

lemma natCast_le_round {x : ℚ} {k : ℕ} (hk : k ≤ 2 ^ 53) (h : k ≤ x) : k ≤ round x := by
  have habs : |(k : ℤ)| ≤ 2 ^ 53 := by
    rw [abs_of_nonneg (Int.natCast_nonneg k)]
    exact_mod_cast hk
  simpa using le_round habs (by simpa using h)

/-- What is added to an integer changes it by at most twice as much. -/
lemma round_add_lt {k : ℕ} (hk : k ≤ 2 ^ 53) {e : ℚ} (he : 0 ≤ e) (hlt : e < 1 / 2) :
    k ≤ round (k + e) ∧ round (k + e) < k + 1 := by
  have habs : |(k : ℤ)| ≤ 2 ^ 53 := by
    rw [abs_of_nonneg (Int.natCast_nonneg k)]
    exact_mod_cast hk
  have hnear := round_near ((k : ℚ) + e) habs
  rw [Int.cast_natCast, add_sub_cancel_left, abs_of_nonneg he] at hnear
  have hbounds := abs_le.mp hnear
  exact ⟨natCast_le_round hk (by linarith), by linarith⟩

end Double
