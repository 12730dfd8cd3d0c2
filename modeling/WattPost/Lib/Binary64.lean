import Mathlib.Data.Int.Log
import WattPost.Lib.Snap

/-! Binary64 arithmetic on rationals. An operation of IEEE 754 is the exact one, rounded to
the nearest double. The two zeros are one here, and the range ends where `nearest` would
need an exponent beyond the largest; its user says what stands there. -/
namespace Binary64

open PyDict Snap

variable {q : ℚ}

/-- The place of the last binary digit that a number of this magnitude keeps: there are 53
of them, and none below the smallest subnormal number. -/
def exponent (q : ℚ) : Int := max (Int.log 2 |q| - 52) (-1074)

/-- The distance of the doubles around a number. -/
def step (q : ℚ) : ℚ := 2 ^ exponent q

/-- The double that is nearest to a number, and of two the one with the even last digit. -/
def nearest (q : ℚ) : ℚ := snap (step q) q

theorem step_pos (q : ℚ) : 0 < step q := zpow_pos two_pos _

theorem step_le {bound : ℚ} (hOne : 1 ≤ bound) (h : |q| ≤ bound) : step q ≤ bound / 2 ^ 52 := by
  have hLarge : (2 : ℚ) ^ (Int.log 2 |q| - 52) ≤ bound / 2 ^ 52 := by
    rw [zpow_sub₀ two_ne_zero]
    refine div_le_div_of_nonneg_right ?_ (by positivity)
    by_cases hZero : q = 0
    · rw [hZero, abs_zero, Int.log_zero_right, zpow_zero]
      exact hOne
    · have hLog := Int.zpow_log_le_self one_lt_two (abs_pos.mpr hZero)
      rw [Nat.cast_ofNat] at hLog
      exact hLog.trans h
  have hSmall : (2 : ℚ) ^ (-1074 : Int) ≤ bound / 2 ^ 52 := by
    calc (2 : ℚ) ^ (-1074 : Int) ≤ 2 ^ (-52 : Int) := zpow_le_zpow_right₀ one_le_two (by decide)
      _ = 1 / 2 ^ 52 := by rw [zpow_neg, one_div]; rfl
      _ ≤ bound / 2 ^ 52 := div_le_div_of_nonneg_right hOne (by positivity)
  unfold step exponent
  rcases max_choice (Int.log 2 |q| - 52) (-1074) with hMax | hMax
  · rw [hMax]
    exact hLarge
  · rw [hMax]
    exact hSmall

/-- Rounding moves a number by half a step at most. -/
theorem abs_nearest_sub_le_step : |nearest q - q| ≤ step q / 2 := by
  have hPos := step_pos q
  have hEq : nearest q - q = (roundHalfEven (q / step q) - q / step q) * step q := by
    rw [sub_mul, div_mul_cancel₀ _ hPos.ne']
    rfl
  calc |nearest q - q| = |(roundHalfEven (q / step q) : ℚ) - q / step q| * step q := by
        rw [hEq, abs_mul, abs_of_pos hPos]
    _ ≤ 1 / 2 * step q := mul_le_mul_of_nonneg_right (abs_roundHalfEven_sub_le _) hPos.le
    _ = step q / 2 := by ring

/-- The error below a bound. -/
theorem abs_nearest_sub_le {bound : ℚ} (hOne : 1 ≤ bound) (h : |q| ≤ bound) :
    |nearest q - q| ≤ bound / 2 ^ 53 := by
  calc |nearest q - q| ≤ step q / 2 := abs_nearest_sub_le_step
    _ ≤ bound / 2 ^ 52 / 2 := div_le_div_of_nonneg_right (step_le hOne h) two_pos.le
    _ = bound / 2 ^ 53 := by ring

/-- A step is no larger than the number, unless the number is below all of them. -/
theorem step_le_abs (h : 2 ^ (-1074 : Int) ≤ |q|) : step q ≤ |q| := by
  have hLog := Int.zpow_log_le_self one_lt_two ((zpow_pos two_pos _).trans_le h)
  rw [Nat.cast_ofNat] at hLog
  unfold step exponent
  rcases max_choice (Int.log 2 |q| - 52) (-1074) with hMax | hMax
  · rw [hMax]
    exact (zpow_le_zpow_right₀ one_le_two (by omega)).trans hLog
  · rw [hMax]
    exact h

/-- Rounding keeps half of a number, so that nothing of that size is rounded to zero. -/
theorem half_le_abs_nearest (h : 2 ^ (-1074 : Int) ≤ |q|) : |q| / 2 ≤ |nearest q| := by
  have hError := abs_nearest_sub_le_step (q := q)
  have hStep := step_le_abs h
  have hTriangle := abs_sub_abs_le_abs_sub q (nearest q)
  rw [abs_sub_comm] at hTriangle
  linarith

/-- The error as a share of the number, which is a normal one. -/
theorem exists_error (h : q = 0 ∨ 2 ^ (-1022 : Int) ≤ |q|) :
    ∃ error, nearest q = q * (1 + error) ∧ |error| ≤ 1 / 2 ^ 53 := by
  rcases h with rfl | hNormal
  · exact ⟨0, by decide +kernel, by norm_num⟩
  · have hPos : 0 < |q| := (zpow_pos two_pos _).trans_le hNormal
    have hNe : q ≠ 0 := abs_pos.mp hPos
    have hStep : step q ≤ |q| / 2 ^ 52 := by
      have hLog := Int.zpow_log_le_self one_lt_two hPos
      have hLarge := (Int.zpow_le_iff_le_log one_lt_two hPos).mp (by exact_mod_cast hNormal)
      rw [Nat.cast_ofNat] at hLog
      rw [step, exponent, max_eq_left (by omega), zpow_sub₀ two_ne_zero]
      exact div_le_div_of_nonneg_right hLog (by positivity)
    refine ⟨(nearest q - q) / q, ?_, ?_⟩
    · rw [mul_add, mul_one, mul_div_cancel₀ _ hNe, add_sub_cancel]
    · rw [abs_div, div_le_iff₀ hPos]
      linarith [abs_nearest_sub_le_step (q := q)]

/-- What is far from the smallest subnormal number is no smaller than it. -/
theorem tiny_le {bound : ℚ} (hBound : 1 / 2 ^ 60 ≤ bound) (h : bound ≤ |q|) :
    2 ^ (-1074 : Int) ≤ |q| := by
  calc (2 : ℚ) ^ (-1074 : Int) ≤ 2 ^ (-60 : Int) := zpow_le_zpow_right₀ one_le_two (by decide)
    _ = 1 / 2 ^ 60 := by rw [zpow_neg, one_div]; rfl
    _ ≤ |q| := hBound.trans h

theorem nearest_intCast_eq_zero_iff (n : Int) : nearest n = 0 ↔ n = 0 := by
  constructor
  · intro hZero
    by_contra hNe
    have hOne : (1 : ℚ) ≤ |(n : ℚ)| := by exact_mod_cast Int.one_le_abs hNe
    have hHalf := half_le_abs_nearest (tiny_le (by norm_num) hOne)
    rw [hZero, abs_zero] at hHalf
    linarith
  · rintro rfl
    decide +kernel

/-- Below 2 ^ 53 the whole numbers are doubles, and no number is rounded past one. -/
theorem exists_steps (h : |q| < 2 ^ 53) (n : Int) : ∃ k : Int, (n : ℚ) = k * step q := by
  have hExponent : exponent q ≤ 0 := by
    refine max_le ?_ (by decide)
    by_cases hZero : q = 0
    · rw [hZero, abs_zero, Int.log_zero_right]
      decide
    · have hLog := (Int.lt_zpow_iff_log_lt one_lt_two (abs_pos.mpr hZero) (x := 53)).mp
        (by exact_mod_cast h)
      omega
  obtain ⟨k, hk⟩ := Int.eq_ofNat_of_zero_le (neg_nonneg.mpr hExponent)
  refine ⟨n * 2 ^ k, ?_⟩
  have hOne : (2 : ℚ) ^ k * 2 ^ exponent q = 1 := by
    rw [← zpow_natCast, ← zpow_add₀ two_ne_zero, ← hk, neg_add_cancel, zpow_zero]
  rw [step]
  push_cast
  rw [mul_assoc, hOne, mul_one]

theorem intCast_le_nearest (h : |q| < 2 ^ 53) {n : Int} (hLe : (n : ℚ) ≤ q) :
    (n : ℚ) ≤ nearest q := by
  obtain ⟨k, hk⟩ := exists_steps h n
  have hPos := step_pos q
  rw [hk, nearest, snap]
  refine mul_le_mul_of_nonneg_right (Int.cast_le.mpr ?_) hPos.le
  exact le_roundHalfEven (by rwa [le_div_iff₀ hPos, ← hk])

theorem nearest_le_intCast (h : |q| < 2 ^ 53) {n : Int} (hLe : q ≤ n) : nearest q ≤ n := by
  obtain ⟨k, hk⟩ := exists_steps h n
  have hPos := step_pos q
  rw [hk, nearest, snap]
  refine mul_le_mul_of_nonneg_right (Int.cast_le.mpr ?_) hPos.le
  exact roundHalfEven_le (by rwa [div_le_iff₀ hPos, ← hk])

theorem nearest_intCast {n : Int} (h : |(n : ℚ)| < 2 ^ 53) : nearest n = n :=
  le_antisymm (nearest_le_intCast h le_rfl) (intCast_le_nearest h le_rfl)

/-! ### A percentage -/

/-- A number that is not below `2 ^ -60` is a normal one. -/
theorem exists_error_of_le {bound : ℚ} (hBound : 1 / 2 ^ 60 ≤ bound) (h : q = 0 ∨ bound ≤ |q|) :
    ∃ error, nearest q = q * (1 + error) ∧ |error| ≤ 1 / 2 ^ 53 := by
  refine exists_error (h.imp_right fun hLe => ?_)
  calc (2 : ℚ) ^ (-1022 : Int) ≤ 2 ^ (-60 : Int) := zpow_le_zpow_right₀ one_le_two (by decide)
    _ = 1 / 2 ^ 60 := by rw [zpow_neg, one_div]; rfl
    _ ≤ |q| := hBound.trans hLe

theorem error_bounds {error : ℚ} (h : |error| ≤ 1 / 2 ^ 53) :
    1 / 2 ≤ 1 + error ∧ 1 + error ≤ 2 := by
  obtain ⟨hLower, hUpper⟩ := abs_le.mp h
  norm_num at hLower hUpper ⊢
  constructor <;> linarith

/-- Three errors together. -/
theorem abs_errors_sub_one_le {u a b c : ℚ} (hSmall : u ≤ 1 / 8) (ha : |a| ≤ u) (hb : |b| ≤ u)
    (hc : |c| ≤ u) : |(1 + a) * (1 + b) * (1 + c) - 1| ≤ 4 * u := by
  have hu : 0 ≤ u := (abs_nonneg a).trans ha
  have hPair : ∀ {x y : ℚ}, |x| ≤ u → |y| ≤ u → |x * y| ≤ u / 8 := by
    intro x y hx hy
    calc |x * y| = |x| * |y| := abs_mul x y
      _ ≤ u * (1 / 8) := mul_le_mul hx (hy.trans hSmall) (abs_nonneg y) hu
      _ = u / 8 := by ring
  have hTriple : |a * b * c| ≤ u / 8 := hPair ((hPair ha hb).trans (by linarith)) hc
  have hEq : (1 + a) * (1 + b) * (1 + c) - 1 =
      a + b + c + a * b + a * c + b * c + a * b * c := by ring
  have hab := abs_le.mp (hPair ha hb)
  have hac := abs_le.mp (hPair ha hc)
  have hbc := abs_le.mp (hPair hb hc)
  have habc := abs_le.mp hTriple
  rw [abs_le] at ha hb hc
  rw [hEq, abs_le]
  constructor <;> linarith

/-- The double of a word over a hundred. -/
theorem exists_error_hundredth (n : Nat) :
    ∃ error, nearest (n / 100) = n / 100 * (1 + error) ∧ |error| ≤ 1 / 2 ^ 53 := by
  refine exists_error_of_le (show (1 : ℚ) / 2 ^ 60 ≤ 1 / 100 by norm_num) ?_
  rcases Nat.eq_zero_or_pos n with rfl | hPos
  · exact Or.inl (by simp)
  · have hOne : (1 : ℚ) ≤ n := by exact_mod_cast hPos
    right
    rw [abs_of_nonneg (by positivity)]
    linarith

/-- The errors of the four roundings of a percentage of two words. -/
theorem exists_percent_errors {m n : Nat} (hPos : 0 < n) (hn : n < 2 ^ 16) :
    ∃ a b c d : ℚ, |a| ≤ 1 / 2 ^ 53 ∧ |b| ≤ 1 / 2 ^ 53 ∧ |c| ≤ 1 / 2 ^ 53 ∧ |d| ≤ 1 / 2 ^ 53 ∧
      nearest (nearest (nearest (m / 100) / nearest (n / 100)) * 100) * n * (1 + d) =
        100 * m * ((1 + a) * (1 + b) * (1 + c)) := by
  obtain ⟨a, ha, haLe⟩ := exists_error_hundredth m
  obtain ⟨d, hd, hdLe⟩ := exists_error_hundredth n
  obtain ⟨haLower, -⟩ := error_bounds haLe
  obtain ⟨hdLower, hdUpper⟩ := error_bounds hdLe
  have hn1 : (1 : ℚ) ≤ n := by exact_mod_cast hPos
  have hnUpper : (n : ℚ) ≤ 2 ^ 16 := by exact_mod_cast hn.le
  have hShare : nearest ((m : ℚ) / 100) / nearest ((n : ℚ) / 100) =
      m / n * ((1 + a) / (1 + d)) := by
    rw [ha, hd]
    field_simp
  have hFar : m = 0 ∨ (1 : ℚ) / 2 ^ 18 ≤ m / n * ((1 + a) / (1 + d)) := by
    rcases Nat.eq_zero_or_pos m with hZero | hPos
    · exact Or.inl hZero
    · have hOne : (1 : ℚ) ≤ m := by exact_mod_cast hPos
      have hWords : 1 / 2 ^ 16 ≤ (m : ℚ) / n := by
        rw [le_div_iff₀ (by linarith)]
        linarith
      have hErrors : 1 / 4 ≤ (1 + a) / (1 + d) := by
        rw [le_div_iff₀ (by linarith)]
        linarith
      right
      calc (1 : ℚ) / 2 ^ 18 = 1 / 2 ^ 16 * (1 / 4) := by norm_num
        _ ≤ m / n * ((1 + a) / (1 + d)) :=
            mul_le_mul hWords hErrors (by norm_num) (by positivity)
  obtain ⟨b, hb, hbLe⟩ := exists_error_of_le (q := (m : ℚ) / n * ((1 + a) / (1 + d)))
    (show (1 : ℚ) / 2 ^ 60 ≤ 1 / 2 ^ 18 by norm_num)
    (hFar.imp (fun hZero => by simp [hZero]) fun hLe => hLe.trans (le_abs_self _))
  obtain ⟨hbLower, -⟩ := error_bounds hbLe
  obtain ⟨c, hc, hcLe⟩ := exists_error_of_le
    (q := (m : ℚ) / n * ((1 + a) / (1 + d)) * (1 + b) * 100)
    (show (1 : ℚ) / 2 ^ 60 ≤ 1 / 2 ^ 18 by norm_num)
    (hFar.imp (fun hZero => by simp [hZero]) fun hLe => by
      refine le_trans ?_ (le_abs_self _)
      nlinarith)
  refine ⟨a, b, c, d, haLe, hbLe, hcLe, hdLe, ?_⟩
  rw [hShare, hb, hc]
  field_simp

/-- A percentage of two words that comes out whole after its roundings is the exact one. -/
theorem percent_exact {m n k : Nat} (hm : m < 2 ^ 16) (hPos : 0 < n) (hn : n < 2 ^ 16)
    (hk : k < 2 ^ 16)
    (h : nearest (nearest (nearest (m / 100) / nearest (n / 100)) * 100) = k) :
    100 * m = k * n := by
  obtain ⟨a, b, c, d, ha, hb, hc, hd, hEq⟩ := exists_percent_errors (m := m) hPos hn
  rw [h] at hEq
  have hOut : (k : ℚ) * n - 100 * m =
      100 * m * ((1 + a) * (1 + b) * (1 + c) - 1) - k * n * d := by linarith
  have hLeft : |100 * (m : ℚ) * ((1 + a) * (1 + b) * (1 + c) - 1)| ≤
      100 * 2 ^ 16 * (4 * (1 / 2 ^ 53)) := by
    have hWord : (m : ℚ) ≤ 2 ^ 16 := by exact_mod_cast hm.le
    rw [abs_mul, abs_of_nonneg (by positivity)]
    exact mul_le_mul (by linarith) (abs_errors_sub_one_le (by norm_num) ha hb hc) (abs_nonneg _)
      (by positivity)
  have hRight : |(k : ℚ) * n * d| ≤ 2 ^ 32 * (1 / 2 ^ 53) := by
    have hWords : (k : ℚ) * n ≤ 2 ^ 32 := by exact_mod_cast Nat.mul_le_mul hk.le hn.le
    rw [abs_mul, abs_of_nonneg (by positivity)]
    exact mul_le_mul hWords hd (abs_nonneg _) (by positivity)
  -- Two whole numbers that are less than one apart are the same.
  have hClose : |(k * n : ℚ) - 100 * m| < 1 := by
    rw [hOut]
    refine (abs_sub _ _).trans_lt ((add_le_add hLeft hRight).trans_lt ?_)
    norm_num
  have hInt : |(k * n : Int) - 100 * m| < 1 := by exact_mod_cast hClose
  have hZero := Int.abs_lt_one_iff.mp hInt
  omega

-- A tenth is no double.
example : nearest (1 / 10) = 3602879701896397 / 36028797018963968 := by decide +kernel

end Binary64
