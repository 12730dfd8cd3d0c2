import WattPost.Lib.PyDict

/-! Numbers snapped to the multiples of a step, a half to the even multiple. -/
namespace Snap

open PyDict

section Round

variable {q : ℚ}

theorem roundHalfEven_eq_zero (hNonneg : 0 ≤ q) (hHalf : q < 1 / 2) : roundHalfEven q = 0 := by
  have hFloor : ⌊q⌋ = 0 := Int.floor_eq_zero_iff.mpr ⟨hNonneg, by linarith⟩
  simp only [roundHalfEven, hFloor]
  rw [if_pos (by simpa using hHalf)]

theorem roundHalfEven_eq_one (hHalf : 1 / 2 < q) (hUpper : q < 3 / 2) : roundHalfEven q = 1 := by
  rcases lt_or_ge q 1 with hBelow | hAbove
  · have hFloor : ⌊q⌋ = 0 := Int.floor_eq_zero_iff.mpr ⟨by linarith, hBelow⟩
    simp only [roundHalfEven, hFloor]
    rw [if_neg (by simpa using hHalf.le), if_pos (by simpa using hHalf)]
    rfl
  · have hFloor : ⌊q⌋ = 1 := Int.floor_eq_iff.mpr ⟨by simpa using hAbove, by norm_num; linarith⟩
    simp only [roundHalfEven, hFloor]
    rw [if_pos (by norm_num; linarith)]

theorem roundHalfEven_pos (hHalf : 1 / 2 < q) : 0 < roundHalfEven q := by
  rcases lt_or_ge q (3 / 2) with hUpper | hUpper
  · rw [roundHalfEven_eq_one hHalf hUpper]
    exact one_pos
  · have hFloor : 1 ≤ ⌊q⌋ := Int.le_floor.mpr (by norm_num; linarith)
    simp only [roundHalfEven]
    split_ifs <;> omega

/-- The integer below, or the one above from the half on. -/
theorem roundHalfEven_cases (q : ℚ) :
    (roundHalfEven q = ⌊q⌋ ∧ q ≤ ⌊q⌋ + 1 / 2 ∧ (q = ⌊q⌋ + 1 / 2 → ⌊q⌋ % 2 = 0)) ∨
      (roundHalfEven q = ⌊q⌋ + 1 ∧ ⌊q⌋ + 1 / 2 ≤ q ∧ (q = ⌊q⌋ + 1 / 2 → ⌊q⌋ % 2 ≠ 0)) := by
  unfold roundHalfEven
  dsimp only
  split_ifs with hBelow hAbove hEven
  · exact Or.inl ⟨rfl, by linarith, fun hHalf => by linarith⟩
  · exact Or.inr ⟨rfl, by linarith, fun hHalf => by linarith⟩
  · exact Or.inl ⟨rfl, by linarith, fun _ => hEven⟩
  · exact Or.inr ⟨rfl, by linarith, fun _ => hEven⟩

theorem abs_roundHalfEven_sub_le (q : ℚ) : |(roundHalfEven q : ℚ) - q| ≤ 1 / 2 := by
  have hFloor := Int.floor_le q
  have hNext := Int.lt_floor_add_one q
  rw [abs_le]
  rcases roundHalfEven_cases q with ⟨hRound, hHalf, -⟩ | ⟨hRound, hHalf, -⟩
  · rw [hRound]
    constructor <;> linarith
  · rw [hRound]
    push_cast
    constructor <;> linarith

/-- No number is rounded past an integer. -/
theorem le_roundHalfEven {n : Int} (h : n ≤ q) : n ≤ roundHalfEven q := by
  have hFloor := Int.le_floor.mpr h
  rcases roundHalfEven_cases q with ⟨hRound, -⟩ | ⟨hRound, -⟩ <;> omega

theorem roundHalfEven_le {n : Int} (h : q ≤ n) : roundHalfEven q ≤ n := by
  rcases roundHalfEven_cases q with ⟨hRound, -⟩ | ⟨hRound, hHalf, -⟩
  · rw [hRound]
    exact_mod_cast (Int.floor_le q).trans h
  · have hLt : (⌊q⌋ : ℚ) < n := by linarith
    rw [hRound]
    exact_mod_cast hLt

/-- The half above an even integer is still rounded to it. -/
theorem roundHalfEven_le_iff {n : Int} (hEven : n % 2 = 0) :
    roundHalfEven q ≤ n ↔ q ≤ n + 1 / 2 := by
  have hFloor := Int.floor_le q
  have hNext := Int.lt_floor_add_one q
  rcases lt_trichotomy ⌊q⌋ n with hLt | hEq | hGt
  · have hCast : (⌊q⌋ : ℚ) + 1 ≤ n := by exact_mod_cast hLt
    refine iff_of_true ?_ (by linarith)
    rcases roundHalfEven_cases q with ⟨hRound, -⟩ | ⟨hRound, -⟩ <;> omega
  · subst hEq
    rcases roundHalfEven_cases q with ⟨hRound, hHalf, -⟩ | ⟨hRound, hHalf, hOdd⟩
    · exact iff_of_true hRound.le hHalf
    · refine iff_of_false (by omega) fun hLe => ?_
      exact hOdd (le_antisymm hLe hHalf) hEven
  · have hCast : (n : ℚ) + 1 ≤ ⌊q⌋ := by exact_mod_cast hGt
    refine iff_of_false ?_ (by linarith)
    rcases roundHalfEven_cases q with ⟨hRound, -⟩ | ⟨hRound, -⟩ <;> omega

theorem le_roundHalfEven_iff {n : Int} (hEven : n % 2 = 0) :
    n ≤ roundHalfEven q ↔ n - 1 / 2 ≤ q := by
  have hFloor := Int.floor_le q
  have hNext := Int.lt_floor_add_one q
  rcases lt_trichotomy ⌊q⌋ (n - 1) with hLt | hEq | hGt
  · have hCast : (⌊q⌋ : ℚ) + 1 ≤ n - 1 := by exact_mod_cast hLt
    refine iff_of_false ?_ (by linarith)
    rcases roundHalfEven_cases q with ⟨hRound, -⟩ | ⟨hRound, -⟩ <;> omega
  · have hCast : (⌊q⌋ : ℚ) = n - 1 := by exact_mod_cast hEq
    rcases roundHalfEven_cases q with ⟨hRound, hHalf, hEven'⟩ | ⟨hRound, hHalf, -⟩
    · refine iff_of_false (by omega) fun hLe => ?_
      have := hEven' (le_antisymm hHalf (by linarith))
      omega
    · exact iff_of_true (by omega) (by linarith)
  · have hCast : (n : ℚ) ≤ ⌊q⌋ := by exact_mod_cast (show n ≤ ⌊q⌋ by omega)
    refine iff_of_true ?_ (by linarith)
    rcases roundHalfEven_cases q with ⟨hRound, -⟩ | ⟨hRound, -⟩ <;> omega

/-- How far beyond a bound a number may lie and still be rounded to it. -/
theorem abs_round_le_iff {limit digits : Nat} (hEven : limit * 10 ^ digits % 2 = 0) :
    |PyDict.round q digits| ≤ limit ↔ |q| ≤ limit + 1 / (2 * 10 ^ digits) := by
  have hPos : (0 : ℚ) < 10 ^ digits := by positivity
  have hBound : (((limit * 10 ^ digits : Nat) : Int) : ℚ) = limit * 10 ^ digits := by push_cast; rfl
  have hUpper := roundHalfEven_le_iff (q := q * 10 ^ digits) (n := (limit * 10 ^ digits : Nat))
    (by omega)
  have hLower := le_roundHalfEven_iff (q := q * 10 ^ digits) (n := -(limit * 10 ^ digits : Nat))
    (by omega)
  have hScale : (limit : ℚ) + 1 / (2 * 10 ^ digits) =
      (limit * 10 ^ digits + 1 / 2) / 10 ^ digits := by
    field_simp
  rw [hBound] at hUpper
  rw [Int.cast_neg, hBound] at hLower
  rw [PyDict.round, abs_div, abs_of_pos hPos, div_le_iff₀ hPos, hScale, le_div_iff₀ hPos,
    ← abs_of_pos hPos, ← abs_mul, abs_of_pos hPos, abs_le, abs_le]
  refine and_congr ?_ ?_
  · rw [neg_add, ← sub_eq_add_neg, ← hLower, ← hBound]
    norm_cast
  · rw [← hUpper, ← hBound]
    norm_cast

end Round

/-- The number of the multiple that is nearest. -/
def index (step q : ℚ) : Int := roundHalfEven (q / step)

/-- The multiple of the step that is nearest. -/
def snap (step q : ℚ) : ℚ := index step q * step

theorem index_snap {step : ℚ} (hStep : step ≠ 0) (q : ℚ) :
    index step (snap step q) = index step q := by
  rw [index, snap, mul_div_assoc, div_self hStep, mul_one, roundHalfEven_intCast]

theorem index_zero (step : ℚ) : index step 0 = 0 := by
  rw [index, zero_div]
  exact roundHalfEven_eq_zero le_rfl (by norm_num)

/-- Between the halves of two steps lies a number that only the smaller one moves away
from zero. -/
theorem exists_snap_ne {small large : ℚ} (hPos : 0 < small) (hLt : small < large) :
    ∃ q, snap small q = small ∧ snap large q = 0 := by
  let q := (small / 2 + min (large / 2) (3 / 2 * small)) / 2
  have hLower : small / 2 < q := by
    have hMin : small / 2 < min (large / 2) (3 / 2 * small) := lt_min (by linarith) (by linarith)
    simp only [q]
    linarith
  have hUpper : q < large / 2 ∧ q < 3 / 2 * small := by
    have hLeft := min_le_left (large / 2) (3 / 2 * small)
    have hRight := min_le_right (large / 2) (3 / 2 * small)
    constructor <;> simp only [q] <;> linarith
  have hSmall : index small q = 1 := by
    refine roundHalfEven_eq_one ?_ ?_
    · rw [lt_div_iff₀ hPos]
      linarith
    · rw [div_lt_iff₀ hPos]
      linarith
  have hLarge : index large q = 0 := by
    have hLargePos := hPos.trans hLt
    refine roundHalfEven_eq_zero (div_nonneg (by linarith) hLargePos.le) ?_
    rw [div_lt_iff₀ hLargePos]
    linarith
  refine ⟨q, ?_, ?_⟩
  · rw [snap, hSmall, Int.cast_one, one_mul]
  · rw [snap, hLarge, Int.cast_zero, zero_mul]

/-- Decimals keep a number that is more than half of the last one. -/
theorem round_pos {q : ℚ} {digits : Nat} (h : 1 / 2 < q * 10 ^ digits) : 0 < round q digits := by
  rw [PyDict.round]
  exact div_pos (Int.cast_pos.mpr (roundHalfEven_pos h)) (by positivity)

theorem round_zero (digits : Nat) : round 0 digits = 0 := by
  rw [PyDict.round, zero_mul, roundHalfEven_eq_zero le_rfl (by norm_num), Int.cast_zero, zero_div]

end Snap
