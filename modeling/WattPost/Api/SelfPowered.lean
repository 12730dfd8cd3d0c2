import Mathlib.Tactic.LinearCombination
import Mathlib.Tactic.Ring
import WattPost.Api.Energy
import WattPost.Lib.PyDict

/-! The self-powered part of the energy overview: the load of each bucket is shared among
the sun, the charger and the battery, and nothing is lost on the way to the percentages. -/
namespace WattPost.Energy

open Keyed Storage

/-! ### The code -/

/-- `sum(served.values())`. -/
def Served.total (served : Served) : ℚ := served.solar + served.battery + served.charger

/-- `total_served`, which is never zero. -/
def Served.divisor (served : Served) : ℚ := if served.total = 0 then 1 else served.total

/-- The percentages before they are rounded. -/
def Served.percent (served : Served) : Served where
  solar := 100 * served.solar / served.divisor
  battery := 100 * served.battery / served.divisor
  charger := 100 * served.charger / served.divisor

/-- The powers of a bucket: of the sun, the charger and the bank. -/
abbrev Bucket := (Option ℚ × Option ℚ) × Option ℚ

/-- The loop over the grid. -/
def serve (factor : ℚ) (buckets : List Bucket) : Served :=
  buckets.foldl (fun served b => served.add factor b.1.1 b.1.2 b.2) ⟨0, 0, 0⟩

/-! ### One bucket -/

/-- The load of a bucket: what comes in less what the bank takes. -/
def bucketLoad (b : Bucket) : ℚ :=
  max 0 (charge (b.1.1.getD 0) + charge (b.1.2.getD 0) + discharge (b.2.getD 0) -
    charge (b.2.getD 0))

/-- What one bucket adds. -/
def attribution (factor : ℚ) (b : Bucket) : Served :=
  Served.add ⟨0, 0, 0⟩ factor b.1.1 b.1.2 b.2

theorem charge_nonneg (w : ℚ) : 0 ≤ charge w := le_max_left 0 w

theorem discharge_nonneg (w : ℚ) : 0 ≤ discharge w := le_max_left 0 (-w)

/-- Shares of a load add up to it. -/
theorem shares_add {a b c : ℚ} (h : a + b + c ≠ 0) (load : ℚ) :
    a / (a + b + c) * load + b / (a + b + c) * load + c / (a + b + c) * load = load := by
  rw [← add_mul, ← add_mul, ← add_div, ← add_div, div_self h, one_mul]

/-- Without anything that comes in there is no load. -/
theorem bucketLoad_eq_zero {b : Bucket}
    (h : charge (b.1.1.getD 0) + charge (b.1.2.getD 0) + discharge (b.2.getD 0) ≤ 0 ∨
      bucketLoad b ≤ 0) : bucketLoad b = 0 := by
  have hIn := charge_nonneg (b.2.getD 0)
  have hLoad : 0 ≤ bucketLoad b := le_max_left 0 _
  rcases h with hNothing | hNone
  · exact max_eq_left (by linarith)
  · exact le_antisymm hNone hLoad

/-- What a bucket adds is its load in shares, or nothing where it has none. -/
theorem add_eq (served : Served) (factor : ℚ) (b : Bucket) :
    served.add factor b.1.1 b.1.2 b.2 =
      { solar := served.solar + (attribution factor b).solar
        battery := served.battery + (attribution factor b).battery
        charger := served.charger + (attribution factor b).charger } := by
  unfold attribution Served.add
  dsimp only
  split_ifs
  · simp only [add_zero]
  · simp only [zero_add]

/-- A bucket's parts are not negative, and add up to its load. -/
theorem attribution_conserves {factor : ℚ} (hFactor : 0 ≤ factor) (b : Bucket) :
    0 ≤ (attribution factor b).solar ∧ 0 ≤ (attribution factor b).charger ∧
      0 ≤ (attribution factor b).battery ∧
      (attribution factor b).total = bucketLoad b * factor := by
  have hSolar := charge_nonneg (b.1.1.getD 0)
  have hCharger := charge_nonneg (b.1.2.getD 0)
  have hOut := discharge_nonneg (b.2.getD 0)
  have hLoad : 0 ≤ bucketLoad b := le_max_left 0 _
  unfold attribution Served.add Served.total
  dsimp only
  split_ifs with hNone
  · rw [bucketLoad_eq_zero hNone]
    norm_num
  · have hTotal : 0 < charge (b.1.1.getD 0) + charge (b.1.2.getD 0) + discharge (b.2.getD 0) :=
      not_le.mp fun hLe => hNone (Or.inl hLe)
    have hPart : ∀ {part : ℚ}, 0 ≤ part → 0 ≤ 0 + part / (charge (b.1.1.getD 0) +
        charge (b.1.2.getD 0) + discharge (b.2.getD 0)) * bucketLoad b * factor := fun hPart => by
      positivity
    refine ⟨hPart hSolar, hPart hCharger, hPart hOut, ?_⟩
    have hShares := shares_add hTotal.ne' (bucketLoad b)
    simp only [charge, discharge, bucketLoad] at hShares ⊢
    linear_combination factor * hShares

/-! ### The grid -/

theorem serve_eq (factor : ℚ) (buckets : List Bucket) :
    serve factor buckets =
      { solar := (buckets.map fun b => (attribution factor b).solar).sum
        battery := (buckets.map fun b => (attribution factor b).battery).sum
        charger := (buckets.map fun b => (attribution factor b).charger).sum } := by
  have hFold : ∀ served : Served,
      buckets.foldl (fun served b => served.add factor b.1.1 b.1.2 b.2) served =
        { solar := served.solar + (buckets.map fun b => (attribution factor b).solar).sum
          battery := served.battery + (buckets.map fun b => (attribution factor b).battery).sum
          charger := served.charger + (buckets.map fun b => (attribution factor b).charger).sum }
      := by
    induction buckets with
    | nil =>
        intro served
        simp only [List.foldl_nil, List.map_nil, List.sum_nil, add_zero]
    | cons b rest ih =>
        intro served
        rw [List.foldl_cons, ih, add_eq]
        simp only [List.map_cons, List.sum_cons, add_assoc]
  rw [serve, hFold]
  simp only [zero_add]

/-- The served totals add up to the loads of all buckets. -/
theorem total_serve {factor : ℚ} (hFactor : 0 ≤ factor) (buckets : List Bucket) :
    (serve factor buckets).total = (buckets.map fun b => bucketLoad b * factor).sum := by
  have hLoads : (buckets.map fun b => bucketLoad b * factor) =
      buckets.map fun b => (attribution factor b).solar + (attribution factor b).battery +
        (attribution factor b).charger :=
    List.map_congr_left fun b _ => (attribution_conserves hFactor b).2.2.2.symm
  rw [serve_eq, hLoads, List.sum_map_add, List.sum_map_add]
  rfl

theorem serve_nonneg {factor : ℚ} (hFactor : 0 ≤ factor) (buckets : List Bucket) :
    0 ≤ (serve factor buckets).solar ∧ 0 ≤ (serve factor buckets).battery ∧
      0 ≤ (serve factor buckets).charger := by
  rw [serve_eq]
  refine ⟨List.sum_nonneg ?_, List.sum_nonneg ?_, List.sum_nonneg ?_⟩
  all_goals
    intro x hx
    obtain ⟨b, -, rfl⟩ := List.mem_map.mp hx
    obtain ⟨hSolar, hCharger, hBattery, -⟩ := attribution_conserves hFactor b
  · exact hSolar
  · exact hBattery
  · exact hCharger

/-! ### The percentages -/

theorem total_percent {served : Served} (h : served.total ≠ 0) : served.percent.total = 100 := by
  have hDivisor : served.divisor = served.total := if_neg h
  have hWhole : served.percent.total = 100 * served.total / served.divisor := by
    simp only [Served.percent, Served.total]
    ring
  rw [hWhole, hDivisor, mul_div_assoc, div_self h, mul_one]

theorem percent_eq_zero {served : Served} (hSolar : 0 ≤ served.solar)
    (hBattery : 0 ≤ served.battery) (hCharger : 0 ≤ served.charger) (h : served.total = 0) :
    served.percent = ⟨0, 0, 0⟩ := by
  unfold Served.total at h
  have hZero : served.solar = 0 ∧ served.battery = 0 ∧ served.charger = 0 :=
    ⟨by linarith, by linarith, by linarith⟩
  rw [Served.percent, hZero.1, hZero.2.1, hZero.2.2, mul_zero, zero_div]

/-- **Attribution is conservative.** Of any buckets, with gaps and any signs, each gives
parts that are not negative and add up to its load; the served totals add up to the
loads of all; and the percentages add up to 100 if any load was served, and are all 0
otherwise. `compute_energy` serves the buckets of its own grid. -/
theorem attribution_conservative (bucket : Option Int) (buckets : List Bucket) :
    let factor : ℚ := bucketSeconds bucket / 3600
    let served := serve factor buckets
    (∀ b ∈ buckets, 0 ≤ (attribution factor b).solar ∧ 0 ≤ (attribution factor b).charger ∧
      0 ≤ (attribution factor b).battery ∧
      (attribution factor b).total = bucketLoad b * factor) ∧
    served.solar = (buckets.map fun b => (attribution factor b).solar).sum ∧
    served.charger = (buckets.map fun b => (attribution factor b).charger).sum ∧
    served.battery = (buckets.map fun b => (attribution factor b).battery).sum ∧
    served.total = (buckets.map fun b => bucketLoad b * factor).sum ∧
    ((∃ b ∈ buckets, 0 < bucketLoad b) → served.percent.total = 100) ∧
    ((∀ b ∈ buckets, bucketLoad b = 0) → served.percent = ⟨0, 0, 0⟩) ∧
    ∀ (db : Db ℚ) (sinceTs untilTs : Int),
      let energy := computeEnergy db sinceTs untilTs bucket
      energy.served = serve factor ((energy.solarW.zip energy.chargerW).zip energy.bankW) := by
  intro factor served
  have hFactor : 0 < factor := by
    have hPos := bucketSeconds_pos bucket
    positivity
  have hEach : served = _ := serve_eq factor buckets
  have hTotal : served.total = _ := total_serve hFactor.le buckets
  refine ⟨fun b _ => attribution_conserves hFactor.le b, congrArg Served.solar hEach,
    congrArg Served.charger hEach, congrArg Served.battery hEach, hTotal, ?_, fun hNone => ?_,
    fun db sinceTs untilTs => rfl⟩
  · rintro ⟨b, hb, hLoad⟩
    refine total_percent (ne_of_gt ?_)
    have hLe : bucketLoad b * factor ≤ (buckets.map fun b => bucketLoad b * factor).sum := by
      refine List.single_le_sum ?_ _ (List.mem_map_of_mem hb)
      intro x hx
      obtain ⟨b', -, rfl⟩ := List.mem_map.mp hx
      exact mul_nonneg (le_max_left 0 _) hFactor.le
    rw [hTotal]
    exact lt_of_lt_of_le (mul_pos hLoad hFactor) hLe
  · obtain ⟨hSolar, hBattery, hCharger⟩ := serve_nonneg hFactor.le buckets
    refine percent_eq_zero hSolar hBattery hCharger (hTotal.trans (List.sum_eq_zero ?_))
    intro x hx
    obtain ⟨b, hb, rfl⟩ := List.mem_map.mp hx
    rw [hNone b hb, zero_mul]

end WattPost.Energy
