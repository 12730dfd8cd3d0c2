import Mathlib.Algebra.BigOperators.Group.Finset.Piecewise
import Mathlib.Algebra.Order.BigOperators.Group.Finset
import Mathlib.Tactic.FieldSimp
import Mathlib.Tactic.Linarith
import Mathlib.Tactic.Positivity
import WattPost.Storage.History

/-! The energy overview: the power of the sources, the chargers and the bank on one grid of
times, and the watt-hours under them. The numbers are those before they are rounded, and
the window is given. -/
namespace WattPost.Energy

open Keyed Storage

/-- What `get_history` returns of a metric. -/
abbrev Series := List (Nat × ℚ)

/-! ### One grid -/

/-- The value at a time in the dictionary of a series. -/
def valueAt (series : Series) (t : Int) : Option ℚ :=
  (series.reverse.find? fun p => (p.1 : Int) = t).map Prod.snd

/-- `_align`. -/
def align (series : Series) (gridTs : List Int) : List (Option ℚ) :=
  if series.isEmpty then List.replicate gridTs.length none else gridTs.map (valueAt series)

/-- `_sum_aligned`. -/
def sumAligned (seriesList : List Series) (gridTs : List Int) : List (Option ℚ) :=
  if seriesList.isEmpty then List.replicate gridTs.length none
  else
    let aligned := seriesList.map (align · gridTs)
    (List.range gridTs.length).map fun i =>
      let bucketVals := aligned.filterMap fun a => a.getD i none
      if bucketVals.isEmpty then none else some bucketVals.sum

/-- `range(start, stop, step)`. -/
def range (start stop : Int) (step : Nat) : List Int :=
  (List.range ((stop - start + step - 1) / step).toNat).map fun (i : Nat) => start + i * step

/-! ### The totals -/

def sourceKinds : List String := ["charge_controller", "mppt", "dcdc", "dcdc_charger", "dcdc_xs"]

def chargerKinds : List String := ["ac_charger"]

/-- The labels of `list_devices` with one of the kinds. -/
def labelsOf (db : Db ℚ) (kinds : List String) : List String :=
  (db.deviceMeta.rows.filter fun d => kinds.contains d.2.kind).map Prod.fst

/-- `int(bucket) if bucket and int(bucket) > 0 else 300`. -/
def bucketSeconds (bucket : Option Int) : Nat :=
  match bucket with
  | some b => if 0 < b then b.toNat else 300
  | none => 300

/-- The sum of the positive values. -/
def positiveSum (values : List (Option ℚ)) : ℚ := ((values.filterMap id).filter (0 < ·)).sum

/-- The sum of the negative values, without their sign. -/
def negativeSum (values : List (Option ℚ)) : ℚ :=
  (((values.filterMap id).filter (· < 0)).map (- ·)).sum

/-- The load that each input has served. -/
structure Served where
  solar : ℚ
  battery : ℚ
  charger : ℚ

/-- What one bucket adds to the served load. -/
def Served.add (served : Served) (factor : ℚ) (solar charger bank : Option ℚ) : Served :=
  let s := max 0 (solar.getD 0)
  let c := max 0 (charger.getD 0)
  let bw := bank.getD 0
  let bOut := max 0 (-bw)
  let bIn := max 0 bw
  let totalIn := s + c + bOut
  let loadInBucket := max 0 (s + c + bOut - bIn)
  if totalIn ≤ 0 ∨ loadInBucket ≤ 0 then served
  else
    { solar := served.solar + s / totalIn * loadInBucket * factor
      charger := served.charger + c / totalIn * loadInBucket * factor
      battery := served.battery + bOut / totalIn * loadInBucket * factor }

/-- What `compute_energy` returns. -/
structure Overview where
  ts : List Int
  solarW : List (Option ℚ)
  chargerW : List (Option ℚ)
  bankW : List (Option ℚ)
  socPct : List (Option ℚ)
  tempC : List (Option ℚ)
  solarWh : ℚ
  chargerWh : ℚ
  bankChargedWh : ℚ
  bankDischargedWh : ℚ
  loadWh : ℚ
  served : Served

section Compute

variable (db : Db ℚ) (sinceTs untilTs : Int) (bucket : Option Int)

def history (label metric : String) : Series :=
  getHistory db label metric sinceTs untilTs (bucketSeconds bucket)

/-- `pv_series`. -/
def pvSeries : List Series :=
  (labelsOf db sourceKinds).flatMap fun label =>
    ["pv_power_w", "output_power_w"].map (history db sinceTs untilTs bucket label)

/-- `chg_series`. -/
def chargerSeries : List Series :=
  (labelsOf db chargerKinds).flatMap fun label =>
    ["output_1_power_w", "output_2_power_w", "output_3_power_w"].map
      (history db sinceTs untilTs bucket label)

/-- `bank_pw`. -/
def bankSeries : Series := history db sinceTs untilTs bucket "bank" "power_w"

/-- `grid_ts`: the times of the bank, or else a grid of its own. -/
def gridTs : List Int :=
  let bankTs := (bankSeries db sinceTs untilTs bucket).map fun p => (p.1 : Int)
  if bankTs.isEmpty then
    range (sinceTs - sinceTs % bucketSeconds bucket) (untilTs + 1) (bucketSeconds bucket)
  else bankTs

/-- `compute_energy`. -/
def computeEnergy : Overview :=
  let grid := gridTs db sinceTs untilTs bucket
  let solarW := sumAligned (pvSeries db sinceTs untilTs bucket) grid
  let chargerW := sumAligned (chargerSeries db sinceTs untilTs bucket) grid
  let bankW := align (bankSeries db sinceTs untilTs bucket) grid
  let factor : ℚ := bucketSeconds bucket / 3600
  let solarWh := positiveSum solarW * factor
  let chargerWh := positiveSum chargerW * factor
  let bankInWh := positiveSum bankW * factor
  let bankOutWh := negativeSum bankW * factor
  { ts := grid
    solarW := solarW
    chargerW := chargerW
    bankW := bankW
    socPct := align (history db sinceTs untilTs bucket "bank" "soc_pct") grid
    tempC := align (history db sinceTs untilTs bucket "bank" "temperature_c") grid
    solarWh := solarWh
    chargerWh := chargerWh
    bankChargedWh := bankInWh
    bankDischargedWh := bankOutWh
    loadWh := max 0 (solarWh + chargerWh + bankOutWh - bankInWh)
    served := ((solarW.zip chargerW).zip bankW).foldl
      (fun served v => served.add factor v.1.1 v.1.2 v.2) ⟨0, 0, 0⟩ }

end Compute

/-! ### Time-weighted totals -/

/-- The times of some series. -/
def times (seriesList : List Series) : Finset Int :=
  (seriesList.flatten.map fun p => (p.1 : Int)).toFinset

/-- The power of some series at a time. -/
def power (seriesList : List Series) (t : Int) : ℚ := (seriesList.filterMap (valueAt · t)).sum

/-- The seconds that a row of the returned series spans: the bucket, or the width of the
table's rows where the bucket is not wider. -/
def spanSeconds (sinceTs untilTs : Int) (bucket : Nat) : Nat :=
  max bucket (pickHistoryTable (untilTs - sinceTs)).2

/-- The watt-hours of some series: at every time that has a row, the part of the power that
counts, for as long as the row spans. -/
def wattHours (part : ℚ → ℚ) (seriesList : List Series) (span : Nat) : ℚ :=
  (∑ t ∈ times seriesList, part (power seriesList t)) * span / 3600

def charge (w : ℚ) : ℚ := max 0 w

def discharge (w : ℚ) : ℚ := max 0 (-w)

/-- Each total is its power over the time that it stands for. -/
structure WeighsByTime (db : Db ℚ) (sinceTs untilTs : Int) (bucket : Option Int) : Prop where
  solar : (computeEnergy db sinceTs untilTs bucket).solarWh =
    wattHours charge (pvSeries db sinceTs untilTs bucket)
      (spanSeconds sinceTs untilTs (bucketSeconds bucket))
  charger : (computeEnergy db sinceTs untilTs bucket).chargerWh =
    wattHours charge (chargerSeries db sinceTs untilTs bucket)
      (spanSeconds sinceTs untilTs (bucketSeconds bucket))
  bankCharged : (computeEnergy db sinceTs untilTs bucket).bankChargedWh =
    wattHours charge [bankSeries db sinceTs untilTs bucket]
      (spanSeconds sinceTs untilTs (bucketSeconds bucket))
  bankDischarged : (computeEnergy db sinceTs untilTs bucket).bankDischargedWh =
    wattHours discharge [bankSeries db sinceTs untilTs bucket]
      (spanSeconds sinceTs untilTs (bucketSeconds bucket))

/-- A time at which the bank has a row or, where the bank has none, one that starts a
bucket. -/
def Covered (bank : Series) (bucketSeconds : Nat) (t : Int) : Prop :=
  (∃ p ∈ bank, (p.1 : Int) = t) ∨ bank = [] ∧ (bucketSeconds : Int) ∣ t

/-! ### The aligned values -/

@[simp] theorem valueAt_nil (t : Int) : valueAt [] t = none := rfl

theorem valueAt_isSome {series : Series} {t : Int} (hValue : (valueAt series t).isSome) :
    ∃ p ∈ series, (p.1 : Int) = t := by
  obtain ⟨v, hFind⟩ := Option.isSome_iff_exists.mp hValue
  obtain ⟨p, hp, -⟩ := Option.map_eq_some_iff.mp hFind
  have hTs := List.find?_some hp
  exact ⟨p, List.mem_reverse.mp (List.mem_of_find?_eq_some hp), of_decide_eq_true hTs⟩

theorem align_eq (series : Series) (grid : List Int) :
    align series grid = grid.map (valueAt series) := by
  cases series with
  | nil => exact List.map_const'.symm
  | cons p rest => rfl

/-- The value of a bucket: missing where no series has one. -/
def combined (seriesList : List Series) (t : Int) : Option ℚ :=
  if (seriesList.filterMap (valueAt · t)).isEmpty then none else some (power seriesList t)

theorem sumAligned_eq (seriesList : List Series) (grid : List Int) :
    sumAligned seriesList grid = grid.map (combined seriesList) := by
  unfold sumAligned
  split_ifs with hEmpty
  · rw [List.isEmpty_iff.mp hEmpty]
    exact List.map_const'.symm
  · refine List.ext_getElem (by simp) fun i hi hi' => ?_
    have hGrid : i < grid.length := by simpa using hi'
    have hValues : (seriesList.map (align · grid)).filterMap (fun a => a.getD i none) =
        seriesList.filterMap (valueAt · grid[i]) := by
      rw [List.filterMap_map]
      refine List.filterMap_congr fun series _ => ?_
      simp [align_eq, List.getD_eq_getElem?_getD, hGrid]
    simp only [List.getElem_map, List.getElem_range]
    rw [hValues]
    rfl

theorem combined_getD (seriesList : List Series) (t : Int) :
    (combined seriesList t).getD 0 = power seriesList t := by
  unfold combined power
  split_ifs with hEmpty
  · rw [List.isEmpty_iff.mp hEmpty]
    rfl
  · rfl

theorem valueAt_getD (series : Series) (t : Int) :
    (valueAt series t).getD 0 = power [series] t := by
  unfold power
  cases hValue : valueAt series t <;> simp [hValue]

/-- A missing value counts for nothing. -/
theorem positiveSum_cons (value : Option ℚ) (rest : List (Option ℚ)) :
    positiveSum (value :: rest) = charge (value.getD 0) + positiveSum rest := by
  cases value with
  | none => simp [positiveSum, charge]
  | some v =>
      rcases lt_or_ge 0 v with hPos | hNeg
      · simp [positiveSum, charge, hPos, hPos.le]
      · simp [positiveSum, charge, hNeg, not_lt.mpr hNeg]

theorem negativeSum_cons (value : Option ℚ) (rest : List (Option ℚ)) :
    negativeSum (value :: rest) = discharge (value.getD 0) + negativeSum rest := by
  cases value with
  | none => simp [negativeSum, discharge]
  | some v =>
      rcases lt_or_ge v 0 with hNeg | hPos
      · simp [negativeSum, discharge, hNeg, hNeg.le]
      · simp [negativeSum, discharge, hPos, not_lt.mpr hPos]

/-- A total that adds a part of every value, over the values on a grid. -/
theorem total_map {total : List (Option ℚ) → ℚ} {part : ℚ → ℚ} (hNil : total [] = 0)
    (hCons : ∀ value rest, total (value :: rest) = part (value.getD 0) + total rest)
    (f : Int → Option ℚ) (grid : List Int) :
    total (grid.map f) = (grid.map fun t => part ((f t).getD 0)).sum := by
  induction grid with
  | nil => exact hNil
  | cons t rest ih => rw [List.map_cons, List.map_cons, List.sum_cons, hCons, ih]

/-! ### The grid -/

section Grid

variable (db : Db ℚ) (sinceTs untilTs : Int) (bucket : Option Int)

theorem bucketSeconds_pos : 0 < bucketSeconds bucket := by
  unfold bucketSeconds
  split
  · split_ifs <;> omega
  · omega

theorem range_sorted (start stop : Int) {step : Nat} (hStep : 0 < step) :
    (range start stop step).Pairwise (· < ·) := by
  refine List.pairwise_map.mpr (List.pairwise_lt_range.imp fun {i j} hLt => ?_)
  have hMul : (i : Int) * step < j * step := by
    exact_mod_cast Nat.mul_lt_mul_of_pos_right hLt hStep
  omega

theorem mem_range {start stop t : Int} {step : Nat} (hStep : 0 < step) :
    t ∈ range start stop step ↔ start ≤ t ∧ t < stop ∧ (step : Int) ∣ t - start := by
  have hPos : (0 : Int) < step := by exact_mod_cast hStep
  have hCount (i : Nat) : i < ((stop - start + step - 1) / step).toNat ↔
      start + i * step < stop := by
    rw [Int.lt_toNat, Int.lt_iff_add_one_le, Int.le_ediv_iff_mul_le hPos, add_mul, one_mul]
    omega
  simp only [range, List.mem_map, List.mem_range]
  constructor
  · rintro ⟨i, hi, rfl⟩
    have hNonneg : (0 : Int) ≤ i * step := by positivity
    exact ⟨by omega, (hCount i).mp hi, ⟨i, by rw [add_sub_cancel_left, mul_comm]⟩⟩
  · rintro ⟨hStart, hStop, q, hq⟩
    have hQuotient : 0 ≤ q := nonneg_of_mul_nonneg_right (by omega) hPos
    have hCast : start + (q.toNat : Int) * step = t := by
      rw [Int.toNat_of_nonneg hQuotient, mul_comm]
      omega
    exact ⟨q.toNat, (hCount _).mpr (by omega), hCast⟩

theorem gridTs_nodup : (gridTs db sinceTs untilTs bucket).Nodup := by
  unfold gridTs
  dsimp only
  split_ifs with hEmpty
  · exact (range_sorted _ _ (bucketSeconds_pos bucket)).imp ne_of_lt
  · have hSorted := getHistory_sorted db "bank" "power_w" sinceTs untilTs (bucketSeconds bucket)
    exact List.pairwise_map.mpr (hSorted.imp fun hLt => by simpa using hLt.ne)

/-- A time of the window, or of the bucket that the window starts in, is on the grid if it is
covered. -/
theorem mem_gridTs {t : Int} (hSince : sinceTs - sinceTs % bucketSeconds bucket ≤ t)
    (hUntil : t ≤ untilTs) :
    t ∈ gridTs db sinceTs untilTs bucket ↔
      Covered (bankSeries db sinceTs untilTs bucket) (bucketSeconds bucket) t := by
  have hStart : (bucketSeconds bucket : Int) ∣ sinceTs - sinceTs % bucketSeconds bucket :=
    Int.dvd_self_sub_emod
  unfold gridTs Covered
  dsimp only
  cases hBank : bankSeries db sinceTs untilTs bucket with
  | nil =>
      simp only [List.map_nil, List.isEmpty_nil, if_true, mem_range (bucketSeconds_pos bucket),
        List.not_mem_nil, false_and, exists_false, false_or, true_and]
      exact ⟨fun h => (dvd_sub_left hStart).mp h.2.2,
        fun h => ⟨hSince, by omega, (dvd_sub_left hStart).mpr h⟩⟩
  | cons p rest => simp [@eq_comm _ t]

theorem mem_times {seriesList : List Series} {t : Int} :
    t ∈ times seriesList ↔ ∃ series ∈ seriesList, ∃ p ∈ series, (p.1 : Int) = t := by
  simp only [times, List.mem_toFinset, List.mem_map, List.mem_flatten]
  exact ⟨fun ⟨p, ⟨series, hSeries, hp⟩, hTs⟩ => ⟨series, hSeries, p, hp, hTs⟩,
    fun ⟨series, hSeries, p, hp, hTs⟩ => ⟨p, ⟨series, hSeries, hp⟩, hTs⟩⟩

theorem power_eq_zero {seriesList : List Series} {t : Int} (hTs : t ∉ times seriesList) :
    power seriesList t = 0 := by
  have hNone : seriesList.filterMap (valueAt · t) = [] := by
    refine List.filterMap_eq_nil_iff.mpr fun series hSeries => ?_
    by_contra hValue
    obtain ⟨p, hp, hEq⟩ := valueAt_isSome (Option.isSome_iff_ne_none.mpr hValue)
    exact hTs (mem_times.mpr ⟨series, hSeries, p, hp, hEq⟩)
  rw [power, hNone, List.sum_nil]

/-! ### The totals -/

/-- Weighing the values on the grid by the bucket agrees with weighing all by their span
exactly if nothing is off the grid and the bucket is the span, or there is nothing. -/
theorem weighed_iff (f : Int → ℚ) (grid : Finset Int) (native : Nat) (hNonneg : ∀ t, 0 ≤ f t)
    {all : Finset Int} (hZero : ∀ t ∉ all, f t = 0) {bucket : Nat} (hBucket : 0 < bucket) :
    (∑ t ∈ grid, f t) * (bucket / 3600) = (∑ t ∈ all, f t) * (max bucket native : Nat) / 3600 ↔
      (∀ t ∈ all, t ∉ grid → f t = 0) ∧ (native ≤ bucket ∨ ∀ t ∈ all, f t = 0) := by
  have hOn : ∑ t ∈ grid, f t = ∑ t ∈ all ∩ grid, f t :=
    (Finset.sum_subset Finset.inter_subset_right fun t hGrid hInter =>
      hZero t fun hAll => hInter (Finset.mem_inter.mpr ⟨hAll, hGrid⟩)).symm
  have hSplit : ∑ t ∈ all, f t = ∑ t ∈ grid, f t + ∑ t ∈ all \ grid, f t := by
    rw [hOn, Finset.sum_inter_add_sum_sdiff]
  have hOff : (∀ t ∈ all, t ∉ grid → f t = 0) ↔ ∑ t ∈ all \ grid, f t = 0 := by
    rw [Finset.sum_eq_zero_iff_of_nonneg fun t _ => hNonneg t]
    simp only [Finset.mem_sdiff, and_imp]
  have hAll : (∀ t ∈ all, f t = 0) ↔ ∑ t ∈ all, f t = 0 :=
    (Finset.sum_eq_zero_iff_of_nonneg fun t _ => hNonneg t).symm
  have hGridNonneg : 0 ≤ ∑ t ∈ grid, f t := Finset.sum_nonneg fun t _ => hNonneg t
  have hOffNonneg : 0 ≤ ∑ t ∈ all \ grid, f t := Finset.sum_nonneg fun t _ => hNonneg t
  rw [hOff, hAll, hSplit]
  generalize ∑ t ∈ grid, f t = on at *
  generalize ∑ t ∈ all \ grid, f t = off at *
  have hPos : (0 : ℚ) < bucket := by exact_mod_cast hBucket
  have hHours (span : ℚ) : on * (bucket / 3600) = (on + off) * span / 3600 ↔
      on * bucket = (on + off) * span := by
    rw [← mul_div_assoc, div_left_inj' (by norm_num : (3600 : ℚ) ≠ 0)]
  rw [hHours]
  rcases le_or_gt native bucket with hWide | hNarrow
  · rw [max_eq_left hWide, mul_left_inj' hPos.ne']
    exact ⟨fun hEq => ⟨by linarith, Or.inl hWide⟩, fun h => by rw [h.1, add_zero]⟩
  · have hLess : (bucket : ℚ) < native := by exact_mod_cast hNarrow
    rw [max_eq_right hNarrow.le]
    constructor
    · intro hEq
      have hSmall : (on + off) * bucket ≤ (on + off) * native :=
        mul_le_mul_of_nonneg_left hLess.le (by linarith)
      have hOffZero : off = 0 := by nlinarith
      have hOnZero : on = 0 := by
        rw [hOffZero, add_zero] at hEq
        have hProduct : on * (native - bucket) = 0 := by linarith
        exact (mul_eq_zero.mp hProduct).resolve_right (by linarith)
      exact ⟨hOffZero, Or.inr (by rw [hOnZero, hOffZero, add_zero])⟩
    · rintro ⟨hOffZero, hNot | hNone⟩
      · omega
      · rw [hNone, show on = 0 by linarith, zero_mul, zero_mul]

theorem sum_grid (f : Int → ℚ) :
    ((gridTs db sinceTs untilTs bucket).map f).sum =
      ∑ t ∈ (gridTs db sinceTs untilTs bucket).toFinset, f t :=
  (List.sum_toFinset f (gridTs_nodup db sinceTs untilTs bucket)).symm

theorem charge_eq_zero {w : ℚ} : charge w = 0 ↔ w ≤ 0 := max_eq_left_iff

theorem discharge_eq_zero {w : ℚ} : discharge w = 0 ↔ 0 ≤ w :=
  max_eq_left_iff.trans neg_nonpos

/-- Neither charge nor discharge is no power. -/
theorem idle_iff {seriesList : List Series} :
    (∀ t ∈ times seriesList, power seriesList t = 0) ↔
      (∀ t ∈ times seriesList, charge (power seriesList t) = 0) ∧
        ∀ t ∈ times seriesList, discharge (power seriesList t) = 0 := by
  simp only [charge_eq_zero, discharge_eq_zero, ← forall_and, ← le_antisymm_iff]

/-- Every series of the sources and of the chargers is one metric's history. -/
theorem sources_history {sources : List Series}
    (hSources : sources ∈ [pvSeries db sinceTs untilTs bucket,
      chargerSeries db sinceTs untilTs bucket]) {series : Series} (hSeries : series ∈ sources) :
    ∃ label metric, series = history db sinceTs untilTs bucket label metric := by
  simp only [List.mem_cons, List.not_mem_nil, or_false] at hSources
  rcases hSources with rfl | rfl
  all_goals
    obtain ⟨label, -, hLabel⟩ := List.mem_flatMap.mp hSeries
    obtain ⟨metric, -, rfl⟩ := List.mem_map.mp hLabel
    exact ⟨label, metric, rfl⟩

theorem sources_mem_gridTs {sources : List Series}
    (hSources : sources ∈ [pvSeries db sinceTs untilTs bucket,
      chargerSeries db sinceTs untilTs bucket]) {t : Int} (hTs : t ∈ times sources) :
    t ∈ gridTs db sinceTs untilTs bucket ↔
      Covered (bankSeries db sinceTs untilTs bucket) (bucketSeconds bucket) t := by
  obtain ⟨series, hSeries, p, hp, rfl⟩ := mem_times.mp hTs
  obtain ⟨label, metric, rfl⟩ := sources_history db sinceTs untilTs bucket hSources hSeries
  obtain ⟨hSince, hUntil⟩ := getHistory_window hp
  exact mem_gridTs db sinceTs untilTs bucket hSince hUntil

theorem bank_mem_gridTs {t : Int} (hTs : t ∈ times [bankSeries db sinceTs untilTs bucket]) :
    t ∈ gridTs db sinceTs untilTs bucket := by
  obtain ⟨series, hSeries, p, hp, rfl⟩ := mem_times.mp hTs
  obtain rfl := List.mem_singleton.mp hSeries
  obtain ⟨hSince, hUntil⟩ := getHistory_window hp
  exact (mem_gridTs db sinceTs untilTs bucket hSince hUntil).mpr (Or.inl ⟨p, hp, rfl⟩)

/-- The total of the sources or of the chargers. -/
theorem sources_weighed_iff (sources : List Series)
    (hSources : sources ∈ [pvSeries db sinceTs untilTs bucket,
      chargerSeries db sinceTs untilTs bucket]) :
    positiveSum (sumAligned sources (gridTs db sinceTs untilTs bucket)) *
        (bucketSeconds bucket / 3600) =
      wattHours charge sources (spanSeconds sinceTs untilTs (bucketSeconds bucket)) ↔
      (∀ t ∈ times sources, 0 < power sources t →
        Covered (bankSeries db sinceTs untilTs bucket) (bucketSeconds bucket) t) ∧
      ((pickHistoryTable (untilTs - sinceTs)).2 ≤ bucketSeconds bucket ∨
        ∀ t ∈ times sources, power sources t ≤ 0) := by
  rw [sumAligned_eq, total_map rfl positiveSum_cons, sum_grid]
  simp only [combined_getD]
  have hWeighed := weighed_iff (fun t => charge (power sources t))
    (gridTs db sinceTs untilTs bucket).toFinset (pickHistoryTable (untilTs - sinceTs)).2
    (fun t => le_max_left 0 _) (fun t hTs => by rw [power_eq_zero hTs]; exact max_self 0)
    (bucketSeconds_pos bucket)
  refine hWeighed.trans ?_
  simp only [charge_eq_zero, List.mem_toFinset]
  refine and_congr_left fun _ => forall₂_congr fun t hTs => ?_
  rw [sources_mem_gridTs db sinceTs untilTs bucket hSources hTs, ← not_lt, not_imp_not]

/-- A total of the bank, whose times are the grid. -/
theorem bank_weighed_iff (part : ℚ → ℚ) (hNonneg : ∀ w, 0 ≤ part w) (hZero : part 0 = 0) :
    ((gridTs db sinceTs untilTs bucket).map fun t =>
        part ((valueAt (bankSeries db sinceTs untilTs bucket) t).getD 0)).sum *
        (bucketSeconds bucket / 3600) =
      wattHours part [bankSeries db sinceTs untilTs bucket]
        (spanSeconds sinceTs untilTs (bucketSeconds bucket)) ↔
      (pickHistoryTable (untilTs - sinceTs)).2 ≤ bucketSeconds bucket ∨
        ∀ t ∈ times [bankSeries db sinceTs untilTs bucket],
          part (power [bankSeries db sinceTs untilTs bucket] t) = 0 := by
  rw [sum_grid]
  simp only [valueAt_getD]
  have hWeighed := weighed_iff (fun t => part (power [bankSeries db sinceTs untilTs bucket] t))
    (gridTs db sinceTs untilTs bucket).toFinset (pickHistoryTable (untilTs - sinceTs)).2
    (fun t => hNonneg _) (fun t hTs => by rw [power_eq_zero hTs, hZero])
    (bucketSeconds_pos bucket)
  refine hWeighed.trans (and_iff_right fun t hTs hGrid => absurd ?_ hGrid)
  exact List.mem_toFinset.mpr (bank_mem_gridTs db sinceTs untilTs bucket hTs)

end Grid

/-! ### The overview -/

/-- The totals weigh every row by its time exactly if every time with power of the sources or
of the chargers is covered and the bucket is not narrower than the table's rows, or there is
no power. -/
theorem energy_weighs_iff (db : Db ℚ) (sinceTs untilTs : Int) (bucket : Option Int) :
    WeighsByTime db sinceTs untilTs bucket ↔
      (∀ sources ∈ [pvSeries db sinceTs untilTs bucket, chargerSeries db sinceTs untilTs bucket],
        ∀ t ∈ times sources, 0 < power sources t →
          Covered (bankSeries db sinceTs untilTs bucket) (bucketSeconds bucket) t) ∧
      ((pickHistoryTable (untilTs - sinceTs)).2 ≤ bucketSeconds bucket ∨
        (∀ sources ∈ [pvSeries db sinceTs untilTs bucket,
            chargerSeries db sinceTs untilTs bucket],
          ∀ t ∈ times sources, power sources t ≤ 0) ∧
        ∀ t ∈ times [bankSeries db sinceTs untilTs bucket],
          power [bankSeries db sinceTs untilTs bucket] t = 0) := by
  have hSolar := sources_weighed_iff db sinceTs untilTs bucket
    (pvSeries db sinceTs untilTs bucket) (by simp)
  have hCharger := sources_weighed_iff db sinceTs untilTs bucket
    (chargerSeries db sinceTs untilTs bucket) (by simp)
  have hIn := bank_weighed_iff db sinceTs untilTs bucket charge
    (fun w => le_max_left 0 w) (max_self 0)
  have hOut := bank_weighed_iff db sinceTs untilTs bucket discharge
    (fun w => le_max_left 0 (-w)) (by simp [discharge])
  rw [← total_map rfl positiveSum_cons, ← align_eq] at hIn
  rw [← total_map rfl negativeSum_cons, ← align_eq] at hOut
  have hParts : WeighsByTime db sinceTs untilTs bucket ↔ _ ∧ _ ∧ _ ∧ _ :=
    ⟨fun h => ⟨hSolar.mp h.solar, hCharger.mp h.charger, hIn.mp h.bankCharged,
      hOut.mp h.bankDischarged⟩,
     fun h => ⟨hSolar.mpr h.1, hCharger.mpr h.2.1, hIn.mpr h.2.2.1, hOut.mpr h.2.2.2⟩⟩
  have hLogic (wide a b c d e f : Prop) :
      (a ∧ (wide ∨ b)) ∧ (c ∧ (wide ∨ d)) ∧ (wide ∨ e) ∧ (wide ∨ f) ↔
        (a ∧ c) ∧ (wide ∨ (b ∧ d) ∧ e ∧ f) := by
    by_cases hWide : wide
    · simp [hWide]
    · simp only [hWide, false_or]
      exact ⟨fun ⟨⟨ha, hb⟩, ⟨hc, hd⟩, hRest⟩ => ⟨⟨ha, hc⟩, ⟨hb, hd⟩, hRest⟩,
        fun ⟨⟨ha, hc⟩, ⟨hb, hd⟩, hRest⟩ => ⟨⟨ha, hb⟩, ⟨hc, hd⟩, hRest⟩⟩
  have hBoth (p : List Series → Prop) (a b : List Series) :
      (∀ sources ∈ [a, b], p sources) ↔ p a ∧ p b := by
    simp
  rw [hParts, hLogic, idle_iff, hBoth, hBoth]

/-- A bank that has charged with 100 W for an hour. -/
def hourDb : Db ℚ :=
  { Db.empty with
    samples1hour :=
      { table := Table.empty.insert ⟨3600, "bank", "power_w"⟩ ⟨100, 100, 100, 60⟩
        aligned := by
          rintro k ⟨r, hRow⟩
          obtain ⟨rfl, rfl⟩ := Prod.mk.inj (List.mem_singleton.mp hRow)
          exact dvd_refl 3600 } }

/-- Over a week and a second, the hour counts as five minutes. -/
theorem energy_hour_as_bucket : ¬ WeighsByTime hourDb 0 604801 (some 300) := by
  have hTotal : (computeEnergy hourDb 0 604801 (some 300)).bankChargedWh ≠
      wattHours charge [bankSeries hourDb 0 604801 (some 300)]
        (spanSeconds 0 604801 (bucketSeconds (some 300))) := by
    decide +kernel
  exact fun h => hTotal h.bankCharged

end WattPost.Energy
