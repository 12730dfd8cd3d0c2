import Mathlib.Algebra.BigOperators.Ring.List
import WattPost.Storage.TodayPv
import WattPost.Weather.Instants

/-! The energy of a forecast: the slices a provider gives, by the ends of their
periods, and the two consumers that add them up, the accuracy of a past day and the
heartbeat's outlook on tomorrow. Powers are exact rationals. -/
namespace WattPost.Forecast

open Keyed LocalTime PairScan WattPost.Storage

/-! ### The slices -/

/-- A point as its end in unix seconds and its power. -/
abbrev Slice := ℕ × ℚ

/-- `OpenMeteoForecastProvider.fetch`, from the hourly arrays and what
`_irradiance_to_pv` makes of an instant and its light, rounded to a tenth: the array
names the starts of the hours. -/
def openMeteoPoints (irradianceToPv : Int → ℚ → ℚ) (times : List String)
    (ghi : List (Option ℚ)) : List (Int × ℚ) :=
  times.zipIdx.filterMap fun (iso, i) => do
    let ts ← Weather.parseIso (some iso)
    let light ← ghi[i]?
    let ghiW := max 0 (light.getD 0)
    return (ts + 3600, irradianceToPv ts ghiW)

/-- The slice of width `d` lies inside the day. -/
def inside (d : ℕ) (dayStart dayEnd : Int) (slice : Slice) : Bool :=
  dayStart ≤ slice.1 - d && (slice.1 : Int) ≤ dayEnd

/-- The energy of the slices of width `d` inside a day, in watt-hours. -/
def dayEnergy (d : ℕ) (dayStart dayEnd : Int) (slices : List Slice) : ℚ :=
  ((slices.filter (inside d dayStart dayEnd)).map fun slice => slice.2 * ((d : ℚ) / 3600)).sum

/-- The local midnight a day starts with, as `mktime` gives it. -/
def midnight (zone : Zone) (day : Int) : Int := zone.mktime (day * 86400) false

/-! ### The accuracy of a past day -/

/-- `archive_forecast`. -/
def archiveForecast (history : Table (ℕ ×ₗ ℕ) (ForecastPoint ℚ)) (fetchedAt : ℕ)
    (points : List (ℕ × ForecastPoint ℚ)) : Table (ℕ ×ₗ ℕ) (ForecastPoint ℚ) :=
  history.insertAll (points.map fun p => (toLex (fetchedAt, p.1), p.2))

/-- `SELECT MAX(fetched_at) FROM forecast_history WHERE fetched_at < ?`. -/
def latestFetch (history : Table (ℕ ×ₗ ℕ) (ForecastPoint ℚ)) (dayMidTs : Int) : Option ℕ :=
  ((history.rows.map fun r => (ofLex r.1).1).filter fun fetchedAt : ℕ =>
    decide ((fetchedAt : Int) < dayMidTs)).max?

/-- The slices of one fetch, by their ends. -/
def fetchSlices (history : Table (ℕ ×ₗ ℕ) (ForecastPoint ℚ)) (fetchedAt : ℕ) : List Slice :=
  (history.rows.filter fun r => (ofLex r.1).1 = fetchedAt).map fun r => ((ofLex r.1).2, r.2.pvW)

/-- `(period_end - 900) >= ? AND (period_end - 900) < ?`. -/
def countedInDay (dayMidTs : Int) (slice : Slice) : Bool :=
  dayMidTs ≤ slice.1 - 900 && (slice.1 : Int) - 900 < dayMidTs + 86400

/-- Two samples that follow each other within the hour: their energy, and one. -/
def actualStep (a b : ℕ × ℚ) : ℚ × ℕ :=
  if a.1 + 1 ≤ b.1 ∧ b.1 ≤ a.1 + 3600 then (trapezoid a b, 1) else (0, 0)

/-- `SUM(avg_w * dt_h), COUNT(*)` for one controller. -/
def actualOf (samples : Table Key ℚ) (dayMidTs : Int) (label : String) : ℚ × ℕ :=
  pairSum actualStep (series samples "pv_power_w" dayMidTs (dayMidTs + 86400) label)

/-- The answer of `forecast_accuracy_for_day`, before the rounding to a tenth. -/
structure Accuracy where
  dayTs : Int
  predictedWh : ℚ
  actualWh : ℚ
  deltaWh : ℚ
  accuracyPct : Option ℚ
  forecastFetchedAt : ℕ
  actualSamples : ℕ
deriving DecidableEq

def Accuracy.rounded (a : Accuracy) : Accuracy :=
  { a with
    predictedWh := PyDict.round a.predictedWh 1
    actualWh := PyDict.round a.actualWh 1
    deltaWh := PyDict.round a.deltaWh 1
    accuracyPct := a.accuracyPct.map fun pct => PyDict.round pct 1 }

/-- `forecast_accuracy_for_day`. -/
def forecastAccuracyForDay (db : Db ℚ) (dayMidTs : Int) (controllerLabels : List String) :
    Option Accuracy := do
  let fetchedAt ← latestFetch db.forecastHistory dayMidTs
  let forecastPoints := (fetchSlices db.forecastHistory fetchedAt).filter (countedInDay dayMidTs)
  if forecastPoints.isEmpty then none
  else
    let predictedWh := (forecastPoints.map fun slice => slice.2 * 0.5).sum
    let actual := (controllerLabels.map (actualOf db.samples dayMidTs)).sum
    if actual.2 < 6 then none
    else
      some
        { dayTs := dayMidTs
          predictedWh := predictedWh
          actualWh := actual.1
          deltaWh := actual.1 - predictedWh
          accuracyPct := if 0 < predictedWh then some (actual.1 / predictedWh * 100) else none
          forecastFetchedAt := fetchedAt
          actualSamples := actual.2 }

/-! ### The outlook on tomorrow -/

/-- `tom <= ts < day_after`. -/
def countedTomorrow (tom : Int) (slice : Slice) : Bool :=
  tom ≤ slice.1 && (slice.1 : Int) < tom + 86400

/-- `now_ts <= ts < tom`. -/
def countedToday (now tom : Int) (slice : Slice) : Bool := now ≤ slice.1 && (slice.1 : Int) < tom

/-- `today_wh` or `tomorrow_wh`: the counted slices at half an hour each. -/
def halfHours (counted : Slice → Bool) (points : List Slice) : ℚ :=
  ((points.filter counted).map fun slice => slice.2 * 0.5).sum

/-- `extras[key] = int(wh)` when there is some. -/
def wholeWh (wh : ℚ) : Option Int := if 0 < wh then some ⌊wh⌋ else none

structure ForecastExtras where
  forecastTodayWh : Option Int
  forecastTomorrowWh : Option Int
deriving DecidableEq

/-- What the heartbeat tells of the cached points. -/
def forecastExtras (zone : Zone) (now : Int) (points : List Slice) : ForecastExtras :=
  let tom := midnight zone (zone.dayOf now + 1)
  { forecastTodayWh := wholeWh (halfHours (countedToday now tom) points)
    forecastTomorrowWh := wholeWh (halfHours (countedTomorrow tom) points) }

/-! ### What the consumers miss -/

/-- The power of the slices that pass a test. -/
def powerOf (p : Slice → Bool) (slices : List Slice) : ℚ :=
  ((slices.filter p).map Prod.snd).sum

/-- The slice is cut by the day's beginning, or ends after the day, and is counted all the
same: it ends between `shift` seconds into the day and `shift` seconds after 24 hours of it.
The shift is 900 for the accuracy and 0 for the outlook. -/
def strays (d shift : ℕ) (dayStart dayEnd : Int) (slice : Slice) : Bool :=
  (dayStart + shift ≤ slice.1 && (slice.1 : Int) < dayStart + 86400 + shift) &&
    ((slice.1 : Int) < dayStart + d || dayEnd < slice.1)

/-- The slice lies inside the day and ends too late to be counted. -/
def leftOut (d shift : ℕ) (dayStart dayEnd : Int) (slice : Slice) : Bool :=
  dayStart + 86400 + shift ≤ slice.1 && inside d dayStart dayEnd slice

/-- The power that has to stray in for the sum to be right: that of the slices left out and,
where a slice is longer than the half-hour it is taken for, what is lost inside. -/
def owed (d shift : ℕ) (dayStart dayEnd : Int) (slices : List Slice) : ℚ :=
  powerOf (leftOut d shift dayStart dayEnd) slices +
    ((d : ℚ) / 1800 - 1) * powerOf (inside d dayStart dayEnd) slices

theorem powerOf_cons (p : Slice → Bool) (slice : Slice) (rest : List Slice) :
    powerOf p (slice :: rest) = (if p slice then slice.2 else 0) + powerOf p rest := by
  rw [powerOf, List.filter_cons]
  split_ifs
  · rw [List.map_cons, List.sum_cons]
    rfl
  · rw [zero_add]
    rfl

theorem sum_scaled (p : Slice → Bool) (c : ℚ) (slices : List Slice) :
    ((slices.filter p).map fun slice => slice.2 * c).sum = powerOf p slices * c := by
  rw [powerOf, List.sum_map_mul_right]

/-- What is counted: what lies inside and is not left out, and what strays in. -/
theorem powerOf_counted {d shift : ℕ} (hShift : shift ≤ d) {dayStart : Int}
    {counted : Slice → Bool}
    (hCounted : ∀ s : Slice, counted s =
      (dayStart + shift ≤ s.1 && (s.1 : Int) < dayStart + 86400 + shift))
    (dayEnd : Int) (slices : List Slice) :
    powerOf counted slices + powerOf (leftOut d shift dayStart dayEnd) slices =
      powerOf (inside d dayStart dayEnd) slices +
        powerOf (strays d shift dayStart dayEnd) slices := by
  induction slices with
  | nil => rfl
  | cons slice rest ih =>
      have hSlice : (if counted slice then slice.2 else 0) +
          (if leftOut d shift dayStart dayEnd slice then slice.2 else 0) =
            (if inside d dayStart dayEnd slice then slice.2 else 0) +
              (if strays d shift dayStart dayEnd slice then slice.2 else 0) := by
        rw [hCounted]
        simp only [leftOut, inside, strays, Bool.and_eq_true, Bool.or_eq_true, decide_eq_true_eq]
        split_ifs <;> first | omega | simp
      simp only [powerOf_cons]
      linarith

/-- The half-hours that are counted are right up to what strays in against what is owed. -/
theorem halfHours_eq {d shift : ℕ} (hShift : shift ≤ d) {dayStart : Int}
    {counted : Slice → Bool}
    (hCounted : ∀ s : Slice, counted s =
      (dayStart + shift ≤ s.1 && (s.1 : Int) < dayStart + 86400 + shift))
    (dayEnd : Int) (slices : List Slice) :
    halfHours counted slices = dayEnergy d dayStart dayEnd slices +
      (powerOf (strays d shift dayStart dayEnd) slices -
        owed d shift dayStart dayEnd slices) / 2 := by
  have hPower := powerOf_counted hShift hCounted dayEnd slices
  rw [halfHours, dayEnergy, owed, sum_scaled, sum_scaled]
  linarith

theorem powerOf_nonneg {p : Slice → Bool} {slices : List Slice} (hPower : ∀ s ∈ slices, 0 ≤ s.2) :
    0 ≤ powerOf p slices := by
  refine List.sum_nonneg fun w hw => ?_
  obtain ⟨s, hs, rfl⟩ := List.mem_map.mp hw
  exact hPower s (List.mem_of_mem_filter hs)

theorem powerOf_eq_zero_iff {p : Slice → Bool} {slices : List Slice}
    (hPower : ∀ s ∈ slices, 0 ≤ s.2) :
    powerOf p slices = 0 ↔ ∀ s ∈ slices, p s = true → s.2 = 0 := by
  induction slices with
  | nil => simp [powerOf]
  | cons slice rest ih =>
      rw [List.forall_mem_cons] at hPower ⊢
      have hRest := powerOf_nonneg (p := p) hPower.2
      rw [powerOf_cons, ← ih hPower.2]
      split_ifs with hSlice
      · rw [add_eq_zero_iff_of_nonneg hPower.1 hRest]
        simp [hSlice]
      · simp [hSlice]

/-- On a day of at most 24 hours, half-hours without negative power give the accuracy its
right sum just when those that stray in have no power. -/
theorem strays_eq_owed_iff {shift : ℕ} (hShift : 0 < shift) {dayStart dayEnd : Int}
    (hDay : dayEnd ≤ dayStart + 86400) {slices : List Slice} (hPower : ∀ s ∈ slices, 0 ≤ s.2) :
    powerOf (strays 1800 shift dayStart dayEnd) slices =
        owed 1800 shift dayStart dayEnd slices ↔
      ∀ s ∈ slices, strays 1800 shift dayStart dayEnd s = true → s.2 = 0 := by
  have hNone : powerOf (leftOut 1800 shift dayStart dayEnd) slices = 0 := by
    refine (powerOf_eq_zero_iff hPower).mpr fun s _ hLeft => ?_
    simp only [leftOut, inside, Bool.and_eq_true, decide_eq_true_eq] at hLeft
    omega
  have hOwed : owed 1800 shift dayStart dayEnd slices = 0 := by
    rw [owed, hNone]
    norm_num
  rw [hOwed, powerOf_eq_zero_iff hPower]

theorem wholeWh_getD (wh : ℚ) : (wholeWh wh).getD 0 = ⌊max 0 wh⌋ := by
  rw [wholeWh]
  split_ifs with hPos
  · rw [max_eq_right hPos.le]
    rfl
  · rw [max_eq_left (not_lt.mp hPos)]
    simp

/-- The inversion of `forecast_accuracy_for_day`. -/
theorem forecastAccuracyForDay_predicted {db : Db ℚ} {dayMidTs : Int} {labels : List String}
    {answer : Accuracy} (h : forecastAccuracyForDay db dayMidTs labels = some answer) :
    latestFetch db.forecastHistory dayMidTs = some answer.forecastFetchedAt ∧
      answer.predictedWh = halfHours (countedInDay dayMidTs)
        (fetchSlices db.forecastHistory answer.forecastFetchedAt) := by
  obtain ⟨fetchedAt, hFetched, h⟩ := Option.bind_eq_some_iff.mp h
  dsimp only at h
  split_ifs at h
  · cases h
    exact ⟨hFetched, rfl⟩
  · cases h
    exact ⟨hFetched, rfl⟩

theorem countedInDay_eq (dayMidTs : Int) (slice : Slice) :
    countedInDay dayMidTs slice =
      (dayMidTs + (900 : ℕ) ≤ slice.1 && (slice.1 : Int) < dayMidTs + 86400 + (900 : ℕ)) := by
  rw [countedInDay, Bool.eq_iff_iff]
  simp only [Bool.and_eq_true, decide_eq_true_eq]
  omega

theorem countedTomorrow_eq (tom : Int) (slice : Slice) :
    countedTomorrow tom slice =
      (tom + (0 : ℕ) ≤ slice.1 && (slice.1 : Int) < tom + 86400 + (0 : ℕ)) := by
  rw [countedTomorrow, Nat.cast_zero, add_zero, add_zero]

/-- A gain that does not carry an energy past a whole number leaves it as it is; losses
stop at zero. -/
theorem floor_max_add_iff (energy gain : ℚ) :
    ⌊max 0 (energy + gain)⌋ = ⌊energy⌋ ↔
      0 ≤ energy ∧ gain < 1 - Int.fract energy ∧ (energy < 1 ∨ -Int.fract energy ≤ gain) := by
  have hParts := Int.floor_add_fract energy
  have hFract := Int.fract_nonneg energy
  have hFract' := Int.fract_lt_one energy
  rw [Int.floor_eq_iff]
  constructor
  · rintro ⟨hFrom, hUntil⟩
    rw [max_lt_iff] at hUntil
    have hFloor : (0 : ℚ) ≤ ⌊energy⌋ := by
      have hPos : -1 < ⌊energy⌋ := by
        have hCast : (-1 : ℚ) < ⌊energy⌋ := by linarith [hUntil.1]
        exact_mod_cast hCast
      exact_mod_cast Int.add_one_le_iff.mpr hPos
    refine ⟨by linarith, by linarith [hUntil.2], ?_⟩
    rcases le_max_iff.mp hFrom with hZero | hGain
    · exact .inl (by linarith)
    · exact .inr (by linarith)
  · rintro ⟨hEnergy, hGain, hLoss⟩
    have hFloor : (0 : ℚ) ≤ ⌊energy⌋ := by exact_mod_cast Int.floor_nonneg.mpr hEnergy
    refine ⟨?_, max_lt (by linarith) (by linarith)⟩
    rcases hLoss with hSmall | hLoss
    · have hZero : ⌊energy⌋ = 0 := Int.floor_eq_zero_iff.mpr ⟨hEnergy, hSmall⟩
      rw [hZero, Int.cast_zero]
      exact le_max_left _ _
    · exact le_max_of_le_right (by linarith)

/-- A kilowatt until noon of the second day, fetched on the first. -/
def noon : List (ℕ × ForecastPoint ℚ) := [(129600, ⟨1000, none, none⟩)]

/-- The archive with that forecast, and an hour of samples of the charger. -/
def noonDb : Db ℚ :=
  { Db.empty with
    forecastHistory := archiveForecast Table.empty 50000 noon
    samples := Table.empty.insertAll
      ((List.range 7).map fun i => (⟨120000 + 600 * i, "mppt", "pv_power_w"⟩, 900)) }

theorem noon_accuracy :
    (forecastAccuracyForDay noonDb (midnight (Zone.fixed 0) 1) ["mppt"]).map
      (fun a => (a.predictedWh, a.forecastFetchedAt)) = some (500, 50000) := by
  decide +kernel

end WattPost.Forecast
