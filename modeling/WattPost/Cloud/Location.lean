import WattPost.Lib.PyText
import WattPost.Lib.Snap

/-! The position of the appliance, and what of it goes to the cloud. Arithmetic is exact;
`cosDegrees` is `math.cos` of `math.radians`. -/
namespace WattPost.Cloud

open Snap

/-! ### The sources -/

/-- `latest_fix` of the GPS service. -/
structure GpsFix where
  lat : Option ℚ
  lon : Option ℚ

/-- `get_status`. -/
structure GpsStatus where
  latestFix : Option GpsFix
  latestFixAgeS : Option Int

structure ForecastCfg where
  lat : Option ℚ
  lon : Option ℚ

structure LocationCfg where
  shareWithCloud : String := "off"
  approxGridKm : ℚ := 10

/-- What the resolution reads: the GPS service, whose status is `none` where the call
raises, and two blocks of the configuration. -/
structure Sources where
  gps : Option (Option GpsStatus)
  forecast : Option ForecastCfg
  location : Option LocationCfg

structure Location where
  lat : ℚ
  lon : ℚ
  source : String
  fixAgeS : Option Int

/-- The payload of the heartbeat. -/
structure CloudLocation where
  lat : ℚ
  lon : ℚ
  source : String
  precision : String
  fixAgeS : Option Int

/-- `_gps_fix_latlon`. -/
def gpsFixLatlon (s : Sources) : Option (ℚ × ℚ × Option Int) := do
  let gps ← s.gps
  let status ← gps
  let fix ← status.latestFix
  let lat ← fix.lat
  let lon ← fix.lon
  some (lat, lon, status.latestFixAgeS)

/-- `_static_latlon`. -/
def staticLatlon (s : Sources) : Option (ℚ × ℚ) := do
  let fc ← s.forecast
  let lat ← fc.lat
  let lon ← fc.lon
  some (lat, lon)

/-- `current_location`. -/
def currentLocation (s : Sources) : Option Location :=
  match gpsFixLatlon s with
  | some (lat, lon, age) => some ⟨lat, lon, "gps", age⟩
  | none => (staticLatlon s).map fun p => ⟨p.1, p.2, "forecast", none⟩

/-! ### The gate -/

def latStep (gridKm : ℚ) : ℚ := gridKm / 111

def lonStep (cosDegrees : ℚ → ℚ) (gridKm lat : ℚ) : ℚ := gridKm / max 1 (111 * cosDegrees lat)

/-- `_snap_to_grid`. -/
def snapToGrid (cosDegrees : ℚ → ℚ) (lat lon gridKm : ℚ) : ℚ × ℚ :=
  if gridKm ≤ 0 then (lat, lon)
  else
    (PyDict.round (snap (latStep gridKm) lat) 4,
      PyDict.round (snap (lonStep cosDegrees gridKm lat) lon) 4)

/-- The share mode in force. -/
def shareMode (loc : Option LocationCfg) : String :=
  let shared := (loc.map LocationCfg.shareWithCloud).getD "off"
  PyText.lower (if shared = "" then "off" else shared)

/-- The grid in force: a zero is taken for a missing value. -/
def gridKm (loc : Option LocationCfg) : ℚ :=
  let grid := (loc.map LocationCfg.approxGridKm).getD 10
  if grid = 0 then 10 else grid

/-- `location_for_cloud`. -/
def locationForCloud (cosDegrees : ℚ → ℚ) (s : Sources) : Option CloudLocation :=
  let mode := shareMode s.location
  if mode ≠ "approx" ∧ mode ≠ "precise" then none
  else
    (currentLocation s).map fun loc =>
      let position :=
        if mode = "approx" then snapToGrid cosDegrees loc.lat loc.lon (gridKm s.location)
        else (loc.lat, loc.lon)
      { lat := position.1
        lon := position.2
        source := loc.source
        precision := if mode = "precise" then "precise" else "approx"
        fixAgeS := loc.fixAgeS }

/-! ### The cells -/

/-- The latitude in the middle of the row of a latitude. -/
def rowLat (grid lat : ℚ) : ℚ := snap (latStep grid) lat

/-- Two positions lie in one row, and in one column of that row. -/
def SameCell (cosDegrees : ℚ → ℚ) (grid : ℚ) (p q : Location) : Prop :=
  index (latStep grid) p.lat = index (latStep grid) q.lat ∧
    index (lonStep cosDegrees grid (rowLat grid p.lat)) p.lon =
      index (lonStep cosDegrees grid (rowLat grid p.lat)) q.lon

/-- Under this configuration, what is sent of a position is the same for all positions of
its cell. -/
def RevealsOnlyCell (cosDegrees : ℚ → ℚ) (loc : LocationCfg) : Prop :=
  ∀ a b : Sources, a.location = some loc → b.location = some loc →
    ∀ p q, currentLocation a = some p → currentLocation b = some q →
      SameCell cosDegrees (gridKm (some loc)) p q →
        (locationForCloud cosDegrees a).map (fun sent => (sent.lat, sent.lon)) =
          (locationForCloud cosDegrees b).map fun sent => (sent.lat, sent.lon)

/-- All latitudes of a row have the longitude step of the row. -/
def RowsShareStep (cosDegrees : ℚ → ℚ) (grid : ℚ) : Prop :=
  ∀ lat, lonStep cosDegrees grid lat = lonStep cosDegrees grid (rowLat grid lat)

/-! ### What is sent -/

section Sent

variable {cosDegrees : ℚ → ℚ} {loc : LocationCfg} {grid : ℚ}

/-- In approximate mode the snapped position is sent. -/
theorem locationForCloud_approx (hMode : shareMode (some loc) = "approx") {s : Sources}
    (hLoc : s.location = some loc) {p : Location} (hCurrent : currentLocation s = some p) :
    (locationForCloud cosDegrees s).map (fun sent => (sent.lat, sent.lon)) =
      some (snapToGrid cosDegrees p.lat p.lon (gridKm (some loc))) := by
  unfold locationForCloud
  rw [hLoc, hMode, hCurrent]
  simp

/-- A fix of the GPS service at this position. -/
def fixAt (loc : LocationCfg) (lat lon : ℚ) : Sources :=
  ⟨some (some ⟨some ⟨some lat, some lon⟩, some 0⟩), none, some loc⟩

theorem RevealsOnlyCell.snapToGrid (h : RevealsOnlyCell cosDegrees loc)
    (hMode : shareMode (some loc) = "approx") {lat lon lat' lon' : ℚ}
    (hCell : SameCell cosDegrees (gridKm (some loc)) ⟨lat, lon, "gps", some 0⟩
      ⟨lat', lon', "gps", some 0⟩) :
    snapToGrid cosDegrees lat lon (gridKm (some loc)) =
      snapToGrid cosDegrees lat' lon' (gridKm (some loc)) := by
  have hSent := h (fixAt loc lat lon) (fixAt loc lat' lon') rfl rfl _ _ rfl rfl hCell
  rw [locationForCloud_approx hMode rfl rfl, locationForCloud_approx hMode rfl rfl] at hSent
  exact Option.some.inj hSent

theorem latStep_pos (hGrid : 0 < grid) : 0 < latStep grid := div_pos hGrid (by norm_num)

theorem lonStep_pos (hGrid : 0 < grid) (lat : ℚ) : 0 < lonStep cosDegrees grid lat :=
  div_pos hGrid (lt_max_of_lt_left one_pos)

/-- The middle of a row lies in the row. -/
theorem rowLat_rowLat (hGrid : 0 < grid) (lat : ℚ) :
    rowLat grid (rowLat grid lat) = rowLat grid lat := by
  have hStep := (latStep_pos hGrid).ne'
  rw [rowLat, snap, rowLat, index_snap hStep, snap]

/-- Where the rows share their step, the cell alone decides what is sent. -/
theorem snapToGrid_of_sameCell (hGrid : 0 < grid) (hRows : RowsShareStep cosDegrees grid)
    {p q : Location} (hCell : SameCell cosDegrees grid p q) :
    Cloud.snapToGrid cosDegrees p.lat p.lon grid =
      Cloud.snapToGrid cosDegrees q.lat q.lon grid := by
  obtain ⟨hRow, hColumn⟩ := hCell
  have hLat : rowLat grid p.lat = rowLat grid q.lat := by rw [rowLat, rowLat, snap, snap, hRow]
  have hLon : snap (lonStep cosDegrees grid p.lat) p.lon =
      snap (lonStep cosDegrees grid q.lat) q.lon := by
    rw [hRows p.lat, hRows q.lat, ← hLat, snap, snap, hColumn]
  unfold Cloud.snapToGrid
  rw [if_neg hGrid.not_ge, if_neg hGrid.not_ge, hLon]
  rw [rowLat, rowLat] at hLat
  rw [hLat]

/-- Under a negative grid the position itself is sent. -/
theorem not_revealsOnlyCell_of_neg (hMode : shareMode (some loc) = "approx")
    (hNeg : gridKm (some loc) < 0) : ¬ RevealsOnlyCell cosDegrees loc := by
  intro h
  have hStep : latStep (gridKm (some loc)) < 0 := div_neg_of_neg_of_pos hNeg (by norm_num)
  have hQuarter : index (latStep (gridKm (some loc))) (latStep (gridKm (some loc)) / 4) = 0 := by
    rw [index, div_right_comm, div_self hStep.ne]
    exact roundHalfEven_eq_zero (by norm_num) (by norm_num)
  have hCell : SameCell cosDegrees (gridKm (some loc)) ⟨0, 0, "gps", some 0⟩
      ⟨latStep (gridKm (some loc)) / 4, 0, "gps", some 0⟩ :=
    ⟨(index_zero _).trans hQuarter.symm, rfl⟩
  have hSame := h.snapToGrid hMode hCell
  rw [Cloud.snapToGrid, Cloud.snapToGrid, if_pos hNeg.le, if_pos hNeg.le] at hSame
  have hZero : 0 = latStep (gridKm (some loc)) / 4 := congrArg Prod.fst hSame
  linarith

/-- A latitude with another longitude step than its row has shows in what is sent, if the
decimals can show a step at all. -/
theorem lonStep_eq_rowLat (hMode : shareMode (some loc) = "approx")
    (hGrid : 0 < gridKm (some loc)) (h : RevealsOnlyCell cosDegrees loc)
    (hVisible : ∀ lat, 1 / 20000 < lonStep cosDegrees (gridKm (some loc)) lat) (lat : ℚ) :
    lonStep cosDegrees (gridKm (some loc)) lat =
      lonStep cosDegrees (gridKm (some loc)) (rowLat (gridKm (some loc)) lat) := by
  let row := rowLat (gridKm (some loc)) lat
  have hCell : ∀ lon, SameCell cosDegrees (gridKm (some loc)) ⟨lat, lon, "gps", some 0⟩
      ⟨row, lon, "gps", some 0⟩ := fun lon =>
    ⟨(index_snap (latStep_pos hGrid).ne' lat).symm, rfl⟩
  have hSent : ∀ lon, PyDict.round (snap (lonStep cosDegrees (gridKm (some loc)) lat) lon) 4 =
      PyDict.round (snap (lonStep cosDegrees (gridKm (some loc)) row) lon) 4 := by
    intro lon
    have hSame := h.snapToGrid hMode (hCell lon)
    rw [Cloud.snapToGrid, Cloud.snapToGrid, if_neg hGrid.not_ge, if_neg hGrid.not_ge] at hSame
    exact congrArg Prod.snd hSame
  have hShown : ∀ l, PyDict.round (lonStep cosDegrees (gridKm (some loc)) l) 4 ≠ 0 := by
    intro l
    have := hVisible l
    exact (round_pos (by linarith)).ne'
  rcases lt_trichotomy (lonStep cosDegrees (gridKm (some loc)) lat)
    (lonStep cosDegrees (gridKm (some loc)) row) with hLt | hEq | hGt
  · obtain ⟨lon, hSmall, hLarge⟩ := exists_snap_ne (lonStep_pos hGrid lat) hLt
    have hLon := hSent lon
    rw [hSmall, hLarge, round_zero] at hLon
    exact absurd hLon (hShown lat)
  · exact hEq
  · obtain ⟨lon, hSmall, hLarge⟩ := exists_snap_ne (lonStep_pos hGrid row) hGt
    have hLon := hSent lon
    rw [hSmall, hLarge, round_zero] at hLon
    exact absurd hLon.symm (hShown row)

end Sent

theorem gridKm_ne_zero (loc : LocationCfg) : gridKm (some loc) ≠ 0 := by
  unfold gridKm
  dsimp only
  split
  · norm_num
  · assumption

/-- Approximate mode reveals only the cell where the grid is positive and every row has one
longitude step; and nowhere else, as long as the fourth decimal shows the steps. -/
theorem reveals_only_cell_iff (cosDegrees : ℚ → ℚ) (loc : LocationCfg)
    (hMode : shareMode (some loc) = "approx") :
    (0 < gridKm (some loc) ∧ RowsShareStep cosDegrees (gridKm (some loc)) →
      RevealsOnlyCell cosDegrees loc) ∧
    ((∀ lat, gridKm (some loc) < 0 ∨ 1 / 20000 < lonStep cosDegrees (gridKm (some loc)) lat) →
      RevealsOnlyCell cosDegrees loc →
      0 < gridKm (some loc) ∧ RowsShareStep cosDegrees (gridKm (some loc))) := by
  constructor
  · rintro ⟨hGrid, hRows⟩ a b ha hb p q hp hq hCell
    rw [locationForCloud_approx hMode ha hp, locationForCloud_approx hMode hb hq,
      snapToGrid_of_sameCell hGrid hRows hCell]
  · intro hVisible h
    rcases lt_or_gt_of_ne (gridKm_ne_zero loc) with hNeg | hGrid
    · exact absurd h (not_revealsOnlyCell_of_neg hMode hNeg)
    · refine ⟨hGrid, lonStep_eq_rowLat hMode hGrid h fun lat => ?_⟩
      exact (hVisible lat).resolve_left hGrid.not_gt

/-- A cosine that is taken at the nearest whole degree, and roughly. -/
def wholeDegrees (lat : ℚ) : ℚ := if 60 ≤ |index 1 lat| then 1 / 2 else 1

/-- On a grid of 111 km each row has a whole degree, and with it a step of its own. -/
theorem reveals_only_cell_flat :
    RevealsOnlyCell wholeDegrees { shareWithCloud := "approx", approxGridKm := 111 } := by
  refine (reveals_only_cell_iff wholeDegrees { shareWithCloud := "approx", approxGridKm := 111 }
    (by decide)).1 ⟨by decide +kernel, fun lat => ?_⟩
  have hGrid : gridKm (some { shareWithCloud := "approx", approxGridKm := 111 }) = 111 := by
    decide +kernel
  have hStep : latStep 111 = 1 := by
    rw [latStep]
    norm_num
  rw [hGrid, lonStep, lonStep, rowLat, hStep, wholeDegrees, wholeDegrees, index_snap one_ne_zero]

/-- A positive function that is 1 at the equator and a half at 60 degrees. -/
def bell (lat : ℚ) : ℚ := 1 / (1 + (lat / 60) ^ 2)

/-- Four hundredths of a degree to the north, in the same cell, another longitude is sent. -/
theorem longitude_reveals_latitude :
    ¬ ∀ (cosDegrees : ℚ → ℚ) (loc : LocationCfg), (∀ lat, 0 < cosDegrees lat) →
      shareMode (some loc) = "approx" → RevealsOnlyCell cosDegrees loc := by
  intro h
  have hMode : shareMode (some { shareWithCloud := "approx", approxGridKm := 10 }) = "approx" := by
    decide
  have hCell : SameCell bell (gridKm (some { shareWithCloud := "approx", approxGridKm := 10 }))
      ⟨60, 100, "gps", some 0⟩ ⟨60 + 1 / 25, 100, "gps", some 0⟩ := by
    refine ⟨?_, rfl⟩
    decide +kernel
  have hSame := (h bell { shareWithCloud := "approx", approxGridKm := 10 }
    (fun lat => by unfold bell; positivity) hMode).snapToGrid hMode hCell
  revert hSame
  decide +kernel

end WattPost.Cloud
