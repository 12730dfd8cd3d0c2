import WattPost.Lib.LocalTime
import WattPost.Lib.SkyDirection

/-! The irradiance model of the Open-Meteo forecast: where the sun stands, at what
angle its light meets the panel, and what the array then gives. Angles and powers
are exact real numbers. -/
namespace WattPost.Forecast

open Real LocalTime SkyDirection

noncomputable section

/-- `math.radians`. -/
def radians (degrees : ℝ) : ℝ := degrees * π / 180

/-! ### The position of the sun -/

/-- `tm_yday`. -/
def dayOfYear (utc : WallTime) : ℕ := daysBeforeMonth utc.year utc.month + utc.day

def hourFrac (utc : WallTime) : ℝ := utc.hour + utc.minute / 60 + utc.second / 3600

/-- `gamma`: the angle of the year. -/
def yearAngle (utc : WallTime) : ℝ :=
  2 * π * ((dayOfYear utc : ℝ) - 1 + (hourFrac utc - 12) / 24) / 365

/-- `decl`. -/
def declination (gamma : ℝ) : ℝ :=
  0.006918 - 0.399912 * cos gamma + 0.070257 * sin gamma - 0.006758 * cos (2 * gamma) +
    0.000907 * sin (2 * gamma) - 0.002697 * cos (3 * gamma) + 0.00148 * sin (3 * gamma)

/-- `eqt`, in minutes. -/
def equationOfTime (gamma : ℝ) : ℝ :=
  229.18 * (0.000075 + 0.001868 * cos gamma - 0.032077 * sin gamma - 0.014615 * cos (2 * gamma) -
    0.040849 * sin (2 * gamma))

/-- `hour_angle`, from the true solar time in minutes. -/
def hourAngle (utc : WallTime) (lon : ℝ) : ℝ :=
  let tst := hourFrac utc * 60 + equationOfTime (yearAngle utc) + 4 * lon
  radians (tst / 4 - 180)

/-- `max(-1.0, min(1.0, x))`. -/
def clampUnit (x : ℝ) : ℝ := max (-1) (min 1 x)

/-- What `_solar_position` makes of latitude, declination and hour angle, with what
it adds to the divisor. -/
def sunAngles (guard lat decl hour : ℝ) : ℝ × ℝ :=
  let sinElev := clampUnit (sin lat * sin decl + cos lat * cos decl * cos hour)
  let elev := arcsin sinElev
  let cosAz := clampUnit ((sin decl - sin elev * sin lat) / (cos elev * cos lat + guard))
  let az := arccos cosAz
  (elev, if 0 < hour then -az else az)

/-- `_solar_position`, at the time the clock of UTC shows. -/
def solarPosition (utc : WallTime) (lat lon : ℝ) : ℝ × ℝ :=
  sunAngles 1e-12 (radians lat) (declination (yearAngle utc)) (hourAngle utc lon)

/-! ### The light on the panel -/

/-- `TILT_FLOOR`. -/
def tiltFloor : ℝ := 0.05

/-- `OpenMeteoForecastProvider`, as its constructor leaves it. -/
structure OpenMeteoForecastProvider where
  lat : ℝ
  lon : ℝ
  arrayW : ℝ
  tilt : ℝ
  azimuth : ℝ
  systemEfficiency : ℝ
  validPlace : (-90 ≤ lat ∧ lat ≤ 90) ∧ -180 ≤ lon ∧ lon ≤ 180
  validArray : 0 < arrayW
  validTilt : 0 ≤ tilt ∧ tilt ≤ π / 2
  validEfficiency : 0 ≤ systemEfficiency ∧ systemEfficiency ≤ 1

/-- What the constructor finds wrong, in the order of its checks. -/
inductive ConfigError where
  | latLonOutOfRange
  | arrayNotPositive
  | tiltOutOfRange
  | efficiencyOutOfRange
deriving DecidableEq

open Classical in
/-- `__init__`; the angles come in degrees and the array in kilowatts. -/
def OpenMeteoForecastProvider.init (lat lon arrayKw tiltDeg azimuthDeg systemEfficiency : ℝ) :
    Except ConfigError OpenMeteoForecastProvider :=
  if hPlace : (-90 ≤ lat ∧ lat ≤ 90) ∧ -180 ≤ lon ∧ lon ≤ 180 then
    if hArray : arrayKw ≤ 0 then .error .arrayNotPositive
    else if hTilt : 0 ≤ tiltDeg ∧ tiltDeg ≤ 90 then
      if hEff : 0 ≤ systemEfficiency ∧ systemEfficiency ≤ 1 then
        .ok
          { lat := lat
            lon := lon
            arrayW := arrayKw * 1000
            tilt := radians tiltDeg
            azimuth := radians azimuthDeg
            systemEfficiency := systemEfficiency
            validPlace := hPlace
            validArray := by linarith
            validTilt := by
              have hPi := pi_pos
              rw [radians]
              constructor <;> nlinarith [hTilt.1, hTilt.2]
            validEfficiency := hEff }
      else .error .efficiencyOutOfRange
    else .error .tiltOutOfRange
  else .error .latLonOutOfRange

/-- `cos_i`. -/
def cosIncidence (elev sunAz tilt azimuth : ℝ) : ℝ :=
  sin elev * cos tilt + cos elev * sin tilt * cos (sunAz - azimuth)

/-- `_irradiance_to_pv`. -/
def irradianceToPv (provider : OpenMeteoForecastProvider) (utc : WallTime) (ghiW : ℝ) : ℝ :=
  if ghiW ≤ 0 then 0
  else
    let position := solarPosition utc provider.lat provider.lon
    if position.1 ≤ 0 then 0
    else
      let cosI := cosIncidence position.1 position.2 provider.tilt provider.azimuth
      let tiltFactor := max cosI tiltFloor
      max (ghiW / 1000 * tiltFactor * provider.arrayW * provider.systemEfficiency) 0

/-- An hour's estimate is at most what the array makes of its light when it faces
the sun. -/
theorem irradianceToPv_bounds (provider : OpenMeteoForecastProvider) (utc : WallTime)
    {ghiW : ℝ} (hGhi : 0 ≤ ghiW) :
    0 ≤ irradianceToPv provider utc ghiW ∧
      irradianceToPv provider utc ghiW ≤
        ghiW / 1000 * provider.arrayW * provider.systemEfficiency := by
  have hArray := provider.validArray
  have hEff := provider.validEfficiency.1
  have hTop : 0 ≤ ghiW / 1000 * provider.arrayW * provider.systemEfficiency := by positivity
  simp only [irradianceToPv]
  generalize solarPosition utc provider.lat provider.lon = position
  split_ifs
  · exact ⟨le_rfl, hTop⟩
  · exact ⟨le_rfl, hTop⟩
  · have hCos : cosIncidence position.1 position.2 provider.tilt provider.azimuth ≤ 1 := by
      rw [cosIncidence, ← panelNormal_inner_ofAngles]
      exact inner_le_one (panelNormal_isUnit _ _) (ofAngles_isUnit _ _)
    have hFactor : max (cosIncidence position.1 position.2 provider.tilt provider.azimuth)
        tiltFloor ≤ 1 := max_le hCos (by norm_num [tiltFloor])
    refine ⟨le_max_right _ _, max_le ?_ hTop⟩
    calc
      _ ≤ ghiW / 1000 * 1 * provider.arrayW * provider.systemEfficiency := by gcongr
      _ = _ := by ring

/-! ### The direction the angles stand for -/

/-- The west component that goes with the sign the code gives the azimuth: east of
the meridian until noon and west of it afterwards, with both sides exchanged. -/
def mirroredWest (decl hour : ℝ) : ℝ :=
  if 0 < hour then -|cos decl * sin hour| else |cos decl * sin hour|

theorem clampUnit_of_mem {x : ℝ} (h : -1 ≤ x ∧ x ≤ 1) : clampUnit x = x := by
  rw [clampUnit, min_eq_right h.2, max_eq_right h.1]

theorem elev_eq (guard lat decl hour : ℝ) :
    (sunAngles guard lat decl hour).1 = arcsin (sun lat decl hour).up := by
  change arcsin (clampUnit (sun lat decl hour).up) = _
  rw [clampUnit_of_mem (abs_le.mp (abs_up_le_one (sun_isUnit lat decl hour)))]

/-- The elevation is right. -/
theorem sin_elev (guard lat decl hour : ℝ) :
    sin (sunAngles guard lat decl hour).1 = (sun lat decl hour).up := by
  have hUp := abs_le.mp (abs_up_le_one (sun_isUnit lat decl hour))
  rw [elev_eq, sin_arcsin hUp.1 hUp.2]

theorem cos_elev (guard lat decl hour : ℝ) :
    cos (sunAngles guard lat decl hour).1 = √(1 - (sun lat decl hour).up ^ 2) := by
  rw [elev_eq, cos_arcsin]

/-- The azimuth comes from its cosine against the north: the south component has
changed sign. -/
theorem cosAz_eq {lat decl hour : ℝ} (hLat : 0 < cos lat)
    (hSun : (sun lat decl hour).up ^ 2 < 1) :
    (sin decl - sin (sunAngles 0 lat decl hour).1 * sin lat) /
        (cos (sunAngles 0 lat decl hour).1 * cos lat + 0) =
      -(sun lat decl hour).south / √(1 - (sun lat decl hour).up ^ 2) := by
  have hCos : 0 < √(1 - (sun lat decl hour).up ^ 2) := sqrt_pos.mpr (by linarith)
  have hSouth : sin decl - (sun lat decl hour).up * sin lat =
      cos lat * -(sun lat decl hour).south := by
    simp only [sun]
    linear_combination -sin decl * sin_sq_add_cos_sq lat
  rw [sin_elev, cos_elev, hSouth, add_zero, mul_comm _ (cos lat), mul_div_mul_left _ _ hLat.ne']

/-- The two angles stand for the sun's direction with its horizontal components
exchanged: north for south, and the side that `mirroredWest` gives. -/
theorem ofAngles_sunAngles {lat decl hour : ℝ} (hLat : 0 < cos lat)
    (hSun : (sun lat decl hour).up ^ 2 < 1) :
    ofAngles (sunAngles 0 lat decl hour).1 (sunAngles 0 lat decl hour).2 =
      ⟨(sun lat decl hour).up, -(sun lat decl hour).south, mirroredWest decl hour⟩ := by
  let s := sun lat decl hour
  let c := √(1 - s.up ^ 2)
  have hc : 0 < c := sqrt_pos.mpr (by linarith)
  have hcSq : c ^ 2 = 1 - s.up ^ 2 := sq_sqrt (by linarith)
  have hPlane : s.south ^ 2 + s.west ^ 2 = c ^ 2 := by
    rw [hcSq]
    exact horizontal_sq (sun_isUnit lat decl hour)
  have hUnit : -1 ≤ -s.south / c ∧ -s.south / c ≤ 1 := by
    apply abs_le.mp
    apply (sq_le_one_iff_abs_le_one _).mp
    rw [div_pow, neg_sq, div_le_one (by positivity)]
    nlinarith [sq_nonneg s.west]
  have hAz : (sunAngles 0 lat decl hour).2 =
      if 0 < hour then -arccos (-s.south / c) else arccos (-s.south / c) := by
    have hClamp := clampUnit_of_mem hUnit
    rw [← cosAz_eq hLat hSun] at hClamp
    rw [← cosAz_eq hLat hSun, ← hClamp]
    rfl
  have hSide : c * sin (arccos (-s.south / c)) = |s.west| := by
    rw [sin_arccos, ← sqrt_sq hc.le, ← sqrt_mul (sq_nonneg c), sqrt_sq hc.le, ← sqrt_sq_eq_abs]
    congr 1
    rw [div_pow, neg_sq, mul_sub, mul_div_cancel₀ _ (by positivity)]
    linarith
  have hBack : c * cos (arccos (-s.south / c)) = -s.south := by
    rw [cos_arccos hUnit.1 hUnit.2, mul_div_cancel₀ _ hc.ne']
  apply SkyDirection.ext_components
  · exact sin_elev 0 lat decl hour
  · change cos _ * cos _ = _
    rw [cos_elev, hAz]
    split_ifs
    · rw [cos_neg]
      exact hBack
    · exact hBack
  · change cos _ * sin _ = _
    rw [cos_elev, hAz, mirroredWest]
    split_ifs
    · rw [sin_neg, mul_neg]
      exact congrArg Neg.neg hSide
    · exact hSide

theorem mirroredWest_eq {decl hour : ℝ} (hDecl : 0 ≤ cos decl) (hHour : -π ≤ hour ∧ hour ≤ π) :
    mirroredWest decl hour = -(cos decl * sin hour) := by
  rw [mirroredWest]
  split_ifs with hNoon
  · rw [abs_of_nonneg (mul_nonneg hDecl (sin_nonneg_of_nonneg_of_le_pi hNoon.le hHour.2))]
  · have hSin : sin hour ≤ 0 := sin_nonpos_of_nonpos_of_neg_pi_le (not_lt.mp hNoon) hHour.1
    rw [abs_of_nonpos (mul_nonpos_of_nonneg_of_nonpos hDecl hSin)]

/-- Over a day around solar noon the code has the sun on the opposite side of the
sky. -/
theorem ofAngles_sunAngles_day {lat decl hour : ℝ} (hLat : 0 < cos lat)
    (hSun : (sun lat decl hour).up ^ 2 < 1) (hDecl : 0 ≤ cos decl)
    (hHour : -π ≤ hour ∧ hour ≤ π) :
    ofAngles (sunAngles 0 lat decl hour).1 (sunAngles 0 lat decl hour).2 =
      ⟨(sun lat decl hour).up, -(sun lat decl hour).south, -(sun lat decl hour).west⟩ := by
  rw [ofAngles_sunAngles hLat hSun, mirroredWest_eq hDecl hHour]
  rfl

/-- The cosine of the angle of incidence is right exactly where exchanging the two
sides of the horizon does not show on the panel. -/
theorem cosIncidence_eq_inner_iff {lat decl hour : ℝ} (tilt azimuth : ℝ)
    (hLat : -(π / 2) < lat ∧ lat < π / 2)
    (hSun : 0 < (sun lat decl hour).up ∧ (sun lat decl hour).up < 1) :
    cosIncidence (sunAngles 0 lat decl hour).1 (sunAngles 0 lat decl hour).2 tilt azimuth =
        (panelNormal tilt azimuth).inner (sun lat decl hour) ↔
      sin tilt * (2 * (sun lat decl hour).south * cos azimuth +
        ((sun lat decl hour).west - mirroredWest decl hour) * sin azimuth) = 0 := by
  have hBelow : (sun lat decl hour).up ^ 2 < 1 := by nlinarith
  rw [cosIncidence, ← panelNormal_inner_ofAngles,
    ofAngles_sunAngles (cos_pos_of_mem_Ioo hLat) hBelow]
  simp only [SkyDirection.inner, panelNormal]
  constructor
  · intro hEq
    linear_combination -hEq
  · intro hZero
    linear_combination -hZero

/-- A panel that lies flat sees the equinox noon at sixty degrees north aright. -/
theorem cosIncidence_flat_equinox :
    cosIncidence (sunAngles 0 (π / 3) 0 0).1 (sunAngles 0 (π / 3) 0 0).2 0 0 =
      (panelNormal 0 0).inner (sun (π / 3) 0 0) :=
  (cosIncidence_eq_inner_iff 0 0 ⟨by linarith [pi_pos], by linarith [pi_pos]⟩
    ⟨by norm_num [sun], by norm_num [sun]⟩).mpr (by simp)

/-- A wall that faces south at sixty degrees north: at noon of the equinox the sun
stands before it, and the code has it behind. -/
theorem cosIncidence_south_wall :
    (0 < (sun (π / 3) 0 0).up ∧ (sun (π / 3) 0 0).up < 1) ∧
      (panelNormal (π / 2) 0).inner (sun (π / 3) 0 0) = √3 / 2 ∧
      cosIncidence (sunAngles 0 (π / 3) 0 0).1 (sunAngles 0 (π / 3) 0 0).2 (π / 2) 0 =
        -(√3 / 2) ∧
      cosIncidence (sunAngles 0 (π / 3) 0 0).1 (sunAngles 0 (π / 3) 0 0).2 (π / 2) 0 ≠
        (panelNormal (π / 2) 0).inner (sun (π / 3) 0 0) := by
  have hLat : 0 < cos (π / 3) := by norm_num
  have hBelow : (sun (π / 3) 0 0).up ^ 2 < 1 := by norm_num [sun]
  have hTrue : (panelNormal (π / 2) 0).inner (sun (π / 3) 0 0) = √3 / 2 := by
    norm_num [SkyDirection.inner, panelNormal, sun]
  have hCode : cosIncidence (sunAngles 0 (π / 3) 0 0).1 (sunAngles 0 (π / 3) 0 0).2 (π / 2) 0 =
      -(√3 / 2) := by
    rw [cosIncidence, ← panelNormal_inner_ofAngles, ofAngles_sunAngles hLat hBelow]
    norm_num [SkyDirection.inner, panelNormal, sun, mirroredWest]
  refine ⟨⟨by norm_num [sun], by norm_num [sun]⟩, hTrue, hCode, ?_⟩
  rw [hCode, hTrue]
  have hRoot : 0 < √3 := sqrt_pos.mpr (by norm_num)
  linarith

end

end WattPost.Forecast
