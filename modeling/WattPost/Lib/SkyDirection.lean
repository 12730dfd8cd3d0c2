import Mathlib.Analysis.SpecialFunctions.Trigonometric.Inverse

/-! Directions in the sky above a place, by their components upwards, to the south
and to the west, and by elevation and azimuth, where the azimuth counts from the
south and is positive towards the west. -/

noncomputable section

open Real

structure SkyDirection where
  up : ℝ
  south : ℝ
  west : ℝ

namespace SkyDirection

@[ext] theorem ext_components {u v : SkyDirection} (hUp : u.up = v.up) (hSouth : u.south = v.south)
    (hWest : u.west = v.west) : u = v := by
  cases u
  cases v
  simp_all

def inner (u v : SkyDirection) : ℝ := u.up * v.up + u.south * v.south + u.west * v.west

def IsUnit (u : SkyDirection) : Prop := u.inner u = 1

/-- The direction at an elevation and an azimuth. -/
def ofAngles (elevation azimuth : ℝ) : SkyDirection where
  up := sin elevation
  south := cos elevation * cos azimuth
  west := cos elevation * sin azimuth

/-- The unit normal of a panel tilted from the horizontal towards an azimuth. -/
def panelNormal (tilt azimuth : ℝ) : SkyDirection where
  up := cos tilt
  south := sin tilt * cos azimuth
  west := sin tilt * sin azimuth

/-- The sun at a declination and an hour angle, seen from a latitude. -/
def sun (lat d h : ℝ) : SkyDirection where
  up := sin lat * sin d + cos lat * cos d * cos h
  south := sin lat * cos d * cos h - cos lat * sin d
  west := cos d * sin h

theorem ofAngles_isUnit (elevation azimuth : ℝ) : (ofAngles elevation azimuth).IsUnit := by
  have hElevation := sin_sq_add_cos_sq elevation
  have hAzimuth := sin_sq_add_cos_sq azimuth
  simp only [IsUnit, inner, ofAngles]
  linear_combination hElevation + cos elevation ^ 2 * hAzimuth

theorem panelNormal_isUnit (tilt azimuth : ℝ) : (panelNormal tilt azimuth).IsUnit := by
  have hTilt := sin_sq_add_cos_sq tilt
  have hAzimuth := sin_sq_add_cos_sq azimuth
  simp only [IsUnit, inner, panelNormal]
  linear_combination hTilt + sin tilt ^ 2 * hAzimuth

theorem sun_isUnit (lat d h : ℝ) : (sun lat d h).IsUnit := by
  have hLat := sin_sq_add_cos_sq lat
  have hD := sin_sq_add_cos_sq d
  have hH := sin_sq_add_cos_sq h
  simp only [IsUnit, inner, sun]
  linear_combination (sin d ^ 2 + cos d ^ 2 * cos h ^ 2) * hLat + hD + cos d ^ 2 * hH

/-- The angle of incidence on a tilted panel, in the textbook form. -/
theorem panelNormal_inner_ofAngles (tilt azimuth elevation sunAzimuth : ℝ) :
    (panelNormal tilt azimuth).inner (ofAngles elevation sunAzimuth) =
      sin elevation * cos tilt + cos elevation * sin tilt * cos (sunAzimuth - azimuth) := by
  simp only [inner, panelNormal, ofAngles, cos_sub]
  ring

/-- Two unit directions have an inner product of one at most. -/
theorem inner_le_one {u v : SkyDirection} (hu : u.IsUnit) (hv : v.IsUnit) : u.inner v ≤ 1 := by
  simp only [IsUnit, inner] at hu hv ⊢
  have hUp := sq_nonneg (u.up - v.up)
  have hSouth := sq_nonneg (u.south - v.south)
  have hWest := sq_nonneg (u.west - v.west)
  linarith

/-- What the elevation leaves of a unit direction lies in the horizontal plane. -/
theorem horizontal_sq {u : SkyDirection} (hu : u.IsUnit) :
    u.south ^ 2 + u.west ^ 2 = 1 - u.up ^ 2 := by
  simp only [IsUnit, inner] at hu
  linarith

theorem abs_up_le_one {u : SkyDirection} (hu : u.IsUnit) : |u.up| ≤ 1 := by
  have hPlane := horizontal_sq hu
  apply (sq_le_one_iff_abs_le_one _).mp
  nlinarith [sq_nonneg u.south, sq_nonneg u.west]

end SkyDirection

end
