import WattPost.Lib.LocalTime
import WattPost.Lib.PyNumber
import WattPost.Lib.Snap

/-! The decoder of the sentence in which a GPS receiver tells its position and the time. -/
namespace WattPost.Gps

open PyText LocalTime

section Decoder

/-- What the parsers of numbers and dates raise. -/
inductive PyError where
  | valueError
  | overflowError
deriving DecidableEq

/-- A parser that raises `ValueError` on a text that it cannot read. -/
def parsed {α : Type} (found : Option α) : Except PyError α := found.elim (.error .valueError) .ok

/-- `try: ... except ValueError: return None`. -/
def orNone {α : Type} : Except PyError α → Except PyError (Option α)
  | .ok found => .ok (some found)
  | .error .valueError => .ok none
  | .error .overflowError => .error .overflowError

/-- `s[start:stop]`. -/
def slice (s : String) (start stop : Nat) : String :=
  String.ofList ((s.toList.take stop).drop start)

/-- The two coordinates differ in how many digits the degrees have, and in the hemisphere that
counts as negative. Three characters spell no number that a double cannot hold. -/
def parseCoordinate (degreeDigits : Nat) (negative value hemisphere : String) :
    Except PyError (Option PyFloat) :=
  if value = "" ∨ value.length < degreeDigits + 2 then .ok none
  else orNone do
    let deg ← parsed (PyNumber.int (takeFirst value degreeDigits))
    let minutes ← parsed (PyNumber.float (dropFirst value degreeDigits))
    let result := (PyFloat.finite deg).add (minutes.div (.finite 60))
    return if hemisphere = negative then result.neg else result

/-- `_parse_lat`. -/
def parseLat (value hemisphere : String) : Except PyError (Option PyFloat) :=
  parseCoordinate 2 "S" value hemisphere

/-- `_parse_lon`. -/
def parseLon (value hemisphere : String) : Except PyError (Option PyFloat) :=
  parseCoordinate 3 "W" value hemisphere

/-- `int(x)` of a float. -/
def intOfFloat : PyFloat → Except PyError Int
  | .finite q => .ok (q.num.tdiv q.den)
  | .infinite _ => .error .overflowError
  | .nan => .error .valueError

/-- An `int` of C. -/
def isCInt (n : Int) : Bool := -2 ^ 31 ≤ n && n < 2 ^ 31

/-- `datetime(...)`, which first makes every field an `int` of C. -/
def datetime (year month day hour minute second : Int) : Except PyError WallTime :=
  let given := [year, month, day, hour, minute, second]
  if !given.all isCInt then .error .overflowError
  else if !given.all (0 ≤ ·) then .error .valueError
  else parsed (mkTime year.toNat month.toNat day.toNat hour.toNat minute.toNat second.toNat)

/-- `_parse_rmc_time`. -/
def parseRmcTime (timeStr dateStr : String) : Except PyError (Option Int) :=
  if timeStr = "" ∨ dateStr = "" ∨ timeStr.length < 6 ∨ dateStr.length ≠ 6 then .ok none
  else orNone do
    let hh ← parsed (PyNumber.int (slice timeStr 0 2))
    let mm ← parsed (PyNumber.int (slice timeStr 2 4))
    let seconds ← parsed (PyNumber.float (dropFirst timeStr 4))
    let ss ← intOfFloat seconds
    let dd ← parsed (PyNumber.int (slice dateStr 0 2))
    let mo ← parsed (PyNumber.int (slice dateStr 2 4))
    let yy ← parsed (PyNumber.int (slice dateStr 4 6))
    let dt ← datetime (2000 + yy) mo dd hh mm ss
    return dt.seconds

def rmcPrefixes : List String := ["$GPRMC", "$GLRMC", "$GARMC", "$GNRMC", "$BDRMC"]

/-- The line up to its last asterisk, behind which the checksum stands. -/
def cutChecksum (line : String) : String :=
  if line.toList.contains '*' then
    String.ofList ((line.toList.reverse.dropWhile (· != '*')).drop 1).reverse
  else line

/-- The fields of the sentence that are read. -/
structure Rmc where
  time : String
  status : String
  lat : String
  northSouth : String
  lon : String
  eastWest : String
  speed : String
  course : String
  date : String
deriving DecidableEq

/-- The sentence of a line, if it is one. -/
def rmcOf (line : String) : Option Rmc :=
  if line = "" then none
  else
    match split (cutChecksum (strip line)) ',' with
    | tag :: time :: status :: lat :: northSouth :: lon :: eastWest :: speed :: course :: date ::
        _ =>
        if tag ∈ rmcPrefixes then
          some ⟨time, status, lat, northSouth, lon, eastWest, speed, course, date⟩
        else none
    | _ => none

/-- A field that may be empty or unreadable. -/
def floatOrZero (s : String) : PyFloat :=
  if s = "" then .finite 0 else (PyNumber.float s).getD (.finite 0)

structure Fix where
  lat : PyFloat
  lon : PyFloat
  tsUtc : Option Int
  speedKnots : PyFloat
  courseDeg : PyFloat
deriving DecidableEq

/-- `parse_rmc`. -/
def parseRmc (line : String) : Except PyError (Option Fix) :=
  match rmcOf line with
  | none => .ok none
  | some rmc =>
      if rmc.status ≠ "A" then .ok none
      else do
        let lat ← parseLat rmc.lat rmc.northSouth
        let lon ← parseLon rmc.lon rmc.eastWest
        match lat, lon with
        | some lat, some lon =>
            let ts ← parseRmcTime rmc.time rmc.date
            return some
              { lat := lat.round 6
                lon := lon.round 6
                tsUtc := ts
                speedKnots := floatOrZero rmc.speed
                courseDeg := floatOrZero rmc.course }
        | _, _ => return none

end Decoder

section Grammar

/-- A coordinate as a receiver writes it: degrees of a fixed width, two digits of minutes and
their decimals, not beyond the limit. -/
structure Coordinate (width limit : Nat) where
  degreeDigits : List Char
  minuteDigits : List Char
  decimals : Option (List Char)
  negative : Bool
  validDigits : ∀ c ∈ degreeDigits ++ minuteDigits ++ decimals.getD [], c.isDigit = true
  degreeWidth : degreeDigits.length = width
  minuteWidth : minuteDigits.length = 2
  belowSixty : PyNumber.value minuteDigits < 60
  validLimit : (PyNumber.value degreeDigits : ℚ) +
    PyNumber.value (minuteDigits ++ decimals.getD []) / 10 ^ (decimals.getD []).length / 60 ≤ limit

def Coordinate.text {width limit : Nat} (c : Coordinate width limit) : String :=
  String.ofList (c.degreeDigits ++ (c.minuteDigits ++ PyNumber.pointAnd c.decimals))

def Coordinate.minutes {width limit : Nat} (c : Coordinate width limit) : ℚ :=
  PyNumber.value (c.minuteDigits ++ c.decimals.getD []) / 10 ^ (c.decimals.getD []).length

/-- The signed degrees. -/
def Coordinate.degrees {width limit : Nat} (c : Coordinate width limit) : ℚ :=
  let magnitude := PyNumber.value c.degreeDigits + c.minutes / 60
  if c.negative then -magnitude else magnitude

/-- The time of day as a receiver writes it. -/
def timeText (t : WallTime) (decimals : Option (List Char)) : String :=
  String.ofList (twoDigits t.hour ++ twoDigits t.minute ++
    (twoDigits t.second ++ PyNumber.pointAnd decimals))

/-- The date, with the last two digits of the year. -/
def dateText (t : WallTime) : String :=
  String.ofList (twoDigits t.day ++ twoDigits t.month ++ twoDigits (t.year - 2000))

end Grammar

section Contract

/-- A number between the limit and its negative. -/
def Within (limit : Nat) (x : PyFloat) : Prop := ∃ q, x = .finite q ∧ |q| ≤ limit

/-- The double of a number with six decimals, to which no other such number is preferred: none
is nearer to the degrees. Half way between two of them either is the rounded one. -/
def RoundsTo (degrees : ℚ) (x : PyFloat) : Prop :=
  ∃ n : Int, |degrees * 10 ^ 6 - n| ≤ 1 / 2 ∧ x = .ofRat (n / 10 ^ 6)

/-- What the users of a position rely on. -/
structure DecodesRightly (line : String) : Prop where
  returns : ∃ found, parseRmc line = .ok found
  inRange : ∀ fix, parseRmc line = .ok (some fix) → Within 90 fix.lat ∧ Within 180 fix.lon
  found : ∀ rmc, rmcOf line = some rmc → rmc.status = "A" →
    ∀ (lat : Coordinate 2 90) (lon : Coordinate 3 180), rmc.lat = lat.text → rmc.lon = lon.text →
      ∃ fix, parseRmc line = .ok (some fix)
  latitude : ∀ rmc fix, rmcOf line = some rmc → parseRmc line = .ok (some fix) →
    ∀ c : Coordinate 2 90, rmc.lat = c.text → rmc.northSouth = (if c.negative then "S" else "N") →
      RoundsTo c.degrees fix.lat
  longitude : ∀ rmc fix, rmcOf line = some rmc → parseRmc line = .ok (some fix) →
    ∀ c : Coordinate 3 180, rmc.lon = c.text → rmc.eastWest = (if c.negative then "W" else "E") →
      RoundsTo c.degrees fix.lon
  time : ∀ rmc fix, rmcOf line = some rmc → parseRmc line = .ok (some fix) →
    ∀ (t : WallTime) (decimals : Option (List Char)), 2000 ≤ t.year → t.year ≤ 2099 →
      (∀ c ∈ decimals.getD [], c.isDigit = true) → rmc.time = timeText t decimals →
      rmc.date = dateText t → fix.tsUtc = some t.seconds

/-- The degrees and minutes that Python reads in a field. -/
def Reads (width : Nat) (value : String) (deg : Int) (minutes : PyFloat) : Prop :=
  width + 2 ≤ value.length ∧ PyNumber.int (takeFirst value width) = some deg ∧
    PyNumber.float (dropFirst value width) = some minutes

/-- Not further beyond the limit than rounding takes away. -/
def InRange (limit : Nat) (deg : Int) (minutes : PyFloat) : Prop :=
  ∃ q, minutes = .finite q ∧ |deg + q / 60| ≤ limit + 1 / (2 * 10 ^ 6)

/-- The seconds are more than an `int` of C holds, and all that is read up to them can be read;
an infinity is met before the date is. -/
def TooManySeconds (time date : String) : Prop :=
  6 ≤ time.length ∧ date.length = 6 ∧ (PyNumber.int (slice time 0 2)).isSome ∧
    (PyNumber.int (slice time 2 4)).isSome ∧
    ((∃ s, PyNumber.float (dropFirst time 4) = some (.infinite s)) ∨
      ∃ q, PyNumber.float (dropFirst time 4) = some (.finite q) ∧
        isCInt (q.num.tdiv q.den) = false ∧ (PyNumber.int (slice date 0 2)).isSome ∧
        (PyNumber.int (slice date 2 4)).isSome ∧ (PyNumber.int (slice date 4 6)).isSome)

/-- The decimals of the seconds are not so many nines that `float` reads the next second. -/
def KeepsSecond (rmc : Rmc) : Prop :=
  ∀ (t : WallTime) (decimals : Option (List Char)), 2000 ≤ t.year → t.year ≤ 2099 →
    (∀ c ∈ decimals.getD [], c.isDigit = true) → rmc.time = timeText t decimals →
    rmc.date = dateText t →
      PyNumber.float (dropFirst rmc.time 4) ≠ some (.finite (t.second + 1))

/-- Where both coordinates can be read, they lie on the globe, and the seconds are neither too
many nor read as the next one. -/
def Harmless (line : String) : Prop :=
  ∀ rmc, rmcOf line = some rmc → rmc.status = "A" → ∀ latDeg latMinutes lonDeg lonMinutes,
    Reads 2 rmc.lat latDeg latMinutes → Reads 3 rmc.lon lonDeg lonMinutes →
      InRange 90 latDeg latMinutes ∧ InRange 180 lonDeg lonMinutes ∧
        ¬ TooManySeconds rmc.time rmc.date ∧ KeepsSecond rmc

/-- Degrees that lie half way between two numbers of six decimals, or further from there than
the last bits of the doubles reach. -/
def ClearOfHalves (degrees : ℚ) : Prop :=
  ∀ n : Int, degrees * 10 ^ 6 = n + 1 / 2 ∨ 1 / 10 ^ 6 ≤ |degrees * 10 ^ 6 - (n + 1 / 2)|

/-- What is read lies further from the edge of the globe than the last bits reach. The edge is
the half above the limit, which is rounded down to it. -/
def ClearOfEdge (width limit : Nat) (value : String) : Prop :=
  ∀ deg q, Reads width value deg (.finite q) →
    1 / 10 ^ 12 ≤ |(|deg + q / 60|) - (limit + 1 / (2 * 10 ^ 6))|

/-- No coordinate lies where the last bits of the doubles decide. -/
structure ClearOfTies (line : String) : Prop where
  lat : ∀ rmc, rmcOf line = some rmc →
    ClearOfEdge 2 90 rmc.lat ∧ ∀ c : Coordinate 2 90, rmc.lat = c.text → ClearOfHalves c.degrees
  lon : ∀ rmc, rmcOf line = some rmc →
    ClearOfEdge 3 180 rmc.lon ∧ ∀ c : Coordinate 3 180, rmc.lon = c.text → ClearOfHalves c.degrees

end Contract

section Coordinates

variable {width : Nat} {negative value hemisphere : String} {deg : Int} {minutes : PyFloat}
  {south : Bool}

/-- The degrees of a field on a hemisphere. -/
def position (deg : Int) (minutes : PyFloat) (south : Bool) : PyFloat :=
  let result := (PyFloat.finite deg).add (minutes.div (.finite 60))
  if south then result.neg else result

theorem parseCoordinate_of_reads (h : Reads width value deg minutes) :
    parseCoordinate width negative value hemisphere =
      .ok (some (position deg minutes (hemisphere = negative))) := by
  obtain ⟨hLength, hDeg, hMinutes⟩ := h
  have hFull : ¬ (value = "" ∨ value.length < width + 2) := by
    rintro (rfl | hShort)
    · simp at hLength
    · omega
  rw [parseCoordinate, if_neg hFull, hDeg, hMinutes]
  by_cases hHere : hemisphere = negative
  · simp only [hHere, position, decide_true, if_true]
    rfl
  · simp only [hHere, position, decide_false, if_false]
    rfl

theorem parseCoordinate_cases (width : Nat) (negative value hemisphere : String) :
    (∃ deg minutes, Reads width value deg minutes) ∨
      parseCoordinate width negative value hemisphere = .ok none := by
  by_cases hShort : value = "" ∨ value.length < width + 2
  · exact Or.inr (by rw [parseCoordinate, if_pos hShort])
  · have hLong : width + 2 ≤ value.length := not_lt.mp fun hLt => hShort (Or.inr hLt)
    rw [parseCoordinate, if_neg hShort]
    cases hDeg : PyNumber.int (takeFirst value width) with
    | none => exact Or.inr rfl
    | some deg =>
        cases hMinutes : PyNumber.float (dropFirst value width) with
        | none => exact Or.inr rfl
        | some minutes => exact Or.inl ⟨deg, minutes, hLong, hDeg, hMinutes⟩

/-- A few characters spell a small number. -/
theorem Reads.abs_deg_le (h : Reads width value deg minutes) (hWidth : width ≤ 3) :
    |(deg : ℚ)| ≤ 999 := by
  have hLength : (takeFirst value width).length ≤ 3 := by
    rw [takeFirst, ← String.length_toList, String.toList_ofList, List.length_take]
    omega
  have hLt := (PyNumber.int_natAbs_lt h.2.1).trans_le (Nat.pow_le_pow_right (by decide) hLength)
  have hAbs : |deg| ≤ 999 := by
    rw [Int.abs_eq_natAbs]
    omega
  exact_mod_cast hAbs

/-- The doubles of degrees and minutes, added. -/
def degreeSum (deg : Int) (q : ℚ) : ℚ := Binary64.nearest (deg + Binary64.nearest (q / 60))

/-- The two roundings move the sum by less than a millionth of the last decimal. -/
theorem abs_degreeSum_sub_le {q : ℚ} (hDeg : |(deg : ℚ)| ≤ 1000) (hSmall : |q / 60| ≤ 2000) :
    |degreeSum deg q - (deg + q / 60)| ≤ 5001 / 2 ^ 53 := by
  have hQuotient := Binary64.abs_nearest_sub_le (by norm_num) hSmall
  have hSum : |deg + Binary64.nearest (q / 60)| ≤ 3001 := by
    have hAdd := abs_add_le (deg + q / 60) (Binary64.nearest (q / 60) - q / 60)
    have hBoth := abs_add_le (deg : ℚ) (q / 60)
    rw [show deg + q / 60 + (Binary64.nearest (q / 60) - q / 60) =
      deg + Binary64.nearest (q / 60) by ring] at hAdd
    norm_num at hQuotient
    linarith
  have hOuter := Binary64.abs_nearest_sub_le (by norm_num) hSum
  have hAdd := abs_add_le (degreeSum deg q - (deg + Binary64.nearest (q / 60)))
    (Binary64.nearest (q / 60) - q / 60)
  rw [show degreeSum deg q - (deg + Binary64.nearest (q / 60)) +
    (Binary64.nearest (q / 60) - q / 60) = degreeSum deg q - (deg + q / 60) by ring] at hAdd
  have hOuter' : |degreeSum deg q - (deg + Binary64.nearest (q / 60))| ≤ 3001 / 2 ^ 53 := hOuter
  linarith

/-- Of degrees and minutes on the globe the position is their sum. -/
theorem position_finite {q : ℚ} (hDeg : |(deg : ℚ)| ≤ 1000) (hSmall : |q / 60| ≤ 2000)
    (south : Bool) :
    position deg (.finite q) south =
      .finite (if south then -degreeSum deg q else degreeSum deg q) := by
  have hQuotient := Binary64.abs_nearest_sub_le (by norm_num) hSmall
  have hSum : |(deg : ℚ) - -Binary64.nearest (q / 60)| ≤ 2 ^ 53 := by
    have hAdd := abs_add_le (deg + q / 60) (Binary64.nearest (q / 60) - q / 60)
    have hBoth := abs_add_le (deg : ℚ) (q / 60)
    rw [show deg + q / 60 + (Binary64.nearest (q / 60) - q / 60) =
      deg - -Binary64.nearest (q / 60) by ring] at hAdd
    norm_num at hQuotient
    have hFour : |(deg : ℚ) - -Binary64.nearest (q / 60)| ≤ 4000 := by linarith
    exact hFour.trans (by norm_num)
  have hResult : (PyFloat.finite deg).add ((PyFloat.finite q).div (.finite 60)) =
      .finite (degreeSum deg q) := by
    rw [PyFloat.div, PyFloat.ofRat_small (hSmall.trans (by norm_num)), PyFloat.add, PyFloat.neg,
      PyFloat.sub, PyFloat.ofRat_small hSum, sub_neg_eq_add]
    rfl
  rw [position, hResult]
  cases south <;> rfl

/-- What is far from the globe stays far from it. -/
theorem abs_ofRat_ge {x : ℚ} {z : ℚ} (h : PyFloat.ofRat x = .finite z) (hOne : 1 ≤ |x|) :
    |x| * (9 / 10) ≤ |z| := by
  rw [PyFloat.ofRat] at h
  split_ifs at h
  cases h
  have hError := Binary64.abs_nearest_sub_le hOne le_rfl
  have hSub := abs_sub_abs_le_abs_sub x (Binary64.nearest x)
  rw [abs_sub_comm] at hSub
  norm_num at hError
  linarith

/-- A number of six decimals is rounded to a double on its own side of the limit. -/
theorem within_ofRat_iff {limit : Nat} (hOne : 1 ≤ limit) (hLimit : limit ≤ 180) (n : Int) :
    Within limit (.ofRat (n / 10 ^ 6)) ↔ |(n : ℚ) / 10 ^ 6| ≤ (limit : ℚ) := by
  have hCast : (limit : ℚ) ≤ 180 := by exact_mod_cast hLimit
  constructor
  · rintro ⟨z, hz, hRange⟩
    by_contra hBeyond
    rw [not_le, abs_div, abs_of_pos (by positivity : (0 : ℚ) < 10 ^ 6),
      lt_div_iff₀ (by positivity)] at hBeyond
    have hNext : (limit * 10 ^ 6 : ℚ) + 1 ≤ |(n : ℚ)| := by exact_mod_cast hBeyond
    have hAbs : |(n : ℚ) / 10 ^ 6| = |(n : ℚ)| / 10 ^ 6 := by
      rw [abs_div, abs_of_pos (by positivity : (0 : ℚ) < 10 ^ 6)]
    rw [PyFloat.ofRat] at hz
    split_ifs at hz
    cases hz
    have hAbove : (1 : ℚ) ≤ limit := by exact_mod_cast hOne
    have hFar : 1 ≤ |(n : ℚ) / 10 ^ 6| := by
      rw [hAbs, le_div_iff₀ (by positivity)]
      linarith
    have hError := Binary64.abs_nearest_sub_le hFar le_rfl
    have hSub := abs_sub_abs_le_abs_sub ((n : ℚ) / 10 ^ 6) (Binary64.nearest (n / 10 ^ 6))
    rw [abs_sub_comm] at hSub
    rw [hAbs] at hError hSub
    norm_num at hError hNext hSub
    linarith
  · intro hRange
    have hSmall : |(n : ℚ) / 10 ^ 6| < 2 ^ 53 := by
      norm_num at hRange ⊢
      linarith
    rw [PyFloat.ofRat_small hSmall.le]
    obtain ⟨hLow, hHigh⟩ := abs_le.mp hRange
    refine ⟨_, rfl, abs_le.mpr ⟨?_, ?_⟩⟩
    · have hNearest := Binary64.intCast_le_nearest hSmall (n := -limit) (by push_cast; exact hLow)
      push_cast at hNearest
      exact hNearest
    · exact_mod_cast Binary64.nearest_le_intCast hSmall (n := limit) (by exact_mod_cast hHigh)

theorem within_round_finite_iff {limit : Nat} (hEven : limit * 10 ^ 6 % 2 = 0) (hOne : 1 ≤ limit)
    (hLimit : limit ≤ 180) (y : ℚ) :
    Within limit ((PyFloat.finite y).round 6) ↔ |y| ≤ limit + 1 / (2 * 10 ^ 6) :=
  (within_ofRat_iff hOne hLimit _).trans (Snap.abs_round_le_iff hEven)

theorem not_within_infinite {limit : Nat} {x : PyFloat} (h : ∀ y, x ≠ .finite y) :
    ¬ Within limit ((if south then x.neg else x).round 6) := by
  rintro ⟨q, hq, -⟩
  cases x with
  | finite y => exact h y rfl
  | infinite s => cases south <;> cases hq
  | nan => cases south <;> cases hq

/-- So many minutes lie beyond both limits, however they are rounded. -/
theorem not_within_far {limit : Nat} {q : ℚ} (hEven : limit * 10 ^ 6 % 2 = 0) (hOne : 1 ≤ limit)
    (hLimit : limit ≤ 180) (hDeg : |(deg : ℚ)| ≤ 999) (hLarge : 2000 < |q / 60|) :
    ¬ Within limit ((position deg (.finite q) south).round 6) := by
  have hCast : (limit : ℚ) ≤ 180 := by exact_mod_cast hLimit
  have hSum : (PyFloat.finite deg).add ((PyFloat.finite q).div (.finite 60)) =
      (PyFloat.finite deg).add (PyFloat.ofRat (q / 60)) := rfl
  rw [position, hSum]
  cases hQuotient : PyFloat.ofRat (q / 60) with
  | nan => exact absurd hQuotient (PyFloat.ofRat_ne_nan _)
  | infinite s => exact not_within_infinite fun y hy => by cases hy
  | finite z =>
      have hz := abs_ofRat_ge hQuotient (by linarith)
      have hFar : 801 ≤ |(deg : ℚ) - -z| := by
        have hSub := abs_sub_abs_le_abs_sub z (-(deg : ℚ))
        rw [abs_neg, sub_neg_eq_add, add_comm z, ← sub_neg_eq_add (deg : ℚ) z] at hSub
        linarith
      have hAdd : (PyFloat.finite deg).add (.finite z) = .ofRat (deg - -z) := rfl
      rw [hAdd]
      cases hResult : PyFloat.ofRat (deg - -z) with
      | nan => exact absurd hResult (PyFloat.ofRat_ne_nan _)
      | infinite s => exact not_within_infinite fun y hy => by cases hy
      | finite y =>
          have hy := abs_ofRat_ge hResult (by linarith)
          have hAbs : |if south then -y else y| = |y| := by
            cases south
            · rfl
            · exact abs_neg y
          have hSide : (if south then (PyFloat.finite y).neg else .finite y) =
              .finite (if south then -y else y) := by cases south <;> rfl
          rw [hSide, within_round_finite_iff hEven hOne hLimit, hAbs]
          norm_num
          linarith

/-- Rounded to six places, a position is in range when what was read is. -/
theorem within_round_iff {limit : Nat} (hEven : limit * 10 ^ 6 % 2 = 0) (hOne : 1 ≤ limit)
    (hLimit : limit ≤ 180) (hReads : Reads width value deg minutes) (hWidth : width ≤ 3)
    (hClear : ClearOfEdge width limit value) :
    Within limit ((position deg minutes south).round 6) ↔ InRange limit deg minutes := by
  have hCast : (limit : ℚ) ≤ 180 := by exact_mod_cast hLimit
  have hDeg := hReads.abs_deg_le hWidth
  cases minutes with
  | nan =>
      refine iff_of_false ?_ fun ⟨q, hq, _⟩ => nomatch hq
      exact not_within_infinite fun y hy => by
        simp [PyFloat.div, PyFloat.add, PyFloat.neg, PyFloat.sub] at hy
  | infinite s =>
      refine iff_of_false ?_ fun ⟨q, hq, _⟩ => nomatch hq
      exact not_within_infinite fun y hy => by
        simp [PyFloat.div, PyFloat.add, PyFloat.neg, PyFloat.sub] at hy
  | finite q =>
      have hIn : InRange limit deg (.finite q) ↔ |deg + q / 60| ≤ limit + 1 / (2 * 10 ^ 6) := by
        constructor
        · rintro ⟨_, hEq, h⟩
          cases hEq
          exact h
        · exact fun h => ⟨q, rfl, h⟩
      rw [hIn]
      rcases le_or_gt |q / 60| 2000 with hSmall | hLarge
      · have hError := abs_degreeSum_sub_le (hDeg.trans (by norm_num)) hSmall
        have hAbs : |if south then -degreeSum deg q else degreeSum deg q| = |degreeSum deg q| := by
          cases south
          · rfl
          · exact abs_neg _
        rw [position_finite (hDeg.trans (by norm_num)) hSmall,
          within_round_finite_iff hEven hOne hLimit, hAbs]
        have hNear := abs_le.mp ((abs_abs_sub_abs_le _ _).trans hError)
        have hFar := le_abs.mp (hClear deg q hReads)
        norm_num at hNear hFar ⊢
        constructor
        · intro h
          rcases hFar with hFar | hFar <;> linarith
        · intro h
          rcases hFar with hFar | hFar <;> linarith
      · refine iff_of_false (not_within_far hEven hOne hLimit hDeg hLarge) ?_
        have hSub := abs_sub_abs_le_abs_sub (q / 60) (-(deg : ℚ))
        rw [abs_neg, sub_neg_eq_add, add_comm] at hSub
        rw [not_le]
        norm_num
        linarith

/-- What a receiver writes is read as it is meant. -/
theorem Coordinate.reads {limit : Nat} (c : Coordinate width limit) (hWidth : width ≠ 0) :
    Reads width c.text (PyNumber.value c.degreeDigits)
      (.finite (Binary64.nearest c.minutes)) := by
  have hDigits := c.validDigits
  simp only [List.forall_mem_append] at hDigits
  obtain ⟨⟨hDegrees, hMinutes⟩, hDecimals⟩ := hDigits
  have hSome : c.degreeDigits ≠ [] := fun h => hWidth (by rw [← c.degreeWidth, h]; rfl)
  have hSomeMinutes : c.minuteDigits ≠ [] := fun h => by
    have := c.minuteWidth
    rw [h] at this
    cases this
  have hTake : takeFirst c.text width = String.ofList c.degreeDigits := by
    rw [takeFirst, Coordinate.text, String.toList_ofList, List.take_left' c.degreeWidth]
  have hDrop : dropFirst c.text width =
      String.ofList (c.minuteDigits ++ PyNumber.pointAnd c.decimals) := by
    rw [dropFirst, Coordinate.text, String.toList_ofList, List.drop_left' c.degreeWidth]
  refine ⟨?_, ?_, ?_⟩
  · rw [← String.length_toList, Coordinate.text, String.toList_ofList, List.length_append,
      List.length_append, c.degreeWidth, c.minuteWidth]
    omega
  · rw [hTake, PyNumber.int_digits hDegrees hSome]
  · rw [hDrop]
    exact PyNumber.float_pointAnd hMinutes hDecimals hSomeMinutes (c.belowSixty.trans (by decide))

theorem Coordinate.magnitude_bounds {limit : Nat} (c : Coordinate width limit) :
    0 ≤ c.minutes ∧ c.minutes < 60 ∧ (PyNumber.value c.degreeDigits : ℚ) ≤ limit := by
  have hDecimals : ∀ d ∈ c.decimals.getD [], d.isDigit = true := fun d hd =>
    c.validDigits d (List.mem_append_right _ hd)
  obtain ⟨hLow, hHigh⟩ := PyNumber.value_div_bounds c.minuteDigits hDecimals
  have hNonneg : (0 : ℚ) ≤ PyNumber.value c.minuteDigits := Nat.cast_nonneg _
  have hBelow : (PyNumber.value c.minuteDigits : ℚ) + 1 ≤ 60 := by exact_mod_cast c.belowSixty
  have hLimit := c.validLimit
  have hMinutes : 0 ≤ c.minutes := hNonneg.trans hLow
  refine ⟨hMinutes, hHigh.trans_le hBelow, ?_⟩
  have hLe : (PyNumber.value c.degreeDigits : ℚ) + c.minutes / 60 ≤ limit := hLimit
  linarith

/-- The double that is made of a coordinate is its degrees but for the last bits. -/
theorem Coordinate.position_near {limit : Nat} (c : Coordinate width limit) (hLimit : limit ≤ 180) :
    ∃ y, position (PyNumber.value c.degreeDigits) (.finite (Binary64.nearest c.minutes))
        c.negative = .finite y ∧ |y - c.degrees| ≤ 5002 / 2 ^ 53 := by
  obtain ⟨hNonneg, hSixty, hDegrees⟩ := c.magnitude_bounds
  have hCast : (limit : ℚ) ≤ 180 := by exact_mod_cast hLimit
  have hPos : (0 : ℚ) ≤ PyNumber.value c.degreeDigits := Nat.cast_nonneg _
  have hMinutes : |Binary64.nearest c.minutes - c.minutes| ≤ 60 / 2 ^ 53 :=
    Binary64.abs_nearest_sub_le (by norm_num) (by rw [abs_of_nonneg hNonneg]; exact hSixty.le)
  have hDeg : |((PyNumber.value c.degreeDigits : Int) : ℚ)| ≤ 1000 := by
    rw [Int.cast_natCast, abs_of_nonneg hPos]
    linarith
  have hSmall : |Binary64.nearest c.minutes / 60| ≤ 2000 := by
    have hSum := abs_add_le (Binary64.nearest c.minutes - c.minutes) c.minutes
    rw [sub_add_cancel, abs_of_nonneg hNonneg] at hSum
    rw [abs_div, abs_of_pos (by norm_num : (0 : ℚ) < 60), div_le_iff₀ (by norm_num)]
    norm_num at hMinutes
    linarith
  have hError := abs_degreeSum_sub_le hDeg hSmall
  have hNear : |degreeSum (PyNumber.value c.degreeDigits) (Binary64.nearest c.minutes) -
      (PyNumber.value c.degreeDigits + c.minutes / 60)| ≤ 5002 / 2 ^ 53 := by
    rw [abs_le] at hError hMinutes ⊢
    push_cast at hError
    constructor <;> linarith
  refine ⟨_, position_finite hDeg hSmall c.negative, ?_⟩
  unfold Coordinate.degrees
  cases c.negative
  · exact hNear
  · rw [abs_sub_comm] at hNear
    exact (congrArg abs (by simp; ring)).trans_le hNear

/-- Degrees that are not close to a half are rounded like the double beside them. -/
theorem roundsTo_round {degrees y : ℚ} (hClear : ClearOfHalves degrees)
    (hNear : |y - degrees| ≤ 5002 / 2 ^ 53) : RoundsTo degrees ((PyFloat.finite y).round 6) := by
  have hRound := Snap.abs_roundHalfEven_sub_le (y * 10 ^ 6)
  refine ⟨PyDict.roundHalfEven (y * 10 ^ 6), ?_, rfl⟩
  rw [abs_le] at hRound hNear ⊢
  -- Were another number of six decimals nearer, the half between the two would be close.
  constructor
  · by_contra hBelow
    have hHalf := hClear (PyDict.roundHalfEven (y * 10 ^ 6) - 1)
    push_cast at hHalf
    rcases hHalf with hHalf | hHalf
    · exact hBelow (by linarith)
    · norm_num at hNear hRound hBelow hHalf
      rcases le_abs.mp hHalf with hHalf | hHalf <;> linarith
  · by_contra hAbove
    rcases hClear (PyDict.roundHalfEven (y * 10 ^ 6)) with hHalf | hHalf
    · exact hAbove (by linarith)
    · norm_num at hNear hRound hAbove hHalf
      rcases le_abs.mp hHalf with hHalf | hHalf <;> linarith

theorem Coordinate.decimals_length_le {limit : Nat} (c : Coordinate width limit) :
    (c.decimals.getD []).length ≤ c.text.length := by
  rw [← String.length_toList, Coordinate.text, String.toList_ofList, List.length_append,
    List.length_append]
  cases c.decimals with
  | none => exact Nat.zero_le _
  | some decimals =>
      rw [Option.getD_some, PyNumber.pointAnd, List.length_cons]
      omega

/-- With ten decimals at most a coordinate is not close to a half without being one. -/
theorem Coordinate.clearOfHalves {limit : Nat} (c : Coordinate width limit)
    (hFew : (c.decimals.getD []).length ≤ 10) : ClearOfHalves c.degrees := by
  obtain ⟨k, hk⟩ := Nat.exists_eq_add_of_le hFew
  let digits := PyNumber.value (c.minuteDigits ++ c.decimals.getD [])
  have hScale : (10 : ℚ) ^ (c.decimals.getD []).length * 10 ^ k = 10 ^ 10 := by
    rw [← pow_add, ← hk]
  have hMinutes : c.minutes = digits * 10 ^ k / 10 ^ 10 := by
    rw [← hScale, mul_div_mul_right _ _ (by positivity)]
    rfl
  -- In units of the last decimal the degrees are whole numbers of six hundred thousandths.
  have hWhole : ∃ z : Int, c.degrees * 10 ^ 6 * (6 * 10 ^ 5) = z := by
    let z : Int := PyNumber.value c.degreeDigits * (6 * 10 ^ 11) + digits * 10 ^ k
    have hMagnitude :
        (PyNumber.value c.degreeDigits + c.minutes / 60) * 10 ^ 6 * (6 * 10 ^ 5) = (z : ℚ) := by
      rw [hMinutes]
      push_cast [z]
      ring
    unfold Coordinate.degrees
    cases c.negative
    · exact ⟨z, hMagnitude⟩
    · refine ⟨-z, ?_⟩
      rw [Int.cast_neg, ← hMagnitude]
      simp only [if_true]
      ring
  obtain ⟨z, hz⟩ := hWhole
  intro n
  by_cases hHalf : z = n * (6 * 10 ^ 5) + 3 * 10 ^ 5
  · refine Or.inl ?_
    have hCast : (z : ℚ) = n * (6 * 10 ^ 5) + 3 * 10 ^ 5 := by exact_mod_cast hHalf
    linarith
  · refine Or.inr ?_
    have hOne : 1 ≤ |z - (n * (6 * 10 ^ 5) + 3 * 10 ^ 5)| := Int.one_le_abs (sub_ne_zero.mpr hHalf)
    have hCast : (1 : ℚ) ≤ |(z : ℚ) - (n * (6 * 10 ^ 5) + 3 * 10 ^ 5)| := by exact_mod_cast hOne
    rw [← hz] at hCast
    rcases le_abs.mp hCast with hCast | hCast
    · exact le_abs.mpr (Or.inl (by norm_num at hCast ⊢; linarith))
    · exact le_abs.mpr (Or.inr (by norm_num at hCast ⊢; linarith))

end Coordinates

section Clock

variable {α β : Type}

theorem orNone_eq_error_iff {x : Except PyError α} :
    (∃ e, orNone x = .error e) ↔ x = .error .overflowError := by
  constructor
  · rintro ⟨e, he⟩
    cases x with
    | ok found => cases he
    | error e' =>
        cases e' with
        | valueError => cases he
        | overflowError => rfl
  · rintro rfl
    exact ⟨.overflowError, rfl⟩

theorem parsed_bind_overflow {found : Option α} {f : α → Except PyError β} :
    (parsed found >>= f) = .error .overflowError ↔
      ∃ a, found = some a ∧ f a = .error .overflowError := by
  cases found with
  | none => exact iff_of_false (fun h => nomatch h) fun ⟨_, h, _⟩ => nomatch h
  | some a =>
      refine ⟨fun h => ⟨a, rfl, h⟩, ?_⟩
      rintro ⟨_, hEq, h⟩
      cases hEq
      exact h

theorem intOfFloat_bind_overflow {x : PyFloat} {f : Int → Except PyError β} :
    (intOfFloat x >>= f) = .error .overflowError ↔
      (∃ s, x = .infinite s) ∨
        ∃ q, x = .finite q ∧ f (q.num.tdiv q.den) = .error .overflowError := by
  cases x with
  | nan =>
      refine iff_of_false (fun h => nomatch h) ?_
      rintro (⟨_, h⟩ | ⟨_, h, _⟩) <;> cases h
  | infinite s => exact iff_of_true rfl (Or.inl ⟨s, rfl⟩)
  | finite q =>
      refine ⟨fun h => Or.inr ⟨q, rfl, h⟩, ?_⟩
      rintro (⟨_, h⟩ | ⟨_, hEq, h⟩)
      · cases h
      · cases hEq
        exact h

/-- Two characters spell a small number. -/
theorem isCInt_slice {s : String} {start : Nat} {n : Int} (offset : Nat) (hOffset : offset ≤ 2000)
    (h : PyNumber.int (slice s start (start + 2)) = some n) : isCInt (offset + n) = true := by
  have hLength : (slice s start (start + 2)).length ≤ 2 := by
    rw [slice, ← String.length_toList, String.toList_ofList, List.length_drop, List.length_take]
    omega
  have hLt := (PyNumber.int_natAbs_lt h).trans_le (Nat.pow_le_pow_right (by decide) hLength)
  rw [isCInt, Bool.and_eq_true, decide_eq_true_eq, decide_eq_true_eq]
  omega

/-- With all the rest small, a date overflows by its seconds only. -/
theorem datetime_overflow_iff {year month day hour minute second : Int}
    (h : ∀ n ∈ [year, month, day, hour, minute], isCInt n = true) :
    (datetime year month day hour minute second >>= fun dt => .ok dt.seconds) =
      (.error .overflowError : Except PyError Int) ↔ isCInt second = false := by
  have hAll : [year, month, day, hour, minute, second].all isCInt = isCInt second := by
    rw [show [year, month, day, hour, minute, second] = [year, month, day, hour, minute] ++ [second]
      from rfl, List.all_append, List.all_eq_true.mpr h, Bool.true_and, List.all_cons,
      List.all_nil, Bool.and_true]
  unfold datetime
  dsimp only
  rw [hAll]
  cases hSecond : isCInt second with
  | false => exact iff_of_true rfl rfl
  | true =>
      refine iff_of_false ?_ (by decide)
      rw [Bool.not_true, if_neg Bool.false_ne_true]
      split_ifs
      · exact fun hRaise => nomatch hRaise
      · intro hRaise
        obtain ⟨t, -, hTime⟩ := parsed_bind_overflow.mp hRaise
        cases hTime

theorem isCInt_fields {time date : String} {hh mm dd mo yy : Int}
    (hHour : PyNumber.int (slice time 0 2) = some hh)
    (hMinute : PyNumber.int (slice time 2 4) = some mm)
    (hDay : PyNumber.int (slice date 0 2) = some dd)
    (hMonth : PyNumber.int (slice date 2 4) = some mo)
    (hYear : PyNumber.int (slice date 4 6) = some yy) :
    ∀ n ∈ [2000 + yy, mo, dd, hh, mm], isCInt n = true := by
  have hSmall : ∀ {s : String} {start : Nat} {n : Int},
      PyNumber.int (slice s start (start + 2)) = some n → isCInt n = true := by
    intro s start n h
    have hCInt := isCInt_slice 0 (by decide) h
    rwa [Nat.cast_zero, zero_add] at hCInt
  rintro n hMem
  simp only [List.mem_cons, List.not_mem_nil, or_false] at hMem
  rcases hMem with rfl | rfl | rfl | rfl | rfl
  · exact isCInt_slice 2000 le_rfl hYear
  · exact hSmall hMonth
  · exact hSmall hDay
  · exact hSmall hHour
  · exact hSmall hMinute

theorem parseRmcTime_raises_iff {time date : String} :
    (∃ e, parseRmcTime time date = .error e) ↔ TooManySeconds time date := by
  unfold parseRmcTime
  by_cases hShort : time = "" ∨ date = "" ∨ time.length < 6 ∨ date.length ≠ 6
  · rw [if_pos hShort]
    refine iff_of_false (fun ⟨_, h⟩ => nomatch h) ?_
    rintro ⟨hTime, hDate, -⟩
    rcases hShort with rfl | rfl | hLt | hNe
    · exact absurd hTime (by decide)
    · exact absurd hDate (by decide)
    · omega
    · exact hNe hDate
  · rw [if_neg hShort, orNone_eq_error_iff]
    simp only [not_or, not_lt, ne_eq, not_not] at hShort
    obtain ⟨-, -, hTime, hDate⟩ := hShort
    simp only [parsed_bind_overflow, intOfFloat_bind_overflow]
    constructor
    · rintro ⟨hh, hHour, mm, hMinute, seconds, hSeconds, hRaise⟩
      refine ⟨hTime, hDate, Option.isSome_of_mem hHour, Option.isSome_of_mem hMinute, ?_⟩
      rcases hRaise with ⟨s, rfl⟩ | ⟨q, rfl, dd, hDay, mo, hMonth, yy, hYear, hRaise⟩
      · exact Or.inl ⟨s, hSeconds⟩
      · refine Or.inr ⟨q, hSeconds, ?_, Option.isSome_of_mem hDay, Option.isSome_of_mem hMonth,
          Option.isSome_of_mem hYear⟩
        exact (datetime_overflow_iff (isCInt_fields hHour hMinute hDay hMonth hYear)).mp hRaise
    · rintro ⟨-, -, hHour, hMinute, hSeconds⟩
      obtain ⟨hh, hHour⟩ := Option.isSome_iff_exists.mp hHour
      obtain ⟨mm, hMinute⟩ := Option.isSome_iff_exists.mp hMinute
      rcases hSeconds with ⟨s, hSeconds⟩ | ⟨q, hSeconds, hMany, hDay, hMonth, hYear⟩
      · exact ⟨hh, hHour, mm, hMinute, _, hSeconds, Or.inl ⟨s, rfl⟩⟩
      · obtain ⟨dd, hDay⟩ := Option.isSome_iff_exists.mp hDay
        obtain ⟨mo, hMonth⟩ := Option.isSome_iff_exists.mp hMonth
        obtain ⟨yy, hYear⟩ := Option.isSome_iff_exists.mp hYear
        refine ⟨hh, hHour, mm, hMinute, _, hSeconds, Or.inr ⟨q, rfl, dd, hDay, mo, hMonth, yy,
          hYear, ?_⟩⟩
        exact (datetime_overflow_iff (isCInt_fields hHour hMinute hDay hMonth hYear)).mpr hMany

theorem twoDigits_isDigit (n : Nat) : ∀ c ∈ twoDigits n, c.isDigit = true := by
  intro c hc
  rcases List.mem_pair.mp hc with rfl | rfl
  · exact digit_isDigit _
  · exact digit_isDigit _

theorem value_twoDigits {n : Nat} (h : n ≤ 99) : PyNumber.value (twoDigits n) = n := by
  simp only [PyNumber.value, twoDigits, List.foldl_cons, List.foldl_nil, digit_value]
  omega

theorem int_twoDigits {n : Nat} (h : n ≤ 99) :
    PyNumber.int (String.ofList (twoDigits n)) = some (n : Int) := by
  rw [PyNumber.int_digits (twoDigits_isDigit n) (List.cons_ne_nil _ _), value_twoDigits h]

theorem intOfFloat_floor {q : ℚ} (h : 0 ≤ q) : intOfFloat (.finite q) = .ok ⌊q⌋ := by
  rw [intOfFloat, Int.tdiv_eq_ediv_of_nonneg (Rat.num_nonneg.mpr h), ← Rat.floor_def']

/-- The seconds with their decimals, as the double that is read. -/
def secondsRead (t : WallTime) (decimals : Option (List Char)) : ℚ :=
  Binary64.nearest (PyNumber.value (twoDigits t.second ++ decimals.getD []) /
    10 ^ (decimals.getD []).length)

/-- A part of a second is dropped, unless it is rounded to the next second. -/
theorem intOfFloat_secondsRead {t : WallTime} {decimals : Option (List Char)}
    (hDecimals : ∀ c ∈ decimals.getD [], c.isDigit = true) :
    intOfFloat (.finite (secondsRead t decimals)) =
      .ok (if secondsRead t decimals = t.second + 1 then t.second + 1 else t.second : Int) := by
  have hSecond : t.second ≤ 99 := by have := t.validSecond; omega
  obtain ⟨hLow, hHigh⟩ := PyNumber.value_div_bounds (twoDigits t.second) hDecimals
  rw [value_twoDigits hSecond] at hLow hHigh
  have hPos : (0 : ℚ) ≤ t.second := Nat.cast_nonneg _
  have hBelow : (t.second : ℚ) ≤ 99 := by exact_mod_cast hSecond
  have hSmall : |(PyNumber.value (twoDigits t.second ++ decimals.getD []) : ℚ) /
      10 ^ (decimals.getD []).length| < 2 ^ 53 := by
    rw [abs_of_nonneg (hPos.trans hLow)]
    norm_num
    linarith
  have hFrom : (t.second : ℚ) ≤ secondsRead t decimals :=
    Binary64.intCast_le_nearest hSmall (n := (t.second : Int)) hLow
  have hTo : secondsRead t decimals ≤ t.second + 1 := by
    have hNext := Binary64.nearest_le_intCast hSmall (n := t.second + 1) (by
      push_cast
      exact hHigh.le)
    push_cast at hNext
    exact hNext
  rw [intOfFloat_floor (hPos.trans hFrom)]
  congr 1
  split_ifs with hNext
  · rw [hNext]
    exact_mod_cast Int.floor_intCast (t.second + 1 : Int)
  · exact Int.floor_eq_iff.mpr ⟨by exact_mod_cast hFrom,
      by exact_mod_cast lt_of_le_of_ne hTo hNext⟩

/-- Of small fields only the calendar can complain. -/
theorem datetime_natCast {year month day hour minute second : Nat}
    (h : ∀ n ∈ [year, month, day, hour, minute, second], n ≤ 9999) :
    datetime year month day hour minute second =
      parsed (mkTime year month day hour minute second) := by
  have hFields : ∀ n ∈ [(year : Int), month, day, hour, minute, second], 0 ≤ n ∧ n ≤ 9999 := by
    simp only [List.mem_cons, List.not_mem_nil, or_false, forall_eq_or_imp, forall_eq] at h ⊢
    omega
  have hSmall : [(year : Int), month, day, hour, minute, second].all isCInt = true := by
    refine List.all_eq_true.mpr fun n hn => ?_
    have := hFields n hn
    rw [isCInt, Bool.and_eq_true, decide_eq_true_eq, decide_eq_true_eq]
    omega
  have hNonneg : [(year : Int), month, day, hour, minute, second].all (0 ≤ ·) = true :=
    List.all_eq_true.mpr fun n hn => decide_eq_true (hFields n hn).1
  unfold datetime
  dsimp only
  rw [hSmall, hNonneg, Bool.not_true, if_neg Bool.false_ne_true, if_neg Bool.false_ne_true]
  simp only [Int.toNat_natCast]

theorem fields_le (t : WallTime) :
    ∀ n ∈ [t.year, t.month, t.day, t.hour, t.minute], n ≤ 9999 := by
  have hDays : daysInMonth t.year t.month ≤ 31 := by
    unfold daysInMonth
    split_ifs <;> omega
  have := t.validYear
  have := t.validMonth
  have := t.validDay
  have := t.validHour
  have := t.validMinute
  intro n hn
  simp only [List.mem_cons, List.not_mem_nil, or_false] at hn
  omega

/-- A time with other seconds is made from its fields when the clock has them. -/
theorem datetime_second (t : WallTime) (second : Nat) (h : second ≤ 60) :
    (datetime t.year t.month t.day t.hour t.minute second).map WallTime.seconds =
      if second ≤ 59 then .ok (t.seconds - t.second + second) else .error .valueError := by
  have hFields := fields_le t
  rw [datetime_natCast (by
    intro n hn
    simp only [List.mem_cons, List.not_mem_nil, or_false] at hn hFields
    rcases hn with hn | hn | hn | hn | hn | hn
    all_goals first | omega | exact hFields n (by simp [hn]))]
  split_ifs with hValid
  · rw [mkTime, dif_pos ⟨⟨t.validYear, t.validMonth, t.validDay⟩, t.validHour, t.validMinute,
      hValid⟩]
    show Except.ok _ = Except.ok _
    congr 1
    simp only [WallTime.seconds]
    omega
  · rw [mkTime, dif_neg fun hTime => hValid hTime.2.2.2]
    rfl

theorem parseRmcTime_of_fields {time date : String} {hh mm ss dd mo yy : Int} {seconds : PyFloat}
    (hTimeLength : 6 ≤ time.length) (hDateLength : date.length = 6)
    (hHour : PyNumber.int (slice time 0 2) = some hh)
    (hMinute : PyNumber.int (slice time 2 4) = some mm)
    (hSeconds : PyNumber.float (dropFirst time 4) = some seconds)
    (hTrunc : intOfFloat seconds = .ok ss)
    (hDay : PyNumber.int (slice date 0 2) = some dd)
    (hMonth : PyNumber.int (slice date 2 4) = some mo)
    (hYear : PyNumber.int (slice date 4 6) = some yy) :
    parseRmcTime time date =
      orNone ((datetime (2000 + yy) mo dd hh mm ss).map WallTime.seconds) := by
  have hLong : ¬ (time = "" ∨ date = "" ∨ time.length < 6 ∨ date.length ≠ 6) := by
    rintro (rfl | rfl | hLt | hNe)
    · exact absurd hTimeLength (by decide)
    · exact absurd hDateLength (by decide)
    · omega
    · exact hNe hDateLength
  rw [parseRmcTime, if_neg hLong, hHour, hMinute, hSeconds, hDay, hMonth, hYear]
  simp only [parsed, Option.elim_some, bind, Except.bind, hTrunc, pure, Except.pure]
  cases datetime (2000 + yy) mo dd hh mm ss <;> rfl

theorem float_timeText {t : WallTime} {decimals : Option (List Char)}
    (hDecimals : ∀ c ∈ decimals.getD [], c.isDigit = true) :
    PyNumber.float (dropFirst (timeText t decimals) 4) =
      some (.finite (secondsRead t decimals)) := by
  have hSecond : t.second ≤ 99 := by have := t.validSecond; omega
  have hDrop : dropFirst (timeText t decimals) 4 =
      String.ofList (twoDigits t.second ++ PyNumber.pointAnd decimals) := by
    rw [dropFirst, timeText, String.toList_ofList]
    rfl
  rw [hDrop]
  exact PyNumber.float_pointAnd (twoDigits_isDigit t.second) hDecimals
    (List.cons_ne_nil _ _) (by rw [value_twoDigits hSecond]; omega)

/-- The time of a receiver is the time that it means just when its second is read. -/
theorem parseRmcTime_text_iff {t : WallTime} {decimals : Option (List Char)}
    (hFrom : 2000 ≤ t.year) (hTo : t.year ≤ 2099)
    (hDecimals : ∀ c ∈ decimals.getD [], c.isDigit = true) :
    parseRmcTime (timeText t decimals) (dateText t) = .ok (some t.seconds) ↔
      secondsRead t decimals ≠ t.second + 1 := by
  have hDays : daysInMonth t.year t.month ≤ 31 := by
    unfold daysInMonth
    split_ifs <;> omega
  have hHour : PyNumber.int (slice (timeText t decimals) 0 2) = some (t.hour : Int) := by
    rw [slice, timeText, String.toList_ofList]
    exact int_twoDigits (by have := t.validHour; omega)
  have hMinute : PyNumber.int (slice (timeText t decimals) 2 4) = some (t.minute : Int) := by
    rw [slice, timeText, String.toList_ofList]
    exact int_twoDigits (by have := t.validMinute; omega)
  have hDay : PyNumber.int (slice (dateText t) 0 2) = some (t.day : Int) := by
    rw [slice, dateText, String.toList_ofList]
    exact int_twoDigits (by have := t.validDay; omega)
  have hMonth : PyNumber.int (slice (dateText t) 2 4) = some (t.month : Int) := by
    rw [slice, dateText, String.toList_ofList]
    exact int_twoDigits (by have := t.validMonth; omega)
  have hYear : PyNumber.int (slice (dateText t) 4 6) = some ((t.year - 2000 : Nat) : Int) := by
    rw [slice, dateText, String.toList_ofList]
    exact int_twoDigits (by omega)
  have hTimeLength : 6 ≤ (timeText t decimals).length := by
    rw [← String.length_toList, timeText, String.toList_ofList]
    simp [twoDigits]
  have hDateLength : (dateText t).length = 6 := by
    rw [← String.length_toList, dateText, String.toList_ofList]
    rfl
  have hFullYear : (2000 : Int) + ((t.year - 2000 : Nat) : Int) = t.year := by omega
  have hSecond := t.validSecond
  rw [parseRmcTime_of_fields hTimeLength hDateLength hHour hMinute (float_timeText hDecimals)
    (intOfFloat_secondsRead hDecimals) hDay hMonth hYear, hFullYear]
  by_cases hNext : secondsRead t decimals = t.second + 1
  · rw [if_pos hNext]
    refine iff_of_false ?_ (not_not.mpr hNext)
    have hMap := datetime_second t (t.second + 1) (by omega)
    push_cast at hMap
    rw [hMap]
    split_ifs
    · intro hSame
      have := Option.some.inj (Except.ok.inj hSame)
      omega
    · intro hSame
      cases hSame
  · rw [if_neg hNext]
    refine iff_of_true ?_ hNext
    rw [datetime_second t t.second (hSecond.trans (by decide)), if_pos hSecond, sub_add_cancel]
    rfl

end Clock

section Lines

variable {line : String} {rmc : Rmc}

/-- An active sentence both of whose coordinates can be read. -/
structure Located (line : String) (rmc : Rmc) where
  latDeg : Int
  latMinutes : PyFloat
  lonDeg : Int
  lonMinutes : PyFloat
  sentence : rmcOf line = some rmc
  active : rmc.status = "A"
  readsLat : Reads 2 rmc.lat latDeg latMinutes
  readsLon : Reads 3 rmc.lon lonDeg lonMinutes

/-- The fix of such a sentence. -/
def Located.fix (at_ : Located line rmc) (ts : Option Int) : Fix where
  lat := (position at_.latDeg at_.latMinutes (rmc.northSouth = "S")).round 6
  lon := (position at_.lonDeg at_.lonMinutes (rmc.eastWest = "W")).round 6
  tsUtc := ts
  speedKnots := floatOrZero rmc.speed
  courseDeg := floatOrZero rmc.course

theorem Reads.unique {width : Nat} {value : String} {deg deg' : Int} {minutes minutes' : PyFloat}
    (h : Reads width value deg minutes) (h' : Reads width value deg' minutes') :
    deg = deg' ∧ minutes = minutes' :=
  ⟨Option.some.inj (h.2.1.symm.trans h'.2.1), Option.some.inj (h.2.2.symm.trans h'.2.2)⟩

/-- Behind the coordinates only the time can raise. -/
theorem Located.decoded (at_ : Located line rmc) :
    parseRmc line = (parseRmcTime rmc.time rmc.date).map fun ts => some (at_.fix ts) := by
  have hLat : parseLat rmc.lat rmc.northSouth = _ := parseCoordinate_of_reads at_.readsLat
  have hLon : parseLon rmc.lon rmc.eastWest = _ := parseCoordinate_of_reads at_.readsLon
  rw [parseRmc, at_.sentence]
  dsimp only
  rw [if_neg (not_not.mpr at_.active), hLat, hLon]
  cases parseRmcTime rmc.time rmc.date with
  | error e => rfl
  | ok ts => rfl

/-- Every other line is no fix. -/
theorem parseRmc_of_not_located (h : ∀ rmc, Located line rmc → False) :
    parseRmc line = .ok none := by
  unfold parseRmc
  cases hLine : rmcOf line with
  | none => rfl
  | some rmc =>
      dsimp only
      by_cases hStatus : rmc.status = "A"
      · rw [if_neg (not_not.mpr hStatus), parseLat, parseLon]
        rcases parseCoordinate_cases 2 "S" rmc.lat rmc.northSouth with
          ⟨latDeg, latMinutes, hLat⟩ | hLat
        · rcases parseCoordinate_cases 3 "W" rmc.lon rmc.eastWest with
            ⟨lonDeg, lonMinutes, hLon⟩ | hLon
          · exact (h rmc ⟨latDeg, latMinutes, lonDeg, lonMinutes, hLine, hStatus, hLat, hLon⟩).elim
          · rw [parseCoordinate_of_reads hLat, hLon]
            rfl
        · rw [hLat]
          rcases parseCoordinate_cases 3 "W" rmc.lon rmc.eastWest with
            ⟨lonDeg, lonMinutes, hLon⟩ | hLon
          · rw [parseCoordinate_of_reads hLon]
            rfl
          · rw [hLon]
            rfl
      · rw [if_pos hStatus]

theorem Located.raises_iff (at_ : Located line rmc) :
    (∃ found, parseRmc line = .ok found) ↔ ¬ TooManySeconds rmc.time rmc.date := by
  rw [at_.decoded, ← parseRmcTime_raises_iff]
  cases parseRmcTime rmc.time rmc.date with
  | error e => exact iff_of_false (fun ⟨_, h⟩ => nomatch h) fun h => h ⟨e, rfl⟩
  | ok ts => exact iff_of_true ⟨_, rfl⟩ fun ⟨_, h⟩ => nomatch h

/-- What is found in such a sentence is its fix. -/
theorem Located.eq_fix (at_ : Located line rmc) {fix : Fix}
    (h : parseRmc line = .ok (some fix)) :
    ∃ ts, parseRmcTime rmc.time rmc.date = .ok ts ∧ fix = at_.fix ts := by
  rw [at_.decoded] at h
  cases hTime : parseRmcTime rmc.time rmc.date with
  | error e =>
      rw [hTime] at h
      cases h
  | ok ts =>
      rw [hTime] at h
      cases h
      exact ⟨ts, rfl, rfl⟩

/-- A fix is found in such sentences only. -/
theorem located_of_fix {fix : Fix} (hLine : rmcOf line = some rmc)
    (h : parseRmc line = .ok (some fix)) : Nonempty (Located line rmc) := by
  by_contra hNone
  have hNothing : parseRmc line = .ok none := by
    refine parseRmc_of_not_located fun rmc' at_ => hNone ?_
    cases hLine.symm.trans at_.sentence
    exact ⟨at_⟩
  rw [hNothing] at h
  cases h

/-- What a receiver wrote is what the sentence says. -/
theorem Coordinate.position_of_reads {width limit : Nat} (c : Coordinate width limit)
    (hLimit : limit ≤ 180) (hWidth : width ≠ 0) {value hemisphere negative positive : String}
    {deg : Int} {minutes : PyFloat} (hReads : Reads width value deg minutes)
    (hText : value = c.text)
    (hNames : positive ≠ negative)
    (hHemisphere : hemisphere = if c.negative then negative else positive) :
    ∃ y, position deg minutes (hemisphere = negative) = .finite y ∧
      |y - c.degrees| ≤ 5002 / 2 ^ 53 := by
  rw [hText] at hReads
  obtain ⟨rfl, rfl⟩ := hReads.unique (c.reads hWidth)
  have hSide : decide (hemisphere = negative) = c.negative := by
    rw [hHemisphere]
    cases c.negative with
    | true => exact decide_eq_true rfl
    | false => exact decide_eq_false hNames
  rw [hSide]
  exact c.position_near hLimit

theorem Located.lat_rounds (at_ : Located line rmc) (c : Coordinate 2 90) (hText : rmc.lat = c.text)
    (hClear : ClearOfHalves c.degrees)
    (hHemisphere : rmc.northSouth = if c.negative then "S" else "N") (ts : Option Int) :
    RoundsTo c.degrees (at_.fix ts).lat := by
  obtain ⟨y, hPosition, hNear⟩ := c.position_of_reads (by decide) (by decide) at_.readsLat hText
    (by decide) hHemisphere
  rw [Located.fix, hPosition]
  exact roundsTo_round hClear hNear

theorem Located.lon_rounds (at_ : Located line rmc) (c : Coordinate 3 180)
    (hText : rmc.lon = c.text) (hClear : ClearOfHalves c.degrees)
    (hHemisphere : rmc.eastWest = if c.negative then "W" else "E") (ts : Option Int) :
    RoundsTo c.degrees (at_.fix ts).lon := by
  obtain ⟨y, hPosition, hNear⟩ := c.position_of_reads (by decide) (by decide) at_.readsLon hText
    (by decide) hHemisphere
  rw [Located.fix, hPosition]
  exact roundsTo_round hClear hNear

theorem Located.inRange_iff (at_ : Located line rmc) (hClear : ClearOfTies line) (ts : Option Int) :
    (Within 90 (at_.fix ts).lat ↔ InRange 90 at_.latDeg at_.latMinutes) ∧
      (Within 180 (at_.fix ts).lon ↔ InRange 180 at_.lonDeg at_.lonMinutes) :=
  ⟨within_round_iff (by decide) (by decide) (by decide) at_.readsLat (by decide)
      (hClear.lat rmc at_.sentence).1,
    within_round_iff (by decide) (by decide) (by decide) at_.readsLon (by decide)
      (hClear.lon rmc at_.sentence).1⟩

theorem Located.keepsSecond (at_ : Located line rmc) (h : DecodesRightly line) :
    KeepsSecond rmc := by
  intro t decimals hFrom hTo hDecimals hTime hDate hNext
  obtain ⟨ts, hTs⟩ : ∃ ts, parseRmcTime rmc.time rmc.date = .ok ts := by
    cases hRaise : parseRmcTime rmc.time rmc.date with
    | error e => exact absurd (parseRmcTime_raises_iff.mp ⟨e, hRaise⟩) (at_.raises_iff.mp h.returns)
    | ok ts => exact ⟨ts, rfl⟩
  have hFix : parseRmc line = .ok (some (at_.fix ts)) := by
    rw [at_.decoded, hTs]
    rfl
  have hSame := h.time rmc _ at_.sentence hFix t decimals hFrom hTo hDecimals hTime hDate
  have hParsed : parseRmcTime (timeText t decimals) (dateText t) = .ok (some t.seconds) := by
    rw [← hTime, ← hDate, hTs]
    exact congrArg Except.ok hSame
  rw [hTime, float_timeText hDecimals] at hNext
  exact (parseRmcTime_text_iff hFrom hTo hDecimals).mp hParsed
    (PyFloat.finite.inj (Option.some.inj hNext))

theorem harmless_of_decodesRightly (hClear : ClearOfTies line) (h : DecodesRightly line) :
    Harmless line := by
  intro rmc hLine hStatus latDeg latMinutes lonDeg lonMinutes hLat hLon
  let at_ : Located line rmc :=
    ⟨latDeg, latMinutes, lonDeg, lonMinutes, hLine, hStatus, hLat, hLon⟩
  have hTime := at_.raises_iff.mp h.returns
  obtain ⟨ts, hTs⟩ : ∃ ts, parseRmcTime rmc.time rmc.date = .ok ts := by
    cases hTime' : parseRmcTime rmc.time rmc.date with
    | error e => exact absurd (parseRmcTime_raises_iff.mp ⟨e, hTime'⟩) hTime
    | ok ts => exact ⟨ts, rfl⟩
  have hFix : parseRmc line = .ok (some (at_.fix ts)) := by
    rw [at_.decoded, hTs]
    rfl
  obtain ⟨hLatRange, hLonRange⟩ := h.inRange _ hFix
  obtain ⟨hLatIff, hLonIff⟩ := at_.inRange_iff hClear ts
  exact ⟨hLatIff.mp hLatRange, hLonIff.mp hLonRange, hTime, at_.keepsSecond h⟩

/-- A line without readable coordinates gives nothing. -/
theorem located_or_nothing (line : String) :
    (∃ rmc, Nonempty (Located line rmc)) ∨ parseRmc line = .ok none := by
  by_cases hAny : ∃ rmc, Nonempty (Located line rmc)
  · exact Or.inl hAny
  · exact Or.inr (parseRmc_of_not_located fun rmc at_ => hAny ⟨rmc, ⟨at_⟩⟩)

theorem Harmless.located (h : Harmless line) (at_ : Located line rmc) :
    InRange 90 at_.latDeg at_.latMinutes ∧ InRange 180 at_.lonDeg at_.lonMinutes ∧
      ¬ TooManySeconds rmc.time rmc.date ∧ KeepsSecond rmc :=
  h _ at_.sentence at_.active _ _ _ _ at_.readsLat at_.readsLon

theorem Harmless.found (h : Harmless line) (at_ : Located line rmc) :
    ∃ fix, parseRmc line = .ok (some fix) := by
  obtain ⟨found, hFound⟩ := at_.raises_iff.mpr (h.located at_).2.2.1
  rw [at_.decoded] at hFound ⊢
  cases hTime : parseRmcTime rmc.time rmc.date with
  | error e =>
      rw [hTime] at hFound
      cases hFound
  | ok ts => exact ⟨at_.fix ts, rfl⟩

/-- The time of a harmless sentence is the one that was written. -/
theorem Harmless.time (h : Harmless line) {fix : Fix} (hLine : rmcOf line = some rmc)
    (hFix : parseRmc line = .ok (some fix)) {t : WallTime} {decimals : Option (List Char)}
    (hFrom : 2000 ≤ t.year) (hTo : t.year ≤ 2099)
    (hDecimals : ∀ c ∈ decimals.getD [], c.isDigit = true) (hTime : rmc.time = timeText t decimals)
    (hDate : rmc.date = dateText t) : fix.tsUtc = some t.seconds := by
  obtain ⟨at_⟩ := located_of_fix hLine hFix
  obtain ⟨ts, hTs, rfl⟩ := at_.eq_fix hFix
  have hKept := (h.located at_).2.2.2 t decimals hFrom hTo hDecimals hTime hDate
  rw [hTime, float_timeText hDecimals] at hKept
  have hNot : secondsRead t decimals ≠ t.second + 1 := fun hNext => hKept (by rw [hNext])
  rw [hTime, hDate, (parseRmcTime_text_iff hFrom hTo hDecimals).mpr hNot] at hTs
  cases hTs
  rfl

theorem decodesRightly_of_harmless (hClear : ClearOfTies line) (h : Harmless line) :
    DecodesRightly line := by
  constructor
  case returns =>
    rcases located_or_nothing line with ⟨rmc, ⟨at_⟩⟩ | hNothing
    · exact at_.raises_iff.mpr (h.located at_).2.2.1
    · exact ⟨none, hNothing⟩
  case inRange =>
    intro fix hFix
    rcases located_or_nothing line with ⟨rmc, ⟨at_⟩⟩ | hNothing
    · obtain ⟨hLat, hLon, -⟩ := h.located at_
      obtain ⟨ts, -, rfl⟩ := at_.eq_fix hFix
      obtain ⟨hLatIff, hLonIff⟩ := at_.inRange_iff hClear ts
      exact ⟨hLatIff.mpr hLat, hLonIff.mpr hLon⟩
    · rw [hNothing] at hFix
      cases hFix
  case found =>
    intro rmc hLine hStatus lat lon hLat hLon
    have hReadsLat := lat.reads (by decide)
    have hReadsLon := lon.reads (by decide)
    rw [← hLat] at hReadsLat
    rw [← hLon] at hReadsLon
    exact h.found ⟨_, _, _, _, hLine, hStatus, hReadsLat, hReadsLon⟩
  case latitude =>
    intro rmc fix hLine hFix c hText hHemisphere
    obtain ⟨at_⟩ := located_of_fix hLine hFix
    obtain ⟨ts, -, rfl⟩ := at_.eq_fix hFix
    exact at_.lat_rounds c hText ((hClear.lat rmc hLine).2 c hText) hHemisphere ts
  case longitude =>
    intro rmc fix hLine hFix c hText hHemisphere
    obtain ⟨at_⟩ := located_of_fix hLine hFix
    obtain ⟨ts, -, rfl⟩ := at_.eq_fix hFix
    exact at_.lon_rounds c hText ((hClear.lon rmc hLine).2 c hText) hHemisphere ts
  case time =>
    intro rmc fix hLine hFix t decimals hFrom hTo hDecimals hTime hDate
    exact h.time hLine hFix hFrom hTo hDecimals hTime hDate

/-- Off the ties the decoder can be relied on for a line if and only if the line is
harmless. -/
theorem decodesRightly_iff (line : String) (hClear : ClearOfTies line) :
    DecodesRightly line ↔ Harmless line :=
  ⟨harmless_of_decodesRightly hClear, decodesRightly_of_harmless hClear⟩

/-- A sentence from Munich. -/
def munich : String := "$GPRMC,123519,A,4807.038,N,01131.000,E,022.4,084.4,230324,003.1,W*6A"

theorem rmcOf_munich : rmcOf munich =
    some ⟨"123519", "A", "4807.038", "N", "01131.000", "E", "022.4", "084.4", "230324"⟩ := by
  decide +kernel

theorem reads_munich : Reads 2 "4807.038" 48 (.finite (Binary64.nearest (7038 / 1000))) ∧
    Reads 3 "01131.000" 11 (.finite 31) :=
  ⟨⟨by decide, by decide +kernel, by decide +kernel⟩, by decide, by decide +kernel,
    by decide +kernel⟩

theorem decodesRightly_munich : ClearOfTies munich ∧ DecodesRightly munich := by
  have hClear : ClearOfTies munich := by
    refine ⟨fun rmc hLine => ?_, fun rmc hLine => ?_⟩
    · cases rmcOf_munich.symm.trans hLine
      refine ⟨fun deg q hReads => ?_, fun c hText => c.clearOfHalves ?_⟩
      · obtain ⟨rfl, hMinutes⟩ := hReads.unique reads_munich.1
        cases hMinutes
        decide +kernel
      · exact c.decimals_length_le.trans (hText ▸ by decide)
    · cases rmcOf_munich.symm.trans hLine
      refine ⟨fun deg q hReads => ?_, fun c hText => c.clearOfHalves ?_⟩
      · obtain ⟨rfl, hMinutes⟩ := hReads.unique reads_munich.2
        cases hMinutes
        decide +kernel
      · exact c.decimals_length_le.trans (hText ▸ by decide)
  refine ⟨hClear, (decodesRightly_iff munich hClear).mpr ?_⟩
  intro rmc hLine _ latDeg latMinutes lonDeg lonMinutes hLat hLon
  cases rmcOf_munich.symm.trans hLine
  obtain ⟨rfl, rfl⟩ := hLat.unique reads_munich.1
  obtain ⟨rfl, rfl⟩ := hLon.unique reads_munich.2
  have hSeconds : PyNumber.float (dropFirst "123519" 4) = some (.finite 19) := by decide +kernel
  refine ⟨⟨_, rfl, by decide +kernel⟩, ⟨_, rfl, by decide +kernel⟩, ?_, ?_⟩
  · rintro ⟨-, -, -, -, ⟨s, hInfinite⟩ | ⟨q, hFinite, hMany, -⟩⟩
    · cases hSeconds.symm.trans hInfinite
    · cases hSeconds.symm.trans hFinite
      exact absurd hMany (by decide)
  · intro t decimals _ _ _ hTime _ hNext
    have hDigits : ['1', '9'] = twoDigits t.second := by
      have hList := congrArg (fun s : String => (s.toList.drop 4).take 2) hTime
      simp only [timeText, String.toList_ofList] at hList
      exact hList
    have hSecond := value_twoDigits (show t.second ≤ 99 by have := t.validSecond; omega)
    rw [← hDigits] at hSecond
    rw [← hSecond, hSeconds] at hNext
    revert hNext
    decide +kernel

/-- One sentence whose seconds raise, and one that lies beyond the pole. -/
theorem corrupt_sentences :
    ¬ DecodesRightly "$GPRMC,1235inf,A,4807.038,N,01131.000,E,022.4,084.4,230324,003.1,W" ∧
      ¬ DecodesRightly "$GPRMC,123519,A,9959.990,N,01131.000,E,022.4,084.4,230324,003.1,W" := by
  constructor
  · intro h
    have hRaise : parseRmc "$GPRMC,1235inf,A,4807.038,N,01131.000,E,022.4,084.4,230324,003.1,W" =
        .error .overflowError := by decide +kernel
    obtain ⟨found, hFound⟩ := h.returns
    rw [hRaise] at hFound
    cases hFound
  · intro h
    have hFix : parseRmc "$GPRMC,123519,A,9959.990,N,01131.000,E,022.4,084.4,230324,003.1,W" =
        .ok (some ⟨.ofRat 99.999833, .ofRat 11.516667, some 1711197319, .ofRat 22.4,
          .ofRat 84.4⟩) := by decide +kernel
    obtain ⟨⟨q, hq, hRange⟩, -⟩ := h.inRange _ hFix
    have hLat : PyFloat.ofRat 99.999833 = .finite (Binary64.nearest 99.999833) := by decide +kernel
    cases hLat.symm.trans hq
    exact absurd hRange (by decide +kernel)

end Lines

end WattPost.Gps
