import Mathlib.Data.Int.Basic
import Mathlib.Data.Nat.Notation
import Mathlib.Tactic.Ring
import WattPost.Lib.PyText

/-! Local time: the calendar, wall-clock times and their ISO texts, and the clock
of a zone as its distance from UTC at each instant. Instants are seconds since
1970. -/
namespace LocalTime

/-! ### Zones -/

/-- The clock of a place: how far it is ahead of UTC at an instant. -/
structure Zone where
  offset : Int → Int

/-- The zone that is always the same distance ahead. -/
def Zone.fixed (offset : Int) : Zone := ⟨fun _ => offset⟩

/-- The seconds since 1970 that the local clock shows. -/
def Zone.localSeconds (zone : Zone) (instant : Int) : Int := instant + zone.offset instant

/-- The number of the local calendar day. -/
def Zone.dayOf (zone : Zone) (instant : Int) : Int := zone.localSeconds instant / 86400

/-- `datetime.weekday()`: Monday is zero, and day zero was a Thursday. -/
def weekday (day : Int) : Nat := ((day + 3) % 7).toNat

/-- Whether `datetime.fromtimestamp` marks the time as the second of two: a day
earlier the clock was ahead, and it showed the same time that much before. -/
def Zone.fold (zone : Zone) (instant : Int) : Bool :=
  let shift := zone.localSeconds instant - zone.localSeconds (instant - 86400) - 86400
  shift < 0 && zone.localSeconds (instant + shift) = zone.localSeconds instant

/-- `datetime.timestamp()` of a naive time: an instant at which the clock shows
it; of two such instants the first, or the second when it is marked; in a gap
the two offsets around it are tried on. -/
def Zone.mktime (zone : Zone) (wall : Int) (fold : Bool) : Int :=
  let a := zone.offset wall
  let u₁ := wall - a
  let t₁ := zone.localSeconds u₁
  let probe := if fold then u₁ + 86400 else u₁ - 86400
  let b := if t₁ = wall then zone.offset probe else t₁ - u₁
  if t₁ = wall ∧ a = b then u₁
  else
    let u₂ := wall - b
    if zone.localSeconds u₂ = wall then u₂
    else if t₁ = wall then u₁
    else if fold then min u₁ u₂
    else max u₁ u₂

/-- Local midnight of the day of an instant, as `dt.replace(hour=0, ...)` and then
`timestamp()` give it; the mark of the second time is kept. -/
def Zone.midnight (zone : Zone) (instant : Int) : Int :=
  zone.mktime (zone.dayOf instant * 86400) (zone.fold instant)

theorem Zone.midnight_fixed (offset instant : Int) :
    (Zone.fixed offset).midnight instant = (Zone.fixed offset).dayOf instant * 86400 - offset := by
  simp [midnight, mktime, Zone.fixed, localSeconds]

/-! ### The calendar -/

def isLeap (year : Nat) : Bool := year % 4 = 0 && (year % 100 ≠ 0 || year % 400 = 0)

def daysInMonth (year month : Nat) : Nat :=
  if month = 2 then (if isLeap year then 29 else 28)
  else if month = 4 ∨ month = 6 ∨ month = 9 ∨ month = 11 then 30
  else 31

/-- The days of the years before this one. -/
def daysBeforeYear (year : Nat) : Nat :=
  let y := year - 1
  y * 365 + y / 4 - y / 100 + y / 400

def daysBeforeMonth (year month : Nat) : Nat :=
  ((List.range (month - 1)).map fun m => daysInMonth year (m + 1)).sum

/-- `date.toordinal()`, with 0001-01-01 as day one. -/
def toOrdinal (year month day : Nat) : Nat :=
  daysBeforeYear year + daysBeforeMonth year month + day

/-- The ordinal of 1970-01-01. -/
def epochOrdinal : Nat := 719163

/-- A time that a clock can show. -/
structure WallTime where
  year : Nat
  month : Nat
  day : Nat
  hour : Nat
  minute : Nat
  second : Nat
  validYear : 1 ≤ year ∧ year ≤ 9999
  validMonth : 1 ≤ month ∧ month ≤ 12
  validDay : 1 ≤ day ∧ day ≤ daysInMonth year month
  validHour : hour ≤ 23
  validMinute : minute ≤ 59
  validSecond : second ≤ 59

/-- The seconds from 1970 to a wall-clock time, on one clock. -/
def WallTime.seconds (t : WallTime) : Int :=
  ((toOrdinal t.year t.month t.day : Int) - epochOrdinal) * 86400 + t.hour * 3600 +
    t.minute * 60 + t.second

/-- At the instant the clock of the zone shows the time. -/
def Zone.Shows (zone : Zone) (instant : Int) (t : WallTime) : Prop :=
  zone.localSeconds instant = t.seconds

instance (zone : Zone) (instant : Int) (t : WallTime) : Decidable (zone.Shows instant t) :=
  inferInstanceAs (Decidable (_ = _))

/-! ### ISO texts -/

def digit (n : Nat) : Char := Nat.digitChar (n % 10)

def twoDigits (n : Nat) : List Char := [digit (n / 10), digit n]

def fourDigits (n : Nat) : List Char :=
  [digit (n / 1000), digit (n / 100), digit (n / 10), digit n]

/-- `2026-05-13T17:30`, or with seconds. -/
def WallTime.isoChars (t : WallTime) (withSeconds : Bool) : List Char :=
  fourDigits t.year ++ '-' :: twoDigits t.month ++ '-' :: twoDigits t.day ++ 'T' ::
    twoDigits t.hour ++ ':' :: twoDigits t.minute ++
    (if withSeconds then ':' :: twoDigits t.second else [])

def WallTime.iso (t : WallTime) (withSeconds : Bool) : String :=
  String.ofList (t.isoChars withSeconds)

/-- A parsed text: the time, and the distance from UTC when the text has one. -/
structure Stamp where
  time : WallTime
  utcOffset : Option Int

/-- The end of a text: nothing, `Z`, or a signed `HH:MM`. -/
def parseOffset : List Char → Option (Option Int)
  | [] => some none
  | ['Z'] => some (some 0)
  | [sign, h₁, h₂, ':', m₁, m₂] => do
      let h ← PyText.digitsValue [h₁, h₂]
      let m ← PyText.digitsValue [m₁, m₂]
      if h ≤ 23 ∧ m ≤ 59 then
        match sign with
        | '+' => some (some (h * 3600 + m * 60))
        | '-' => some (some (-(h * 3600 + m * 60)))
        | _ => none
      else none
  | _ => none

/-- The fields of a time that exists. -/
def mkTime (year month day hour minute second : Nat) : Option WallTime :=
  if h : ((1 ≤ year ∧ year ≤ 9999) ∧ (1 ≤ month ∧ month ≤ 12) ∧
      1 ≤ day ∧ day ≤ daysInMonth year month) ∧ hour ≤ 23 ∧ minute ≤ 59 ∧ second ≤ 59 then
    some ⟨year, month, day, hour, minute, second, h.1.1, h.1.2.1, h.1.2.2, h.2.1, h.2.2.1, h.2.2.2⟩
  else none

/-- `datetime.fromisoformat` on `YYYY-MM-DD?HH:MM[:SS][Z|±HH:MM]`, where any
character may stand before the hour. -/
def fromIsoFormat (s : String) : Option Stamp :=
  match s.toList with
  | y₁ :: y₂ :: y₃ :: y₄ :: '-' :: mo₁ :: mo₂ :: '-' :: d₁ :: d₂ :: _ :: h₁ :: h₂ :: ':' :: mi₁ ::
      mi₂ :: rest => do
      let year ← PyText.digitsValue [y₁, y₂, y₃, y₄]
      let month ← PyText.digitsValue [mo₁, mo₂]
      let day ← PyText.digitsValue [d₁, d₂]
      let hour ← PyText.digitsValue [h₁, h₂]
      let minute ← PyText.digitsValue [mi₁, mi₂]
      match rest with
      | ':' :: s₁ :: s₂ :: tail => do
          let second ← PyText.digitsValue [s₁, s₂]
          let time ← mkTime year month day hour minute second
          let utcOffset ← parseOffset tail
          some ⟨time, utcOffset⟩
      | tail => do
          let time ← mkTime year month day hour minute 0
          let utcOffset ← parseOffset tail
          some ⟨time, utcOffset⟩
  | _ => none

theorem digit_isDigit (n : Nat) : (digit n).isDigit = true := by
  have hLt := Nat.mod_lt n (show 10 > 0 by omega)
  simp only [digit, Nat.isDigit_digitChar, decide_eq_true_eq]
  exact hLt

theorem digit_value (n : Nat) : (digit n).toNat - '0'.toNat = n % 10 := by
  have hLt := Nat.mod_lt n (show 10 > 0 by omega)
  rw [digit, Nat.toNat_digitChar_of_lt_ten hLt]
  exact Nat.add_sub_cancel_left 48 (n % 10)

theorem digitsValue_twoDigits {n : Nat} (h : n ≤ 99) :
    PyText.digitsValue (twoDigits n) = some n := by
  simp only [PyText.digitsValue, twoDigits, List.isEmpty_cons, List.all_cons, List.all_nil,
    digit_isDigit, Bool.and_self, Bool.not_true, Bool.or_self, Bool.false_eq_true, if_false,
    List.foldl_cons, List.foldl_nil, digit_value, Option.some.injEq]
  omega

theorem digitsValue_fourDigits {n : Nat} (h : n ≤ 9999) :
    PyText.digitsValue (fourDigits n) = some n := by
  simp only [PyText.digitsValue, fourDigits, List.isEmpty_cons, List.all_cons, List.all_nil,
    digit_isDigit, Bool.and_self, Bool.not_true, Bool.or_self, Bool.false_eq_true, if_false,
    List.foldl_cons, List.foldl_nil, digit_value, Option.some.injEq]
  omega

/-- The parser reads back every time that a clock can show. -/
theorem fromIsoFormat_iso (t : WallTime) (withSeconds : Bool)
    (hSecond : withSeconds = false → t.second = 0) :
    fromIsoFormat (t.iso withSeconds) = some ⟨t, none⟩ := by
  have hYear := digitsValue_fourDigits t.validYear.2
  have hMonth : PyText.digitsValue (twoDigits t.month) = some t.month :=
    digitsValue_twoDigits (by have := t.validMonth; omega)
  have hDay : PyText.digitsValue (twoDigits t.day) = some t.day := by
    have hLe : daysInMonth t.year t.month ≤ 31 := by
      unfold daysInMonth
      split_ifs <;> omega
    exact digitsValue_twoDigits (by have := t.validDay; omega)
  have hHour : PyText.digitsValue (twoDigits t.hour) = some t.hour :=
    digitsValue_twoDigits (by have := t.validHour; omega)
  have hMinute : PyText.digitsValue (twoDigits t.minute) = some t.minute :=
    digitsValue_twoDigits (by have := t.validMinute; omega)
  have hSec : PyText.digitsValue (twoDigits t.second) = some t.second :=
    digitsValue_twoDigits (by have := t.validSecond; omega)
  have hTime : mkTime t.year t.month t.day t.hour t.minute t.second = some t := by
    rw [mkTime, dif_pos ⟨⟨t.validYear, t.validMonth, t.validDay⟩, t.validHour, t.validMinute,
      t.validSecond⟩]
  simp only [fourDigits, twoDigits] at hYear hMonth hDay hHour hMinute hSec
  cases withSeconds with
  | true =>
      simp [fromIsoFormat, WallTime.iso, WallTime.isoChars, fourDigits, twoDigits, hYear, hMonth,
        hDay, hHour, hMinute, hSec, hTime, parseOffset]
  | false =>
      rw [hSecond rfl] at hTime
      simp [fromIsoFormat, WallTime.iso, WallTime.isoChars, fourDigits, twoDigits, hYear, hMonth,
        hDay, hHour, hMinute, hTime, parseOffset]

/-- The text is the time in local ISO form, with seconds or, on a full minute,
without. -/
def WallTime.Writes (t : WallTime) (text : String) : Prop :=
  text = t.iso true ∨ (text = t.iso false ∧ t.second = 0)

theorem WallTime.Writes.parse {t : WallTime} {text : String} (h : t.Writes text) :
    fromIsoFormat text = some ⟨t, none⟩ := by
  rcases h with rfl | ⟨rfl, hSecond⟩
  · exact fromIsoFormat_iso t true (fun hFalse => nomatch hFalse)
  · exact fromIsoFormat_iso t false (fun _ => hSecond)

/-- A time that is read as UTC is the true instant where the clock shows UTC, and
nowhere else. -/
theorem Zone.Shows.seconds_eq_iff {zone : Zone} {instant : Int} {t : WallTime}
    (h : zone.Shows instant t) : t.seconds = instant ↔ zone.offset instant = 0 := by
  unfold Zone.Shows Zone.localSeconds at h
  omega

end LocalTime
