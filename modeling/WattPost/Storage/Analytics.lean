import WattPost.Lib.LocalTime
import WattPost.Lib.PairScan
import WattPost.Lib.PyDict
import WattPost.Storage.Schema

/-! The energy queries of the store: the power of the battery bank from the samples
of its packs, what the day's samples add up to, and the load by weekday and hour.
Values are exact rationals. -/
namespace WattPost.Storage

open Keyed PairScan LocalTime

/-! ### The power of the bank -/

/-- `device LIKE 'battery_%'`: the underscore stands for any one character, and
letters match in either case. -/
def likeBattery (device : String) : Bool :=
  let cs := device.toList
  (cs.take 7).map Char.toLower = "battery".toList && 8 ≤ cs.length

/-- The voltage of a device times its current, where it has samples of both. -/
def packPower (samples : Table Key ℚ) (ts : ℕ) (device : String) : Option ℚ := do
  let v ← samples.lookup ⟨ts, device, "voltage_v"⟩
  let i ← samples.lookup ⟨ts, device, "current_a"⟩
  return v * i

/-- `samples v JOIN samples i ON v.ts = i.ts AND v.device = i.device`, with the
metrics, the devices and the window of the `WHERE`; the key of `samples` leaves one
partner at most. -/
def packRows (samples : Table Key ℚ) (window : ℕ → Bool) : List ((ℕ ×ₗ String) × ℚ) :=
  samples.rows.filterMap fun v =>
    if v.1.metric = "voltage_v" && likeBattery v.1.device && window v.1.ts then
      (samples.lookup { v.1 with metric := "current_a" }).map fun i =>
        (toLex (v.1.ts, v.1.device), v.2 * i)
    else none

/-- `SELECT v.ts, SUM(v.value * i.value) AS bank_w ... GROUP BY v.ts ORDER BY v.ts`. -/
def bankRows (samples : Table Key ℚ) (window : ℕ → Bool) : Table ℕ ℚ :=
  groupBy (fun k : ℕ ×ₗ String => (ofLex k).1) (fun w ws => (w :: ws).sum)
    (packRows samples window)

/-- `ts BETWEEN ? AND ?`. -/
def between (lo hi : Int) (ts : ℕ) : Bool := lo ≤ ts && ts ≤ hi

/-- `rolling_load_avg`. -/
def rollingLoadAvg (samples : Table Key ℚ) (now windowSeconds : Int) : Option ℚ :=
  match (packRows samples fun ts => now - windowSeconds ≤ ts).map Prod.snd with
  | [] => none
  | w :: ws => some (SqlReal.avg (w :: ws))

/-! ### Integration -/

/-- `(ts - prev_ts) / 3600.0`. -/
def hoursBetween (a b : ℕ) : ℚ := ((b : ℚ) - a) / 3600

/-- The trapezoid over two neighbouring values of a power. -/
def trapezoid (a b : ℕ × ℚ) : ℚ := (a.2 + b.2) / 2 * hoursBetween a.1 b.1

/-- One step of the walk over the bank's power: what it charged and what it gave. -/
def bankEnergy (a b : ℕ × ℚ) : ℚ × ℚ :=
  let e := trapezoid a b
  if 0 < e then (e, 0) else (0, -e)

/-- `charged_wh` and `discharged_wh` of a window, as `today_aggregate` and
`battery_health_aggregate` walk it. -/
def chargedDischarged (samples : Table Key ℚ) (lo hi : Int) : ℚ × ℚ :=
  ((bankRows samples (between lo hi)).rows.foldl (scan bankEnergy) (none, 0)).2

/-- `SELECT device, ts, value FROM samples WHERE metric = ? AND ts >= ? AND ts <= ?
ORDER BY device, ts`. -/
def metricRows (samples : Table Key ℚ) (metric : String) (lo hi : Int) :
    Table (String ×ₗ ℕ) ℚ :=
  Table.empty.insertAll
    ((samples.rows.filter fun r => r.1.metric = metric && between lo hi r.1.ts).map fun r =>
      (toLex (r.1.device, r.1.ts), r.2))

/-- Two neighbouring rows of one device; a negative mean counts as none. -/
def integrateStep (a b : (String ×ₗ ℕ) × ℚ) : ℚ :=
  if (ofLex a.1).1 = (ofLex b.1).1 then
    max 0 ((a.2 + b.2) / 2) * hoursBetween (ofLex a.1).2 (ofLex b.1).2
  else 0

/-- `_integrate_metric`. -/
def integrateMetric (samples : Table Key ℚ) (lo hi : Int) (metric : String) : ℚ :=
  ((metricRows samples metric lo hi).rows.foldl (scan integrateStep) (none, 0)).2

/-- Two neighbouring counter values of one device: a drop is a reset. -/
def counterStep (a b : (String ×ₗ ℕ) × ℚ) : ℚ :=
  if (ofLex a.1).1 = (ofLex b.1).1 then (if a.2 ≤ b.2 then b.2 - a.2 else 0) else 0

/-- `pv_today_wh` before its rounding: the counters, and without a counter that
moved the integral of the power. -/
def pvTodayWh (samples : Table Key ℚ) (lo hi : Int) : ℚ :=
  let rows := (metricRows samples "energy_today_wh" lo hi).rows
  let counted := (rows.foldl (scan counterStep) (none, 0)).2
  if rows.isEmpty || counted ≤ 0 then integrateMetric samples lo hi "pv_power_w" else counted

/-- `today_aggregate`, with the numbers as they are before the rounding to a tenth. -/
structure TodayAggregate where
  sinceTs : Int
  nowTs : Int
  pvTodayWh : ℚ
  acChargerTodayWh : ℚ
  dcdcTodayWh : ℚ
  sourcesTodayWh : ℚ
  bankChargedTodayWh : ℚ
  bankDischargedTodayWh : ℚ
  bankNetTodayWh : ℚ
  loadTodayWh : ℚ
  pollCount : ℕ

def todayAggregate (samples : Table Key ℚ) (midnightTs nowTs : Int) : TodayAggregate :=
  let bank := chargedDischarged samples midnightTs nowTs
  let pv := pvTodayWh samples midnightTs nowTs
  let acCharger := integrateMetric samples midnightTs nowTs "output_1_power_w"
  let dcdc := integrateMetric samples midnightTs nowTs "output_power_w"
  let sources := pv + acCharger + dcdc
  { sinceTs := midnightTs
    nowTs := nowTs
    pvTodayWh := pv
    acChargerTodayWh := acCharger
    dcdcTodayWh := dcdc
    sourcesTodayWh := sources
    bankChargedTodayWh := bank.1
    bankDischargedTodayWh := bank.2
    bankNetTodayWh := bank.1 - bank.2
    loadTodayWh := max 0 (sources + bank.2 - bank.1)
    pollCount := (bankRows samples (between midnightTs nowTs)).rows.length }

/-- What `today_aggregate` answers with. -/
def TodayAggregate.rounded (t : TodayAggregate) : TodayAggregate :=
  { t with
    pvTodayWh := PyDict.round t.pvTodayWh 1
    acChargerTodayWh := PyDict.round t.acChargerTodayWh 1
    dcdcTodayWh := PyDict.round t.dcdcTodayWh 1
    sourcesTodayWh := PyDict.round t.sourcesTodayWh 1
    bankChargedTodayWh := PyDict.round t.bankChargedTodayWh 1
    bankDischargedTodayWh := PyDict.round t.bankDischargedTodayWh 1
    bankNetTodayWh := PyDict.round t.bankNetTodayWh 1
    loadTodayWh := PyDict.round t.loadTodayWh 1 }

end WattPost.Storage
