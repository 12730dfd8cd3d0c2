import Mathlib.Data.Prod.Lex
import Mathlib.Data.Rat.Defs
import Mathlib.Algebra.Order.Ring.Rat
import Mathlib.Data.String.Basic
import WattPost.Lib.Table

/-! The tables of the telemetry store. Timestamps stored in a table are unix
seconds and never negative, so SQLite's truncating `/` and Python's flooring
`//` agree on them; clock readings and cutoffs computed from them are integers.
A `NaN` cannot be stored, because every `REAL` column is `NOT NULL`. -/
namespace WattPost.Storage

open Keyed

/-- The values of a `REAL` column. `avg` is SQLite's `AVG` of a group and
`isfinite` is `math.isfinite`; a group of finite values has a finite average.
A group holding both infinities, whose `AVG` is `NULL`, is not modelled. -/
class SqlReal (V : Type) extends LinearOrder V where
  avg : List V → V
  isfinite : V → Bool
  isfinite_avg : ∀ vs : List V, (∀ v ∈ vs, isfinite v = true) → isfinite (avg vs) = true

/-- Exact rational readings. -/
instance : SqlReal ℚ where
  avg vs := vs.sum / vs.length
  isfinite _ := true
  isfinite_avg _ _ := rfl

/-- The primary key `(ts, device, metric)` of `samples` and `samples_str`, and
`(bucket_ts, device, metric)` of the rollup tables. -/
structure Key where
  ts : Nat
  device : String
  metric : String
deriving DecidableEq, Repr

namespace Key

def lex (k : Key) : ℕ ×ₗ String ×ₗ String := toLex (k.ts, toLex (k.device, k.metric))

theorem lex_injective : Function.Injective lex := by
  rintro ⟨ts, device, metric⟩ ⟨ts', device', metric'⟩ h
  simpa [lex, Prod.ext_iff] using h

/-- `ORDER BY ts, device, metric` under the `BINARY` collation. -/
instance : LinearOrder Key := LinearOrder.lift' lex lex_injective

theorem lt_of_ts_lt {k k' : Key} (h : k.ts < k'.ts) : k < k' :=
  Prod.Lex.toLex_lt_toLex.mpr (Or.inl h)

theorem ts_le_of_lt {k k' : Key} (h : k < k') : k.ts ≤ k'.ts := by
  rcases Prod.Lex.toLex_lt_toLex.mp (show lex k < lex k' from h) with h | ⟨h, _⟩
  · exact le_of_lt h
  · exact le_of_eq h

/-- The key of the rollup row of width `w` that the row with this key is
counted in: `(ts / w) * w`, with the same device and metric. -/
def bucket (w : Nat) (k : Key) : Key := { k with ts := k.ts / w * w }

@[simp] theorem bucket_ts (w : Nat) (k : Key) : (k.bucket w).ts = k.ts / w * w := rfl

theorem bucket_ts_le (w : Nat) (k : Key) : (k.bucket w).ts ≤ k.ts := Nat.div_mul_le_self _ _

theorem lt_bucket_ts_add {w : Nat} (hw : 0 < w) (k : Key) : k.ts < (k.bucket w).ts + w := by
  have := Nat.lt_div_mul_add (a := k.ts) hw
  simpa using this

/-- Buckets of a wider level are unions of buckets of a narrower one. -/
theorem bucket_bucket (w m : Nat) (k : Key) : (k.bucket w).bucket (w * m) = k.bucket (w * m) := by
  rcases Nat.eq_zero_or_pos w with rfl | hw
  · simp [bucket]
  · simp [bucket, ← Nat.div_div_eq_div_mul, Nat.mul_div_cancel _ hw]

end Key

/-- A row of `samples_1min`, `samples_1hour` or `samples_1day`. -/
structure RollupRow (V : Type) where
  avg : V
  min : V
  max : V
  n : Nat
deriving DecidableEq, Repr

/-- A rollup table of bucket width `w`: each bucket starts at a multiple of
`w`, since every writer inserts `(ts / w) * w`. -/
structure RollupTable (w : Nat) (V : Type) where
  table : Table Key (RollupRow V)
  aligned : ∀ k, table.Has k → w ∣ k.ts

namespace RollupTable

variable {w : Nat} {V : Type}

def empty : RollupTable w V := ⟨Table.empty, by rintro k ⟨r, h⟩; cases h⟩

@[ext] theorem ext_lookup {t u : RollupTable w V}
    (h : ∀ k, t.table.lookup k = u.table.lookup k) : t = u := by
  obtain ⟨t, _⟩ := t
  obtain ⟨u, _⟩ := u
  have : t = u := Table.ext_lookup h
  subst this
  rfl

/-- `DELETE FROM t WHERE bucket_ts < c`. -/
def deleteBefore (t : RollupTable w V) (c : Int) : RollupTable w V where
  table := t.table.filterKeys (fun k => c ≤ k.ts)
  aligned k h := t.aligned k (Table.has_filterKeys.mp h).1

@[simp] theorem lookup_deleteBefore (t : RollupTable w V) (c : Int) (k : Key) :
    (t.deleteBefore c).table.lookup k = if c ≤ k.ts then t.table.lookup k else none := by
  simp [deleteBefore]

theorem has_deleteBefore {t : RollupTable w V} {c : Int} {k : Key} :
    (t.deleteBefore c).table.Has k ↔ t.table.Has k ∧ c ≤ k.ts := by
  simp [deleteBefore, Table.has_filterKeys]

end RollupTable

/-- A row of `latest`: one of the two values is set. -/
structure LatestRow (V : Type) where
  ts : Nat
  valueNum : Option V
  valueStr : Option String

/-- A row of `device_meta`, without the user's display name. -/
structure DeviceMeta where
  vendor : String
  kind : String
  slaveId : Option Int
  firstSeen : Nat
  lastSeen : Nat

/-- A row of `poll_runs`. -/
structure PollRun where
  elapsedMs : Int
  devicesOk : Nat
  errorsCount : Nat
  errorsJson : Option String

/-- A row of `host_samples`, which has no primary key. -/
structure HostSample (V : Type) where
  ts : Nat
  metric : String
  value : V

/-- A row of `forecast_history` under its key `(fetched_at, period_end)`. -/
structure ForecastPoint (V : Type) where
  pvW : V
  pvWP10 : Option V
  pvWP90 : Option V

/-- The tables that `record_poll` and `rollup_and_purge` read or write. -/
structure Db (V : Type) where
  samples : Table Key V
  samplesStr : Table Key String
  samples1min : RollupTable 60 V
  samples1hour : RollupTable 3600 V
  samples1day : RollupTable 86400 V
  latest : Table (String ×ₗ String) (LatestRow V)
  deviceMeta : Table String DeviceMeta
  pollRuns : Table Nat PollRun
  hostSamples : List (HostSample V)
  forecastHistory : Table (ℕ ×ₗ ℕ) (ForecastPoint V)

/-- A freshly created database. -/
def Db.empty {V : Type} : Db V where
  samples := Table.empty
  samplesStr := Table.empty
  samples1min := RollupTable.empty
  samples1hour := RollupTable.empty
  samples1day := RollupTable.empty
  latest := Table.empty
  deviceMeta := Table.empty
  pollRuns := Table.empty
  hostSamples := []
  forecastHistory := Table.empty

/-- The live retention windows, in seconds. -/
structure Retention where
  raw : Int
  oneMin : Int
  oneHour : Int
deriving DecidableEq, Repr

namespace Retention

/-- `RETENTION_RAW`, `RETENTION_1MIN` and `RETENTION_1HOUR`. -/
def default : Retention := ⟨7 * 86400, 30 * 86400, 365 * 86400⟩

/-- `Store.set_retention_policy`: `none` keeps a window; the others are clamped
from below so that a zero does not wipe the history. -/
def setRetentionPolicy (r : Retention) (rawDays minDays hourDays : Option Int) : Retention where
  raw := rawDays.elim r.raw (fun d => max 1 d * 86400)
  oneMin := minDays.elim r.oneMin (fun d => max 1 d * 86400)
  oneHour := hourDays.elim r.oneHour (fun d => max 7 d * 86400)

end Retention

end WattPost.Storage
