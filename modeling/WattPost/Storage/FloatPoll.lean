import Mathlib.Data.List.ReduceOption
import WattPost.Storage.BankLatest
import WattPost.Storage.FloatBank

/-! `Store.record_poll` on results whose numbers are floats. All rows of a poll go
into one transaction: a `nan` is bound as `NULL`, which a `NOT NULL` column
refuses, and then nothing of the poll is written. -/
namespace WattPost.Storage

open Keyed PyDict Vendors

structure FloatResult where
  devices : Dict FloatDict
  elapsedSeconds : ℚ
  errorsCount : Nat
  errorsRepr : Option String

/-! ### The rows -/

/-- An integer column takes a whole float for its integer. -/
def scalarSlaveId (v : Option PyScalar) : Option Int :=
  match v with
  | some (.int n) => some n
  | some (.float (.finite q)) => some q.num
  | _ => none

/-- The row of a number, or none; the outer `none` is the error of `float`. -/
def numRow (label : String) (e : String × PyScalar) :
    Option (Option (String × String × PyFloat)) :=
  e.2.number.map fun x => x.map fun x => (label, e.1, x)

def strRow (label : String) (e : String × PyScalar) : Option (String × String × PyStr) :=
  match e.2 with
  | .text s => some (label, e.1, s)
  | _ => none

/-- The entries that are metrics. -/
def metricEntries (data : FloatDict) : List (String × PyScalar) :=
  data.entries.filter fun e => !(metaKeys.contains e.1)

/-- The numeric rows of some entries. -/
def numRows (label : String) (entries : List (String × PyScalar)) :
    Option (List (String × String × PyFloat)) :=
  (entries.mapM (numRow label)).map List.reduceOption

def strRows (label : String) (entries : List (String × PyScalar)) :
    List (String × String × PyStr) :=
  entries.filterMap (strRow label)

/-- The derived rows of a smart battery. -/
def derivedRows (label : String) (data : FloatDict) :
    Option (List (String × String × PyFloat)) :=
  if floatKind data = "smart_battery" then
    (floatCellVolts data).map fun cells =>
      match PyFloat.minOf cells, PyFloat.maxOf cells with
      | some low, some high =>
          [(label, "cell_min_v", low), (label, "cell_max_v", high),
            (label, "cell_drift_v", high.sub low)]
      | _, _ => []
  else some []

/-- The devices that answered: `if not data: continue`. -/
def answeredFloat (devices : Dict FloatDict) : List (String × FloatDict) :=
  devices.entries.filter fun e => !e.2.entries.isEmpty

/-- The numeric rows of a device: its metrics, and then the derived ones. -/
def deviceRows (e : String × FloatDict) : Option (List (String × String × PyFloat)) := do
  let own ← numRows e.1 (metricEntries e.2)
  let derived ← derivedRows e.1 e.2
  some (own ++ derived)

/-- What `_record_poll_locked` has gathered before it writes. -/
structure GatheredRows where
  ts : Nat
  num : List (String × String × PyFloat)
  str : List (String × String × PyStr)
  deviceMeta : List (String × String × String × Option Int)
  run : PollRun

/-- The rows of a poll. -/
def gatherRows (settings : BankSettings) (db : Db SqlFloat) (result : FloatResult) (ts : Nat) :
    Option GatheredRows := do
  let live := answeredFloat result.devices
  let num ← live.mapM deviceRows
  let bank ← floatBankOf settings db result.devices ts
  let bankNum ← bank.elim (some []) fun b => numRows "bank" b.entries
  some
    { ts := ts
      num := num.flatten ++ bankNum
      str := live.flatMap (fun e => strRows e.1 (metricEntries e.2)) ++
        bank.elim [] fun b => strRows "bank" b.entries
      deviceMeta := live.map (fun e => (e.1, scalarText (e.2.get "_vendor"),
          floatKind e.2, scalarSlaveId (e.2.get "_slave_id"))) ++
        bank.elim [] fun _ => [("bank", "internal", "bank", none)]
      run :=
        { elapsedMs := roundHalfEven (result.elapsedSeconds * 1000)
          devicesOk := live.length
          errorsCount := result.errorsCount
          errorsJson := result.errorsRepr } }

/-! ### The transaction -/

/-- A bound number: `nan` is `NULL`, which the column refuses. -/
def bindNum (x : String × String × PyFloat) : Option (String × String × SqlFloat) :=
  if h : x.2.2 ≠ .nan then some (x.1, x.2.1, ⟨x.2.2, h⟩) else none

/-- A bound text: a lone surrogate cannot be encoded. -/
def bindStr (x : String × String × PyStr) : Option (String × String × String) :=
  match x.2.2 with
  | .utf8 s => some (x.1, x.2.1, s)
  | .surrogates => none

/-- The rows as SQLite takes them, or an exception at one of them. -/
def bindRows (rows : GatheredRows) : Option (PollRows SqlFloat) := do
  let num ← rows.num.mapM bindNum
  let str ← rows.str.mapM bindStr
  some ⟨rows.ts, num, str, rows.deviceMeta, rows.run⟩

/-- `Store.record_poll`. An exception before the transaction writes nothing, and
one inside it is rolled back. -/
def recordFloatPoll (settings : BankSettings) (db : Db SqlFloat) (result : FloatResult)
    (ts : Nat) : Db SqlFloat :=
  ((gatherRows settings db result ts).bind bindRows).elim db fun rows =>
    Storage.recordPoll rows db

end WattPost.Storage
