import WattPost.Lib.Runs
import WattPost.Storage.BankAggregate
import WattPost.Storage.Rollup

/-! `Store.record_poll` from the poll result to its rows: the rows of the devices,
the derived cell metrics, and the bank, for which the devices that did not answer
are filled in from `latest`. A device that delivers no measurement is still a
device that answered: it hides its own snapshot and refreshes its `last_seen`. -/
namespace WattPost.Storage

open Keyed PyDict Vendors Runs

/-- What the orchestrator hands over. `errorsRepr` is `repr(errors)` when there
are errors. -/
structure PollResult where
  devices : Dict PollDict
  elapsedSeconds : ℚ
  errorsCount : Nat
  errorsRepr : Option String

/-- `_META_KEYS`. -/
def metaKeys : List String := ["_vendor", "_kind", "_label", "_slave_id", "_errors"]

/-- A text under a key, which every driver sets. -/
def textOf (v : Option PyVal) : String :=
  match v with
  | some (.text s) => s
  | _ => ""

def slaveIdOf (v : Option PyVal) : Option Int :=
  match v with
  | some (.num q) => some q.num
  | _ => none

/-- The numeric readings of a device; bools, lists and `None` are skipped. -/
def numReadings (label : String) (data : PollDict) : List (String × String × ℚ) :=
  data.entries.filterMap fun e =>
    match metaKeys.contains e.1, e.2 with
    | false, .num q => some (label, e.1, q)
    | _, _ => none

def strReadings (label : String) (data : PollDict) : List (String × String × String) :=
  data.entries.filterMap fun e =>
    match metaKeys.contains e.1, e.2 with
    | false, .text s => some (label, e.1, s)
    | _, _ => none

/-- `cell_min_v`, `cell_max_v` and `cell_drift_v` of a smart battery. -/
def derivedReadings (label : String) (data : PollDict) : Option (List (String × String × ℚ)) :=
  if isBattery data then
    (cellVolts data).map fun cells =>
      match extremes cells with
      | some (low, high) =>
          [(label, "cell_min_v", low), (label, "cell_max_v", high),
            (label, "cell_drift_v", high - low)]
      | none => []
  else some []

/-- `if not data: continue`: an empty dictionary is no device. -/
def answered (devices : Dict PollDict) : List (String × PollDict) :=
  devices.entries.filter fun e => !e.2.entries.isEmpty

def metaRow (e : String × PollDict) : String × String × String × Option Int :=
  (e.1, textOf (e.2.get "_vendor"), textOf (e.2.get "_kind"), slaveIdOf (e.2.get "_slave_id"))

/-! ### The bank -/

/-- `BANK_AGGREGATE_STALE_S`. -/
def bankAggregateStaleS : Int := 300

/-- `kind IN ('smart_battery', 'shunt')`. -/
def isBankKind (k : String) : Bool := k = "smart_battery" || k = "shunt"

/-- `value_num if value_num is not None else value_str`. -/
def latestValue (row : LatestRow ℚ) : PyVal :=
  match row.valueNum, row.valueStr with
  | some q, _ => .num q
  | none, some s => .text s
  | none, none => .none

/-- A device as `latest` and `device_meta` remember it. -/
def snapshot (db : Db ℚ) (label : String) (row : DeviceMeta) : PollDict :=
  (Dict.ofList
    [("_vendor", .text row.vendor), ("_kind", .text row.kind),
      ("_slave_id", row.slaveId.elim .none fun id => .num id), ("_last_seen", .num row.lastSeen)]).setAll
    ((db.latest.rows.filter fun e => (ofLex e.1).1 = label).map fun e =>
      ((ofLex e.1).2, latestValue e.2))

/-- Whether a row of `device_meta` fills in for a device that did not answer. -/
def fillsIn (labels : List String) (now : Nat) (e : String × DeviceMeta) : Bool :=
  isBankKind e.2.kind && !(labels.contains e.1) &&
    (now : Int) - e.2.lastSeen ≤ bankAggregateStaleS

/-- `_augment_for_bank`. The rows of `device_meta` come in key order here; SQLite
promises none. -/
def augmentForBank (db : Db ℚ) (devices : Dict PollDict) (now : Nat) : List (String × PollDict) :=
  devices.entries ++
    ((db.deviceMeta.rows.filter (fillsIn devices.keys now)).map fun e =>
      (e.1, snapshot db e.1 e.2))

/-- The bank that `record_poll` writes; `none` when it raises. -/
def bankOf (settings : BankSettings) (db : Db ℚ) (devices : Dict PollDict) (now : Nat) :
    Option (Option BankAggregate) :=
  computeBankAggregate settings ((augmentForBank db devices now).map Prod.snd)

/-- The rows of `_record_poll_locked`. -/
def pollRows (settings : BankSettings) (db : Db ℚ) (result : PollResult) (ts : Nat) :
    Option (PollRows ℚ) := do
  let live := answered result.devices
  let derived ← live.mapM fun e => derivedReadings e.1 e.2
  let bank ← bankOf settings db result.devices ts
  some
    { ts := ts
      num := (List.zipWith (fun e cells => numReadings e.1 e.2 ++ cells) live derived).flatten ++
        bank.elim [] fun b => b.numFields.map fun f => ("bank", f.1, f.2)
      str := live.flatMap (fun e => strReadings e.1 e.2) ++
        bank.elim [] fun b => b.strFields.map fun f => ("bank", f.1, f.2)
      deviceMeta := live.map metaRow ++
        bank.elim [] fun _ => [("bank", "internal", "bank", none)]
      run :=
        { elapsedMs := roundHalfEven (result.elapsedSeconds * 1000)
          devicesOk := live.length
          errorsCount := result.errorsCount
          errorsJson := result.errorsRepr } }

end WattPost.Storage
