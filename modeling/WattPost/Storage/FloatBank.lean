import WattPost.Lib.PyNumber
import WattPost.Storage.RecordPoll

/-! `_augment_for_bank` and `_compute_bank_aggregate` on floats as they are: rounded, infinite
or `nan`. The figures of `BankAggregate` are those of exact numbers; here every sum, product
and quotient is the double that Python computes, and `none` is a call that raises. -/
namespace WattPost.Storage

open Keyed PyDict Vendors

/-- The result of a driver, before its numbers are known to be finite. -/
abbrev FloatDict := Dict PyScalar

/-- A value of a `REAL NOT NULL` column. -/
abbrev SqlFloat := { x : PyFloat // x ≠ .nan }

/-- A candidate for the bank's system-level figures. -/
abbrev FloatView := List (String × PyFloat)

def scalarText (v : Option PyScalar) : String :=
  match v with
  | some (.text (.utf8 s)) => s
  | _ => ""

/-- `bool(v)`, of a value that may be missing. -/
def scalarTruthy : Option PyScalar → Bool
  | none | some .none => false
  | some (.bool b) => b
  | some (.int n) => n ≠ 0
  | some (.float x) => x ≠ .finite 0
  | some (.text (.utf8 s)) => s ≠ ""
  | some (.text .surrogates) => true
  | some (.list items) => !items.isEmpty

/-- `v is not None`. -/
def scalarIsSome : Option PyScalar → Bool
  | none | some .none => false
  | _ => true

/-- `float(v)`. -/
def scalarFloat : Option PyScalar → Option PyFloat
  | some (.bool b) => some (.finite (if b then 1 else 0))
  | some (.int n) => PyFloat.ofInt n
  | some (.float x) => some x
  | some (.text (.utf8 s)) => PyNumber.float s
  | _ => none

/-- `int(v)` of a number. -/
def scalarInt : Option PyScalar → Option Int
  | some (.bool b) => some (if b then 1 else 0)
  | some (.int n) => some n
  | some (.float x) => x.toInt
  | _ => none

/-- `int(v or 0)`. -/
def intOrZero (v : Option PyScalar) : Option Int :=
  match v with
  | some (.text (.utf8 s)) => if s = "" then some 0 else PyNumber.int s
  | _ => if scalarTruthy v then scalarInt v else some 0

/-- `isinstance(v, (int, float))`; a bool is an int. -/
def isNumber : Option PyScalar → Bool
  | some (.bool _) | some (.int _) | some (.float _) => true
  | _ => false

/-- `float(v or default)`. -/
def floatOr (v : Option PyScalar) (default : Option PyFloat) : Option PyFloat :=
  if scalarTruthy v then scalarFloat v else default

/-- `float(v if v is not None else default)`. -/
def floatUnless (v : Option PyScalar) (default : PyFloat) : Option PyFloat :=
  if scalarIsSome v then scalarFloat v else some default

/-- The cell voltages of a battery, as `record_poll` and the aggregate collect them. -/
def floatCellVolts (data : FloatDict) : Option (List PyFloat) := do
  let n ← intOrZero (data.get "cell_count")
  let cells := (List.range n.toNat).map fun j =>
    data.get ("cell_voltage_" ++ (toString j ++ "_v"))
  (cells.filter isNumber).mapM scalarFloat

/-! ### The devices -/

def floatKind (d : FloatDict) : String := scalarText (d.get "_kind")

def isFloatInverter (d : FloatDict) : Bool :=
  PyText.startsWith (floatKind d) "inverter" && scalarIsSome (d.get "battery_voltage_v") &&
    scalarIsSome (d.get "soc_pct")

def isFloatController (d : FloatDict) : Bool :=
  floatKind d = "charge_controller" && scalarIsSome (d.get "battery_voltage_v")

/-- The devices the aggregate looks at. -/
structure FloatBankDevices where
  shunt : Option FloatDict
  batts : List FloatDict
  inverter : Option FloatDict
  controller : Option FloatDict

def selectFloatBank (devices : List FloatDict) : FloatBankDevices where
  shunt := devices.find? fun d => floatKind d = "shunt"
  batts := devices.filter fun d => floatKind d = "smart_battery"
  inverter := devices.find? isFloatInverter
  controller := devices.find? isFloatController

/-! ### The figures of the packs -/

/-- `cell_info`. -/
def floatCellInfo (batts : List FloatDict) : Option FloatView := do
  let packs ← batts.mapM floatCellVolts
  let lows := packs.filterMap PyFloat.minOf
  let highs := packs.filterMap PyFloat.maxOf
  let drifts := List.zipWith PyFloat.sub highs lows
  some (((PyFloat.minOf lows).map (("cell_min_v", ·))).toList ++
    ((PyFloat.maxOf highs).map (("cell_max_v", ·))).toList ++
    ((PyFloat.maxOf (.finite 0 :: drifts)).map (("worst_pack_drift_v", ·))).toList)

/-- `sum(float(b.get(key) or 0) for b in batts)`. -/
def sumOfFloats (key : String) (batts : List FloatDict) : Option PyFloat :=
  (batts.mapM fun b => floatOr (b.get key) (some (.finite 0))).map PyFloat.sum

/-- `rem / cap * 100 if cap else 0`. -/
def shareOf (rem cap : PyFloat) : PyFloat :=
  if cap = .finite 0 then .finite 0 else (rem.div cap).mul (.finite 100)

def meanVoltage (batts : List FloatDict) : Option PyFloat :=
  (sumOfFloats "voltage_v" batts).map (·.div (.ofRat batts.length))

/-- `bms_view`. -/
def floatBmsView (batts : List FloatDict) : Option FloatView := do
  let meanV ← meanVoltage batts
  let sumI ← sumOfFloats "current_a" batts
  let totalCap ← sumOfFloats "capacity_ah" batts
  let totalRem ← sumOfFloats "remaining_charge_ah" batts
  some [("voltage_v", meanV), ("current_a", sumI), ("power_w", meanV.mul sumI),
    ("soc_pct", shareOf totalRem totalCap), ("remaining_ah", totalRem), ("capacity_ah", totalCap)]

/-- `bms_health`. -/
def floatBmsHealth (batts : List FloatDict) : Option FloatView := do
  let meanV ← meanVoltage batts
  let cycles ← ((batts.map fun b => b.get "cycle_count").filter isNumber).mapM scalarInt
  let throughput ← ((batts.map fun b => b.get "total_charge_ah").filter isNumber).mapM scalarFloat
  let worst ← cycles.max?.elim (some []) fun n =>
    (PyFloat.ofInt n).map fun x => [("cycle_count", x)]
  let total := PyFloat.sum throughput
  some (worst ++
    if throughput.isEmpty then []
    else [("lifetime_throughput_ah", total),
      ("lifetime_throughput_kwh", ((total.mul meanV).div (.finite 1000)).round 1)])

/-! ### The other views -/

/-- `shunt_view`. -/
def floatShuntView (l : FloatDict) : Option FloatView := do
  let v ← floatOr (l.get "voltage_v") (some (.finite 0))
  let i ← floatOr (l.get "current_a") (some (.finite 0))
  let cap ← floatOr (l.get "bank_capacity_ah")
    (floatOr (l.get "capacity_ah") (some (.finite 0)))
  let rem ← floatOr (l.get "remaining_ah")
    ((floatOr (l.get "soc_pct") (some (.finite 0))).map fun soc => cap.mul (soc.div (.finite 100)))
  let soc ← floatOr (l.get "soc_pct") (some (shareOf rem cap))
  let powerW ← floatUnless (l.get "power_w") (v.mul i)
  let ttg ← if isNumber (l.get "time_to_go_minutes") && timeLeft (l.get "time_to_go_minutes") then
      (scalarFloat (l.get "time_to_go_minutes")).map fun x => [("time_to_go_minutes", x)]
    else some []
  some ([("voltage_v", v), ("current_a", i), ("power_w", powerW), ("soc_pct", soc),
    ("remaining_ah", rem), ("capacity_ah", cap)] ++ ttg)
where
  /-- `ttg > 0` of a number. -/
  timeLeft : Option PyScalar → Bool
    | some (.bool b) => b
    | some (.int n) => 0 < n
    | some (.float x) => PyFloat.lt (.finite 0) x
    | _ => false

/-- `inverter_view`. -/
def floatInverterView (iv : FloatDict) : Option FloatView := do
  let v ← floatOr (iv.get "battery_voltage_v") (some (.finite 0))
  let i ← floatOr (iv.get "battery_current_a") (some (.finite 0))
  let soc ← floatOr (iv.get "soc_pct") (some (.finite 0))
  let powerW ← floatUnless (iv.get "battery_power_w") (v.mul i)
  some [("voltage_v", v), ("current_a", i), ("power_w", powerW), ("soc_pct", soc)]

/-- `controller_view`. -/
def floatControllerView (cv : FloatDict) : Option FloatView := do
  let v ← floatOr (cv.get "battery_voltage_v") (some (.finite 0))
  let i ← floatOr (cv.get "battery_current_a") (some (.finite 0))
  let soc ← if isNumber (cv.get "battery_percentage") then
      (scalarFloat (cv.get "battery_percentage")).map fun x => [("soc_pct", x)]
    else some []
  some ([("voltage_v", v), ("current_a", i), ("power_w", v.mul i)] ++ soc)

/-- The view of what may not be there. -/
def floatViewOf {α : Type} (view : α → Option FloatView) : Option α → Option (Option FloatView)
  | none => some none
  | some d => (view d).map some

/-- The candidates in the order of the policy, and the first that is there. -/
def chooseFloatView (policy : BankPolicy) (shunt bms inverter controller : Option FloatView) :
    Option (BankSource × FloatView) :=
  let shunt := shunt.map fun v => (BankSource.shunt, v)
  let bms := bms.map fun v => (BankSource.bms, v)
  let rest := (inverter.map fun v => (BankSource.inverter, v)).or
    (controller.map fun v => (BankSource.controller, v))
  match policy with
  | .bms => bms.or (shunt.or rest)
  | .shunt | .auto => shunt.or (bms.or rest)

/-- The JSON of a number rounded to a tenth; Python's `0.0 or 0` is the integer zero. -/
def tenthJson (isZero : Bool) (x : PyFloat) : String := if isZero then "0" else (x.round 1).json

/-- `json.dumps(source_disagreement)`, when the two sources are apart. -/
def floatDisagreement (settings : BankSettings) (showing : BankSource)
    (shunt bms : Option FloatView) : Option String := do
  let shunt ← shunt
  let bms ← bms
  let shuntSoc := (shunt.lookup "soc_pct").getD (.finite 0)
  let bmsSoc := (bms.lookup "soc_pct").getD (.finite 0)
  let noShunt := shuntSoc = .finite 0
  let noBms := bmsSoc = .finite 0
  let delta := (shuntSoc.sub bmsSoc).abs
  if PyFloat.le (.finite settings.disagreementPct) delta then
    some ("\x7b\"shunt_soc_pct\": " ++ tenthJson noShunt shuntSoc ++
      ", \"bms_soc_pct\": " ++ tenthJson noBms bmsSoc ++
      ", \"delta_pct\": " ++ tenthJson (noShunt && noBms) delta ++
      ", \"showing\": \"" ++ showing.text ++ "\"\x7d")
  else none

/-! ### The aggregate -/

def floatFields (view : FloatView) : List (String × PyScalar) := view.map fun f => (f.1, .float f.2)

/-- `_compute_bank_aggregate` on the values of the devices dictionary. A dictionary inside the
aggregate is its JSON text here, as which it is stored. -/
def floatBankAggregate (settings : BankSettings) (devices : List FloatDict) :
    Option (Option FloatDict) := do
  let sel := selectFloatBank devices
  let packs := if sel.batts.isEmpty then none else some sel.batts
  let cells ← floatViewOf floatCellInfo packs
  let bms ← floatViewOf floatBmsView packs
  let health ← floatViewOf floatBmsHealth packs
  let shunt ← floatViewOf floatShuntView sel.shunt
  let inverter ← floatViewOf floatInverterView sel.inverter
  let controller ← floatViewOf floatControllerView sel.controller
  some ((chooseFloatView settings.policy shunt bms inverter controller).map fun chosen =>
    Dict.ofList (floatFields chosen.2 ++
      [("pack_count", .float (.ofRat sel.batts.length)), ("source", .text (.utf8 chosen.1.text))] ++
      floatFields (cells.getD []) ++ floatFields (health.getD []) ++
      ((floatDisagreement settings chosen.1 shunt bms).map fun json =>
        ("source_disagreement", PyScalar.text (.utf8 json))).toList))

/-! ### The devices that did not answer -/

/-- `value_num if value_num is not None else value_str`. -/
def floatLatestValue (row : LatestRow SqlFloat) : PyScalar :=
  match row.valueNum, row.valueStr with
  | some x, _ => .float x.val
  | none, some s => .text (.utf8 s)
  | none, none => .none

/-- A device as `latest` and `device_meta` remember it. -/
def floatSnapshot (db : Db SqlFloat) (label : String) (row : DeviceMeta) : FloatDict :=
  (Dict.ofList
    [("_vendor", .text (.utf8 row.vendor)), ("_kind", .text (.utf8 row.kind)),
      ("_slave_id", row.slaveId.elim .none .int), ("_last_seen", .int row.lastSeen)]).setAll
    ((db.latest.rows.filter fun e => (ofLex e.1).1 = label).map fun e =>
      ((ofLex e.1).2, floatLatestValue e.2))

/-- `_augment_for_bank`, in key order like `augmentForBank`. -/
def floatAugment (db : Db SqlFloat) (devices : Dict FloatDict) (now : Nat) : List FloatDict :=
  devices.entries.map Prod.snd ++
    ((db.deviceMeta.rows.filter (fillsIn devices.keys now)).map fun e => floatSnapshot db e.1 e.2)

/-- The bank that `record_poll` writes. -/
def floatBankOf (settings : BankSettings) (db : Db SqlFloat) (devices : Dict FloatDict)
    (now : Nat) : Option (Option FloatDict) :=
  floatBankAggregate settings (floatAugment db devices now)

end WattPost.Storage
