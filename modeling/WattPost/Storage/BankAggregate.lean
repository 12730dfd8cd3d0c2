import Mathlib.Algebra.Order.BigOperators.Group.List
import WattPost.Vendors.Base

/-! `Store._compute_bank_aggregate`: the bank's figures from the results of the
shunts, smart batteries, inverters and charge controllers of one poll. `none`
stands for a call that raises, which only a text under a numeric name does. -/
namespace WattPost.Storage

open PyDict Vendors

/-- `_bank_source`. -/
inductive BankPolicy where
  | auto
  | shunt
  | bms
deriving DecidableEq

/-- The policy and `_bank_disagreement_pct`. -/
structure BankSettings where
  policy : BankPolicy
  disagreementPct : ℚ

def BankSettings.default : BankSettings := ⟨.auto, 5⟩

/-- A candidate for the bank's system-level figures. -/
structure BankView where
  voltageV : ℚ
  currentA : ℚ
  powerW : ℚ
  socPct : Option ℚ
  remainingAh : Option ℚ
  capacityAh : Option ℚ
  timeToGoMinutes : Option ℚ
deriving DecidableEq

inductive BankSource where
  | shunt
  | bms
  | inverter
  | controller
deriving DecidableEq

def BankSource.text : BankSource → String
  | shunt => "shunt"
  | bms => "bms"
  | inverter => "inverter"
  | controller => "controller"

/-- Cell figures over all packs. -/
structure CellInfo where
  minV : Option ℚ
  maxV : Option ℚ
  worstPackDriftV : ℚ
deriving DecidableEq

/-- Cycle count of the worst pack, and the throughput of all. -/
structure BmsHealth where
  cycleCount : Option ℚ
  throughput : Option (ℚ × ℚ)
deriving DecidableEq

/-- Shunt and pack sum differ by the threshold or more. -/
structure Disagreement where
  shuntSocPct : ℚ
  bmsSocPct : ℚ
  showing : BankSource
deriving DecidableEq

structure BankAggregate where
  view : BankView
  packCount : Nat
  source : BankSource
  cells : Option CellInfo
  health : BmsHealth
  disagreement : Option Disagreement
deriving DecidableEq

/-- `d.get("_kind")`, a text in every driver's result and every snapshot. -/
def kind (d : PollDict) : String :=
  match d.get "_kind" with
  | some (.text k) => k
  | _ => ""

def isShunt (d : PollDict) : Bool := kind d = "shunt"

def isBattery (d : PollDict) : Bool := kind d = "smart_battery"

def isInverter (d : PollDict) : Bool :=
  PyText.startsWith (kind d) "inverter" && PyVal.isSome (d.get "battery_voltage_v") &&
    PyVal.isSome (d.get "soc_pct")

def isController (d : PollDict) : Bool :=
  kind d = "charge_controller" && PyVal.isSome (d.get "battery_voltage_v")

/-- The devices the aggregate looks at. -/
structure BankDevices where
  shunt : Option PollDict
  batts : List PollDict
  inverter : Option PollDict
  controller : Option PollDict

def selectBank (devices : List PollDict) : BankDevices where
  shunt := devices.find? isShunt
  batts := devices.filter isBattery
  inverter := devices.find? isInverter
  controller := devices.find? isController

/-- `int(d.get("cell_count") or 0)`. -/
def cellCount (d : PollDict) : Option Int :=
  if PyVal.truthy (d.get "cell_count") then PyVal.int (d.get "cell_count") else some 0

/-- The cell voltages a result holds. -/
def cellVolts (d : PollDict) : Option (List ℚ) :=
  (cellCount d).map fun n => (List.range n.toNat).filterMap fun j =>
    PyVal.number (d.get ("cell_voltage_" ++ (toString j ++ "_v")))

/-- The smallest and the largest of a pack's cells, if it reports any. -/
def extremes (cells : List ℚ) : Option (ℚ × ℚ) :=
  match cells.min?, cells.max? with
  | some low, some high => some (low, high)
  | _, _ => none

def cellInfo (batts : List PollDict) : Option CellInfo := do
  let packs ← batts.mapM cellVolts
  let found := packs.filterMap extremes
  some
    { minV := (found.map Prod.fst).min?
      maxV := (found.map Prod.snd).max?
      worstPackDriftV := (found.map fun e => e.2 - e.1).foldl max 0 }

/-- `sum(float(b.get(key) or 0) for b in batts)`. -/
def sumFloats (key : String) (batts : List PollDict) : Option ℚ :=
  (batts.mapM fun b => PyVal.floatOr (b.get key) (some 0)).map List.sum

/-- The sum over the packs: mean voltage, total current and charge. -/
def bmsView (batts : List PollDict) : Option BankView := do
  let sumV ← sumFloats "voltage_v" batts
  let sumI ← sumFloats "current_a" batts
  let totalCap ← sumFloats "capacity_ah" batts
  let totalRem ← sumFloats "remaining_charge_ah" batts
  let meanV := sumV / batts.length
  some
    { voltageV := meanV
      currentA := sumI
      powerW := meanV * sumI
      socPct := some (if totalCap = 0 then 0 else totalRem / totalCap * 100)
      remainingAh := some totalRem
      capacityAh := some totalCap
      timeToGoMinutes := none }

def bmsHealth (batts : List PollDict) (meanV : ℚ) : BmsHealth :=
  let cycles := batts.filterMap fun b =>
    (PyVal.number (b.get "cycle_count")).map fun q => (q.num.tdiv q.den : Int)
  let throughput := batts.filterMap fun b => PyVal.number (b.get "total_charge_ah")
  { cycleCount := cycles.max?.map fun n => (n : ℚ)
    throughput :=
      if throughput.isEmpty then none
      else some (throughput.sum, round (throughput.sum * meanV / 1000) 1) }

/-- `float(v if v is not None else default)`. -/
def floatUnlessNone (v : Option PyVal) (default : ℚ) : Option ℚ :=
  if PyVal.isSome v then PyVal.float v else some default

/-- What a shunt reports. A zero is taken for a missing value: then charge and
SoC are computed from each other. -/
def shuntView (l : PollDict) : Option BankView := do
  let v ← PyVal.floatOr (l.get "voltage_v") (some 0)
  let i ← PyVal.floatOr (l.get "current_a") (some 0)
  let cap ← PyVal.floatOr (l.get "bank_capacity_ah") (PyVal.floatOr (l.get "capacity_ah") (some 0))
  let rem ← PyVal.floatOr (l.get "remaining_ah")
    ((PyVal.floatOr (l.get "soc_pct") (some 0)).map fun soc => cap * (soc / 100))
  let soc ← PyVal.floatOr (l.get "soc_pct") (some (if cap = 0 then 0 else rem / cap * 100))
  let powerW ← floatUnlessNone (l.get "power_w") (v * i)
  some
    { voltageV := v
      currentA := i
      powerW := powerW
      socPct := some soc
      remainingAh := some rem
      capacityAh := some cap
      timeToGoMinutes := (PyVal.number (l.get "time_to_go_minutes")).filter (0 < ·) }

def inverterView (iv : PollDict) : Option BankView := do
  let v ← PyVal.floatOr (iv.get "battery_voltage_v") (some 0)
  let i ← PyVal.floatOr (iv.get "battery_current_a") (some 0)
  let soc ← PyVal.floatOr (iv.get "soc_pct") (some 0)
  let powerW ← floatUnlessNone (iv.get "battery_power_w") (v * i)
  some ⟨v, i, powerW, some soc, none, none, none⟩

def controllerView (cv : PollDict) : Option BankView := do
  let v ← PyVal.floatOr (cv.get "battery_voltage_v") (some 0)
  let i ← PyVal.floatOr (cv.get "battery_current_a") (some 0)
  some ⟨v, i, v * i, PyVal.number (cv.get "battery_percentage"), none, none, none⟩

/-- The view of a device that may not be there. -/
def viewOf (view : PollDict → Option BankView) : Option PollDict → Option (Option BankView)
  | none => some none
  | some d => (view d).map some

/-- The candidates in the order of the policy, and the first that is there. -/
def chooseView (policy : BankPolicy) (shunt bms inverter controller : Option BankView) :
    Option (BankSource × BankView) :=
  let shunt := shunt.map fun v => (BankSource.shunt, v)
  let bms := bms.map fun v => (BankSource.bms, v)
  let rest := (inverter.map fun v => (BankSource.inverter, v)).or
    (controller.map fun v => (BankSource.controller, v))
  match policy with
  | .bms => bms.or (shunt.or rest)
  | .shunt | .auto => shunt.or (bms.or rest)

def disagreement (settings : BankSettings) (showing : BankSource) (shunt bms : Option BankView) :
    Option Disagreement :=
  match shunt, bms with
  | some s, some b =>
      let shuntSoc := s.socPct.getD 0
      let bmsSoc := b.socPct.getD 0
      if settings.disagreementPct ≤ |shuntSoc - bmsSoc| then some ⟨shuntSoc, bmsSoc, showing⟩
      else none
  | _, _ => none

/-- The aggregate of the selected devices. -/
def aggregateBank (settings : BankSettings) (sel : BankDevices) :
    Option (Option BankAggregate) := do
  let cells ← if sel.batts.isEmpty then some none else (cellInfo sel.batts).map some
  let bms ← if sel.batts.isEmpty then some none else (bmsView sel.batts).map some
  let shunt ← viewOf shuntView sel.shunt
  let inverter ← viewOf inverterView sel.inverter
  let controller ← viewOf controllerView sel.controller
  some ((chooseView settings.policy shunt bms inverter controller).map fun chosen =>
    { view := chosen.2
      packCount := sel.batts.length
      source := chosen.1
      cells := cells
      health := bms.elim ⟨none, none⟩ fun b => bmsHealth sel.batts b.voltageV
      disagreement := disagreement settings chosen.1 shunt bms })

/-- `_compute_bank_aggregate` on the values of the devices dictionary. -/
def computeBankAggregate (settings : BankSettings) (devices : List PollDict) :
    Option (Option BankAggregate) := aggregateBank settings (selectBank devices)

/-! ### The rows of the aggregate -/

/-- A JSON number with one decimal; Python's `0.0 or 0` is the integer zero. -/
def jsonTenths (isZero : Bool) (q : ℚ) : String :=
  if isZero then "0"
  else
    let tenths := roundHalfEven (q * 10)
    (if tenths < 0 then "-" else "") ++ toString (tenths.natAbs / 10) ++ "." ++
      toString (tenths.natAbs % 10)

/-- `json.dumps(source_disagreement)`. -/
def Disagreement.json (d : Disagreement) : String :=
  "\x7b\"shunt_soc_pct\": " ++ jsonTenths (d.shuntSocPct = 0) d.shuntSocPct ++
  ", \"bms_soc_pct\": " ++ jsonTenths (d.bmsSocPct = 0) d.bmsSocPct ++
  ", \"delta_pct\": " ++
    jsonTenths (d.shuntSocPct = 0 && d.bmsSocPct = 0) |d.shuntSocPct - d.bmsSocPct| ++
  ", \"showing\": \"" ++ d.showing.text ++ "\"\x7d"

def numField (key : String) (value : Option ℚ) : List (String × ℚ) :=
  (value.map fun v => (key, v)).toList

/-- The numeric metrics of the bank, in the order of the dictionary. -/
def BankAggregate.numFields (bank : BankAggregate) : List (String × ℚ) :=
  [("voltage_v", bank.view.voltageV), ("current_a", bank.view.currentA),
      ("power_w", bank.view.powerW)] ++
    numField "soc_pct" bank.view.socPct ++
    numField "remaining_ah" bank.view.remainingAh ++
    numField "capacity_ah" bank.view.capacityAh ++
    numField "time_to_go_minutes" bank.view.timeToGoMinutes ++
    [("pack_count", (bank.packCount : ℚ))] ++
    bank.cells.elim [] (fun cells => numField "cell_min_v" cells.minV ++
      numField "cell_max_v" cells.maxV ++ [("worst_pack_drift_v", cells.worstPackDriftV)]) ++
    numField "cycle_count" bank.health.cycleCount ++
    bank.health.throughput.elim [] (fun t =>
      [("lifetime_throughput_ah", t.1), ("lifetime_throughput_kwh", t.2)])

/-- The metrics that are stored as texts. -/
def BankAggregate.strFields (bank : BankAggregate) : List (String × String) :=
  ("source", bank.source.text) ::
    bank.disagreement.elim [] fun d => [("source_disagreement", d.json)]

end WattPost.Storage
