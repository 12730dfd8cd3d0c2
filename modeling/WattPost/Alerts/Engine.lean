import WattPost.Lib.LocalTime
import WattPost.Lib.PyDict

/-! The alert evaluator: rules over the metrics of a snapshot, their cooldown, and
the buffer of the events that quiet hours hold back. -/
namespace WattPost.Alerts

open LocalTime PyDict

/-! ### Rules and events -/

/-- How Python compares two numbers, of which a `NaN` obeys no law, and the whole
numbers of its source. -/
class PyNumber (N : Type) where
  lt : N → N → Bool
  le : N → N → Bool
  eq : N → N → Bool
  whole : Nat → N

/-- Exact rational readings. -/
instance : PyNumber ℚ where
  lt a b := a < b
  le a b := a ≤ b
  eq a b := a = b
  whole n := n

structure AlertRule (N : Type) where
  id : String
  name : String
  metric : String
  op : String
  threshold : N
  severity : String := "warn"
  cooldownSeconds : Int := 1800
  transports : List String
  enabled : Bool := true

structure AlertEvent (N : Type) where
  ruleId : String
  name : String
  severity : String
  metric : String
  value : N
  threshold : N
  op : String
  ts : Int

variable {N : Type}

/-- `_OPS`. -/
def ops [PyNumber N] (op : String) : Option (N → N → Bool) :=
  match op with
  | "lt" => some fun a b => PyNumber.lt a b
  | "lte" => some fun a b => PyNumber.le a b
  | "gt" => some fun a b => PyNumber.lt b a
  | "gte" => some fun a b => PyNumber.le b a
  | "eq" => some fun a b => PyNumber.eq a b
  | "neq" => some fun a b => !PyNumber.eq a b
  | _ => none

/-! ### The context -/

/-- What a dotted path can lead to. -/
inductive Value (N : Type) where
  | none
  | num (n : N)
  | text (s : String)
  | dict (entries : List (String × Value N))

/-- A device of the snapshot. -/
structure Device (N : Type) where
  label : String
  kind : Option String
  latest : List (String × Value N)

abbrev Snapshot (N : Type) := List (Device N)

/-- `d.get(k)`. -/
def Value.entry (entries : List (String × Value N)) (k : String) : Value N :=
  (entries.lookup k).getD .none

/-- `max_cell_drift_v` over the smart batteries. -/
def maxCellDrift [PyNumber N] (devices : Snapshot N) : Value N :=
  devices.foldl
    (fun maxDrift d =>
      if d.kind = some "smart_battery" then
        match maxDrift, Value.entry d.latest "cell_drift_v" with
        | .num m, .num v => .num (if PyNumber.lt m v then v else m)
        | _, .num v => .num v
        | m, _ => m
      else maxDrift) .none

/-- `build_alert_context`. -/
def buildAlertContext [PyNumber N] (devices : Snapshot N) : Value N :=
  let byLabel := devices.foldl
    (fun entries d => setEntry d.label (Value.dict d.latest) entries) []
  let bank :=
    match Value.entry byLabel "bank" with
    | .dict latest => latest
    | _ => []
  .dict
    [("bank", .dict
        [("soc_pct", Value.entry bank "soc_pct"), ("netW", Value.entry bank "power_w"),
          ("meanV", Value.entry bank "voltage_v"), ("totalRem", Value.entry bank "remaining_ah"),
          ("totalCap", Value.entry bank "capacity_ah"),
          ("worst_pack_drift_v", Value.entry bank "worst_pack_drift_v")]),
      ("devices", .dict byLabel),
      ("aggregate", .dict [("max_cell_drift_v", maxCellDrift devices)])]

/-- The rest of a path from where it got to. -/
def resolveParts : List String → Value N → Value N
  | [], cur => cur
  | part :: rest, .dict entries => resolveParts rest (Value.entry entries part)
  | _ :: _, _ => .none

/-- `_resolve`. -/
def resolve (path : String) (ctx : Value N) : Value N := resolveParts (PyText.split path '.') ctx

/-! ### The engine -/

/-- What is handed to `_dispatch`: an event and the transports of its rule. -/
abbrev Notice (N : Type) := AlertEvent N × List String

/-- `AlertEngine`, with the ids of the transports that started. -/
structure AlertEngine (N : Type) where
  rules : List (AlertRule N)
  transports : List String
  quietHours : Option (Int × Int)
  lastFired : Dict Int
  lastEvent : Dict (AlertEvent N)
  pending : List (Notice N)
  eventHistory : List (AlertEvent N)
  wasQuiet : Option Bool

namespace AlertEngine

/-- `__init__` and `start`; equal hours switch the quiet hours off. -/
def init (rules : List (AlertRule N)) (transports : List String)
    (quietHours : Option (Int × Int)) : AlertEngine N where
  rules := rules
  transports := transports
  quietHours := quietHours.filter fun hours => hours.1 ≠ hours.2
  lastFired := Dict.empty
  lastEvent := Dict.empty
  pending := []
  eventHistory := []
  wasQuiet := none

/-- `recent_events_since`, in firing order. -/
def recentEventsSince (engine : AlertEngine N) (ts : Int) (limit : Nat) : List (AlertEvent N) :=
  ((engine.eventHistory.reverse.takeWhile fun e => ts < e.ts).take limit).reverse

/-- `reload_rules`. -/
def reloadRules (engine : AlertEngine N) (rules : List (AlertRule N)) : AlertEngine N :=
  let live := fun id => (rules.map AlertRule.id).contains id
  { engine with
    rules := rules
    lastFired := engine.lastFired.filter live
    lastEvent := engine.lastEvent.filter live }

/-- `_is_quiet_now`, for the hour that the local clock shows. -/
def isQuietNow (engine : AlertEngine N) (zone : Zone) (ts : Int) : Bool :=
  match engine.quietHours with
  | none => false
  | some (first, last) =>
      let hour := zone.localSeconds ts % 86400 / 3600
      if first < last then first ≤ hour && hour < last
      else first ≤ hour || hour < last

/-- The event of a rule, if it fires. -/
def fires [PyNumber N] (engine : AlertEngine N) (now : Int) (ctx : Value N) (rule : AlertRule N) :
    Option (AlertEvent N) :=
  if rule.enabled = false then none
  else
    match ops rule.op, resolve rule.metric ctx with
    | some op, .num val =>
        if op val rule.threshold = false then none
        else if now - (engine.lastFired.get rule.id).getD 0 < rule.cooldownSeconds then none
        else
          some
            { ruleId := rule.id, name := rule.name, severity := rule.severity
              metric := rule.metric, value := val, threshold := rule.threshold
              op := rule.op, ts := now }
    | _, _ => none

/-- The records of an event; the history keeps the last 200. -/
def record (engine : AlertEngine N) (event : AlertEvent N) : AlertEngine N :=
  let history := engine.eventHistory ++ [event]
  { engine with
    lastFired := engine.lastFired.set event.ruleId event.ts
    lastEvent := engine.lastEvent.set event.ruleId event
    eventHistory := history.drop (history.length - 200) }

end AlertEngine

/-- An event and the rule that fired it. -/
structure Firing (N : Type) where
  event : AlertEvent N
  rule : AlertRule N

def Firing.notice (firing : Firing N) : Notice N := (firing.event, firing.rule.transports)

/-- One call of `evaluate`: the engine, what fired, and what was handed to
`_dispatch`, in order. -/
structure Pass (N : Type) where
  engine : AlertEngine N
  fired : List (Firing N)
  dispatched : List (Notice N)

/-- One rule of the loop. -/
def evaluateRule [PyNumber N] (now : Int) (inQuiet : Bool) (ctx : Value N) (pass : Pass N)
    (rule : AlertRule N) : Pass N :=
  match pass.engine.fires now ctx rule with
  | none => pass
  | some event =>
      let engine := pass.engine.record event
      let notice : Notice N := (event, rule.transports)
      if inQuiet && rule.severity ≠ "alarm" then
        { engine := { engine with pending := engine.pending ++ [notice] }
          fired := pass.fired ++ [⟨event, rule⟩]
          dispatched := pass.dispatched }
      else
        { engine := engine
          fired := pass.fired ++ [⟨event, rule⟩]
          dispatched := pass.dispatched ++ [notice] }

/-- The edge of the window: what was held back is flushed. -/
def beginPass (engine : AlertEngine N) (inQuiet : Bool) : Pass N :=
  if engine.wasQuiet = some true ∧ inQuiet = false then
    { engine := { engine with pending := [], wasQuiet := some inQuiet }
      fired := [], dispatched := engine.pending }
  else { engine := { engine with wasQuiet := some inQuiet }, fired := [], dispatched := [] }

/-- `evaluate`. -/
def evaluate [PyNumber N] (zone : Zone) (engine : AlertEngine N) (now : Int)
    (snapshot : Snapshot N) : Pass N :=
  let inQuiet := engine.isQuietNow zone now
  engine.rules.foldl (evaluateRule now inQuiet (buildAlertContext snapshot))
    (beginPass engine inQuiet)

end WattPost.Alerts
