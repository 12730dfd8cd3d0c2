import WattPost.Alerts.Engine

/-! Where the alert rules live: `config.yaml`, the loaded configuration and the
running engine; and what copies them from one to the other. What can be loaded is
a rule with its four required fields. -/
namespace WattPost.Alerts

variable {N : Type}

/-! ### The configuration -/

/-- `AlertRuleCfg`; the payload of the API has the same fields and defaults. -/
structure AlertRuleCfg (N : Type) where
  id : String
  name : String
  metric : String
  op : String
  threshold : N
  severity : String := "warn"
  cooldownSeconds : Int := 1800
  transports : List String := []
  enabled : Bool := true

abbrev AlertRulePayload (N : Type) := AlertRuleCfg N

/-- A rule as `config.yaml` has it. -/
structure RawRule (N : Type) where
  id : String
  name : String
  metric : String
  op : String
  threshold : N
  severity : Option String := none
  cooldownSeconds : Option Int := none
  transports : Option (List String) := none
  enabled : Option Bool := none

/-- `msgspec.convert` with its defaults. -/
def RawRule.convert (r : RawRule N) : AlertRuleCfg N where
  id := r.id
  name := r.name
  metric := r.metric
  op := r.op
  threshold := r.threshold
  severity := r.severity.getD "warn"
  cooldownSeconds := r.cooldownSeconds.getD 1800
  transports := r.transports.getD []
  enabled := r.enabled.getD true

/-- The part of `config.yaml` about alert rules. -/
structure ConfigFile (N : Type) where
  alerts : List (RawRule N)
  alertsSeeded : Bool

/-- `_DEFAULT_ALERT_RULES`. -/
def defaultAlertRules [PyNumber N] : List (RawRule N) :=
  [{ id := "low-soc", name := "Low battery (30%)", metric := "bank.soc_pct", op := "lt"
     threshold := PyNumber.whole 30, severity := some "warn", cooldownSeconds := some 1800
     transports := some [] },
    { id := "critical-soc", name := "Critical battery (15%)", metric := "bank.soc_pct", op := "lt"
      threshold := PyNumber.whole 15, severity := some "alarm", cooldownSeconds := some 900
      transports := some [] },
    { id := "high-temp", name := "Bank temperature high (45°C)", metric := "bank.temperature_c"
      op := "gt", threshold := PyNumber.whole 45, severity := some "warn"
      cooldownSeconds := some 1800, transports := some [] },
    { id := "critical-temp", name := "Bank temperature critical (55°C)"
      metric := "bank.temperature_c", op := "gt", threshold := PyNumber.whole 55
      severity := some "alarm", cooldownSeconds := some 900, transports := some [] }]

/-- `load_config`: an empty list that was never seeded is seeded, and saved if that
works. -/
def loadConfig [PyNumber N] (saved : Bool) (file : ConfigFile N) :
    List (AlertRuleCfg N) × ConfigFile N :=
  if file.alerts.isEmpty && !file.alertsSeeded then
    (defaultAlertRules.map RawRule.convert,
      if saved then { alerts := defaultAlertRules, alertsSeeded := true } else file)
  else (file.alerts.map RawRule.convert, file)

/-! ### The daemon -/

/-- `shared` says that the rule list of the engine is the list of the configuration
itself, as the cloud's reload leaves it. -/
structure Daemon (N : Type) where
  file : ConfigFile N
  alerts : List (AlertRuleCfg N)
  transportIds : List String
  quietHours : Option (Int × Int)
  engine : AlertEngine N
  shared : Bool

/-- The rule that the engine reads from a configured rule. -/
def AlertRuleCfg.rule (r : AlertRuleCfg N) : AlertRule N where
  id := r.id
  name := r.name
  metric := r.metric
  op := r.op
  threshold := r.threshold
  severity := r.severity
  cooldownSeconds := r.cooldownSeconds
  transports := r.transports
  enabled := r.enabled

/-- The rule that `PollScheduler.__init__` builds from a configured rule. -/
def AlertRuleCfg.startRule (r : AlertRuleCfg N) : AlertRule N where
  id := r.id
  name := r.name
  metric := r.metric
  op := r.op
  threshold := r.threshold
  severity := r.severity
  cooldownSeconds := r.cooldownSeconds
  transports := r.transports

namespace Daemon

/-- The configuration is loaded and a scheduler is built from it; `started` are the
transports that came up. -/
def restart [PyNumber N] (started : List String) (saved : Bool) (d : Daemon N) : Daemon N :=
  let (alerts, file) := loadConfig saved d.file
  { d with
    file := file
    alerts := alerts
    engine := AlertEngine.init (alerts.map AlertRuleCfg.startRule) started d.quietHours
    shared := false }

/-! ### The alerts API -/

end Daemon

/-- `str.isalnum` and `repr`. -/
structure PyStr where
  isalnum : String → Bool
  repr : String → String

structure HttpError where
  status : Nat
  detail : String

/-- `_validate_rule`. -/
def validateRule (py : PyStr) (p : AlertRulePayload N) (transportIds : List String) :
    Option HttpError :=
  if p.id = "" || !py.isalnum (String.ofList (p.id.toList.filter fun c => c ≠ '_' && c ≠ '-')) then
    some ⟨400, "rule id must be alphanumeric/_/- only"⟩
  else if !(["lt", "lte", "gt", "gte", "eq", "neq"].contains p.op) then
    some ⟨400, "op must be one of ['eq', 'gt', 'gte', 'lt', 'lte', 'neq']"⟩
  else if !(["warn", "alarm"].contains p.severity) then
    some ⟨400, "severity must be one of ['alarm', 'warn']"⟩
  else if p.cooldownSeconds < 0 then some ⟨400, "cooldown_seconds must be >= 0"⟩
  else if p.metric = "" then some ⟨400, "metric is required"⟩
  else if p.transports.isEmpty then some ⟨400, "at least one transport is required"⟩
  else
    (p.transports.find? fun tid => !transportIds.contains tid).map fun tid =>
      ⟨400, "unknown transport id " ++ py.repr tid⟩

/-- The entry that the API writes. -/
def AlertRuleCfg.raw (p : AlertRulePayload N) : RawRule N where
  id := p.id
  name := p.name
  metric := p.metric
  op := p.op
  threshold := p.threshold
  severity := some p.severity
  cooldownSeconds := some p.cooldownSeconds
  transports := some p.transports
  enabled := some p.enabled

/-- The first entry with this id is replaced. -/
def replaceFirst (id : String) (raw : RawRule N) : List (RawRule N) → List (RawRule N)
  | [] => []
  | r :: rest => if r.id = id then raw :: rest else r :: replaceFirst id raw rest

namespace Daemon

/-- `_refresh_rules_in_engine`. -/
def refreshRulesInEngine (d : Daemon N) : Daemon N :=
  { d with
    engine := d.engine.reloadRules (d.alerts.map AlertRuleCfg.rule)
    shared := false }

/-- `_save_config`, which may fail, and then the engine. -/
def saveAndRefresh (saved : Bool) (mutate : List (RawRule N) → List (RawRule N)) (id : String)
    (d : Daemon N) : Except HttpError String × Daemon N :=
  if saved then
    (.ok id, refreshRulesInEngine { d with file := { d.file with alerts := mutate d.file.alerts } })
  else (.error ⟨500, "Internal Server Error"⟩, d)

/-- `create_rule`. The list of the configuration grows in place. -/
def createRule (py : PyStr) (data : AlertRulePayload N) (saved : Bool) (d : Daemon N) :
    Except HttpError String × Daemon N :=
  match validateRule py data d.transportIds with
  | some e => (.error e, d)
  | none =>
      if d.alerts.any fun r => r.id = data.id then
        (.error ⟨409, "rule " ++ py.repr data.id ++ " already exists"⟩, d)
      else
        saveAndRefresh saved (fun rules => rules ++ [data.raw]) data.id
          { d with
            alerts := d.alerts ++ [data]
            engine :=
              if d.shared then { d.engine with rules := d.engine.rules ++ [data.rule] }
              else d.engine }

/-- `update_rule`. -/
def updateRule (py : PyStr) (ruleId : String) (data : AlertRulePayload N) (saved : Bool)
    (d : Daemon N) : Except HttpError String × Daemon N :=
  if data.id ≠ ruleId then (.error ⟨400, "payload id does not match URL"⟩, d)
  else if !d.alerts.any fun r => r.id = ruleId then
    (.error ⟨404, "rule " ++ py.repr ruleId ++ " not found"⟩, d)
  else
    match validateRule py data d.transportIds with
    | some e => (.error e, d)
    | none =>
        saveAndRefresh saved (replaceFirst ruleId data.raw) ruleId
          { d with
            alerts := d.alerts.map fun r => if r.id = ruleId then data else r
            shared := false }

/-- `delete_rule`. -/
def deleteRule (py : PyStr) (ruleId : String) (saved : Bool) (d : Daemon N) :
    Except HttpError String × Daemon N :=
  if !d.alerts.any fun r => r.id = ruleId then
    (.error ⟨404, "rule " ++ py.repr ruleId ++ " not found"⟩, d)
  else
    saveAndRefresh saved (fun rules => rules.filter fun r => r.id ≠ ruleId) ruleId
      { d with
        alerts := d.alerts.filter fun r => r.id ≠ ruleId
        shared := false }

end Daemon

/-! ### The commands of the cloud -/

/-- The payload of a command; a field that is missing or empty has a default. -/
structure LocalRulePayload (N : Type) where
  id : Option String := none
  name : Option String := none
  metric : Option String := none
  op : Option String := none
  threshold : Option N := none
  severity : Option String := none
  cooldownSeconds : Option Int := none
  transports : Option (List String) := none

/-- `x or default` of a text. -/
def orText (x : Option String) (default : String) : String :=
  match x with
  | some s => if s = "" then default else s
  | none => default

/-- The rule of a `set_local_rule` command. -/
def LocalRulePayload.rule [PyNumber N] (p : LocalRulePayload N) (rid : String) :
    AlertRuleCfg N where
  id := rid
  name := orText p.name rid
  metric := orText p.metric ""
  op := orText p.op "lt"
  threshold := p.threshold.getD (PyNumber.whole 0)
  severity := orText p.severity "warn"
  cooldownSeconds :=
    match p.cooldownSeconds with
    | some n => if n = 0 then 1800 else n
    | none => 1800
  transports := p.transports.getD []

/-- The entry that `_persist_alerts_to_yaml` writes. -/
def AlertRuleCfg.cloudRaw (r : AlertRuleCfg N) : RawRule N where
  id := r.id
  name := r.name
  metric := r.metric
  op := r.op
  threshold := r.threshold
  severity := some r.severity
  cooldownSeconds := some r.cooldownSeconds
  transports := some r.transports

namespace Daemon

/-- `_persist_alerts_to_yaml`, which may fail, and then `_reload_alerts_engine`:
the status of the command. -/
def persistAndReload (saved : Bool) (d : Daemon N) : String × Daemon N :=
  if saved then
    ("success",
      { d with
        file := { d.file with alerts := d.alerts.map AlertRuleCfg.cloudRaw }
        engine := d.engine.reloadRules (d.alerts.map AlertRuleCfg.rule)
        shared := !d.alerts.isEmpty })
  else ("failed", d)

/-- `_dispatch_set_local_rule`; a payload that cannot be read is `none`. -/
def setLocalRule [PyNumber N] (payload : Option (LocalRulePayload N)) (saved : Bool)
    (d : Daemon N) : String × Daemon N :=
  match payload with
  | none => ("failed", d)
  | some p =>
      let rid := orText p.id ""
      if rid = "" then ("failed", d)
      else
        let newRule := p.rule rid
        let rules := d.alerts.map fun r => if r.id = rid then newRule else r
        let rules := if rules.any fun r => r.id = rid then rules else rules ++ [newRule]
        persistAndReload saved { d with alerts := rules, shared := false }

/-- `_dispatch_delete_local_rule`; the id of an unreadable payload is empty. -/
def deleteLocalRule (rid : String) (saved : Bool) (d : Daemon N) : String × Daemon N :=
  if rid = "" then ("failed", d)
  else
    persistAndReload saved
      { d with
        alerts := d.alerts.filter fun r => r.id ≠ rid
        shared := false }

end Daemon

/-! ### Runs -/

/-- What happens to the rules. The other endpoints of the alerts API change the
transports and the quiet hours. -/
inductive RuleOp (N : Type) where
  | createRule (data : AlertRulePayload N) (saved : Bool)
  | updateRule (ruleId : String) (data : AlertRulePayload N) (saved : Bool)
  | deleteRule (ruleId : String) (saved : Bool)
  | settings (transportIds : List String) (quietHours : Option (Int × Int))
  | setLocalRule (payload : Option (LocalRulePayload N)) (saved : Bool)
  | deleteLocalRule (rid : String) (saved : Bool)
  | restart (started : List String) (saved : Bool)
  | evaluate (now : Int) (snapshot : Snapshot N)

def Daemon.step [PyNumber N] (py : PyStr) (zone : LocalTime.Zone) (d : Daemon N) :
    RuleOp N → Daemon N
  | .createRule data saved => (d.createRule py data saved).2
  | .updateRule ruleId data saved => (d.updateRule py ruleId data saved).2
  | .deleteRule ruleId saved => (d.deleteRule py ruleId saved).2
  | .settings transportIds quietHours =>
      { d with transportIds := transportIds, quietHours := quietHours }
  | .setLocalRule payload saved => (d.setLocalRule payload saved).2
  | .deleteLocalRule rid saved => (d.deleteLocalRule rid saved).2
  | .restart started saved => d.restart started saved
  | .evaluate now snapshot => { d with engine := (evaluate zone d.engine now snapshot).engine }

end WattPost.Alerts
