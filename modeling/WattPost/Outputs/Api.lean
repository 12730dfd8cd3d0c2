import Mathlib.Data.List.Lex
import Mathlib.Data.List.Sort
import Mathlib.Data.String.Basic
import WattPost.Outputs.Schedules
import WattPost.Outputs.SolarPause

/-! The output routes of the API and the two engines behind them, over one
appliance: the registered outputs, the schedules and the pause rule. Whatever
switches an output goes through `OutputsService.toggle`. -/
namespace WattPost.Outputs

open Cloud (Json Fields)
open Schedules (Rule Schedule TriggerKind ToggleOutcome WeatherCache)
open SolarPause (PauseCfg BankSnapshot PauseReport)

section Service

/-- What an adapter exposes, as `discover_all` registers it. -/
structure Discovered where
  id : String
  deviceLabel : String
  name : String
  kind : String
  capabilities : List String
deriving DecidableEq

/-- What `discover_all` collects: one output for an id, the last one found. -/
structure Discovery where
  outputs : List Discovered
  nodup : (outputs.map Discovered.id).Nodup

def Discovery.ids (found : Discovery) : List String := found.outputs.map Discovered.id

/-- No device and no plug. -/
def Discovery.empty : Discovery := ⟨[], List.nodup_nil⟩

/-- The output tables, the `_known` outputs of the service, and the pause rule of
the configuration. -/
structure Appliance where
  service : State
  known : List String
  schedules : List Schedule
  lastScheduleId : Nat
  pause : PauseCfg

/-- How the toggle of a known output goes on: its device is not configured, the
transport is not running, or the adapter's write returned or raised. -/
inductive Dispatch where
  | noDevice (label : String)
  | noTransport (id : String)
  | wrote (result : WriteResult)
  | crashed (message : String)

/-- What a toggle meets: the outputs a new discovery would find, the seconds that
have passed before the command is stamped, and the rest of the way. -/
structure Meet where
  found : Discovery
  delay : Nat
  dispatch : Dispatch

/-- The exceptions of `toggle`. -/
inductive ToggleError where
  | unknownOutput (outputId : String)
  | unknownDevice (label : String)
  | transportNotRunning (id : String)
deriving DecidableEq

def ToggleError.typeName : ToggleError → String
  | .unknownOutput _ => "KeyError"
  | .unknownDevice _ => "KeyError"
  | .transportNotRunning _ => "RuntimeError"

/-- `str(e)`; that of a `KeyError` is quoted. -/
def ToggleError.message : ToggleError → String
  | .unknownOutput outputId => "\"unknown output '" ++ outputId ++ "'\""
  | .unknownDevice label => "\"device '" ++ label ++ "' not found in config\""
  | .transportNotRunning id =>
      "transport '" ++ id ++ "' not running, has the daemon finished its first poll cycle?"

/-- `upsert_output`. -/
def upsertOutput (outputs : List OutputRow) (d : Discovered) : List OutputRow :=
  if (findRow outputs d.id).isSome then
    updateRow outputs d.id fun row =>
      { row with
        deviceLabel := d.deviceLabel
        name := d.name
        kind := d.kind
        capabilities := d.capabilities }
  else
    outputs ++
      [{ id := d.id
         deviceLabel := d.deviceLabel
         name := d.name
         kind := d.kind
         state := none
         stateAt := none
         lastCommandJson := none
         safetyConfirmed := false
         capabilities := d.capabilities }]

/-- `discover_all`. -/
def discoverAll (a : Appliance) (found : Discovery) : Appliance :=
  { a with
    service := { a.service with outputs := found.outputs.foldl upsertOutput a.service.outputs }
    known := found.ids }

/-- The write and what follows it: the command, its record and the confirmed
state. -/
def sendCommand (a : Appliance) (outputId : String) (on : Bool) (issuer : String) (delay : Nat)
    (result : WriteResult) : Appliance :=
  { a with
    service := applyWrite a.service
      { outputId := outputId, on := on, time := a.service.clock + delay, issuer := issuer
        result := resultStr result } result }

/-- `OutputsService.toggle`. -/
def toggleOutput (a : Appliance) (outputId : String) (on : Bool) (issuer : String) (m : Meet) :
    Except ToggleError WriteResult × Appliance :=
  let a := if a.known.contains outputId then a else discoverAll a m.found
  if !a.known.contains outputId then (.error (.unknownOutput outputId), a)
  else
    match m.dispatch with
    | .noDevice label => (.error (.unknownDevice label), a)
    | .noTransport id => (.error (.transportNotRunning id), a)
    | .wrote result => (.ok result, sendCommand a outputId on issuer m.delay result)
    | .crashed message =>
        let result : WriteResult := { ok := false, confirmedState := none, detail := message }
        (.ok result, sendCommand a outputId on issuer m.delay result)

end Service

section Engines

def triggerText : TriggerKind → String
  | .time => "time"
  | .sunrise => "sunrise"
  | .sunset => "sunset"

/-- `ORDER BY output_id, trigger_kind, trigger_time`; a missing time comes first. -/
def scheduleKey (row : Schedule) : List String :=
  row.rule.outputId :: triggerText row.rule.triggerKind :: row.rule.triggerTime.toList

/-- `list_schedules(None)`. -/
def listSchedules (rows : List Schedule) : List Schedule :=
  rows.insertionSort (fun x y => scheduleKey x ≤ scheduleKey y)

/-- How the engine stores the end of a toggle. -/
def outcomeOf : Except ToggleError WriteResult → ToggleOutcome
  | .ok result => .returned result.ok result.detail
  | .error e =>
      if e.typeName = "KeyError" then .outputNotFound
      else .crashed (e.typeName ++ ":" ++ e.message)

/-- The body of the loop of `fire_due_schedules`, for a schedule that is due. -/
def fireSchedule (meets : Nat → Meet) (a : Appliance) (sched : Schedule) : Appliance :=
  let (res, after) := toggleOutput a sched.rule.outputId sched.rule.on
    ("schedule:" ++ toString sched.rule.id) (meets sched.rule.id)
  { after with
    schedules := Schedules.markScheduleRun after.schedules sched.rule.id a.service.clock
      (outcomeOf res).resultStr }

/-- The schedules that a tick fires, in order. -/
def dueSchedules (zone : LocalTime.Zone) (a : Appliance) (cache : Option WeatherCache) :
    List Schedule :=
  (listSchedules a.schedules).filter (Schedules.due zone a.service.clock cache)

/-- `fire_schedules_if_due`. -/
def fireDueSchedules (zone : LocalTime.Zone) (a : Appliance) (cache : Option WeatherCache)
    (meets : Nat → Meet) : Appliance :=
  (dueSchedules zone a cache).foldl (fireSchedule meets) a

/-- The toggle that follows a decision, and its report. -/
def applyPause (a : Appliance) (outputId : String) (on : Bool) (m : Meet)
    (report : PauseReport) : PauseReport × Appliance :=
  match toggleOutput a outputId on "auto:solar_pause" m with
  | (.ok result, after) =>
      ({ report with applied := result.ok, writeDetail := some result.detail }, after)
  | (.error e, after) =>
      ({ report with applied := false, writeDetail := some (e.typeName ++ ": " ++ e.message) },
        after)

/-- `evaluate_solar_pause`; `bank` is what `_read_bank_snapshot` returned. -/
def evaluateSolarPause (a : Appliance) (bank : Option BankSnapshot) (m : Meet) :
    PauseReport × Appliance :=
  match a.pause.chargerOutputId with
  | none => ({ applied := false, decision := .unchanged, reason := .notConfigured }, a)
  | some outputId =>
      if a.pause.enabled = false ∨ outputId = "" then
        ({ applied := false, decision := .unchanged, reason := .notConfigured }, a)
      else
        match bank, SolarPause.readChargerSnapshot a.service.outputs outputId with
        | none, _ => ({ applied := false, decision := .unchanged, reason := .noBankReading }, a)
        | some _, none =>
            ({ applied := false, decision := .unchanged, reason := .unknownOutput outputId }, a)
        | some bank, some charger =>
            let decision := SolarPause.decide a.pause bank charger a.service.clock
            let report : PauseReport :=
              { applied := false, decision := decision.action, reason := decision.reason
                bank := some bank, chargerOn := some charger.on }
            match decision.action with
            | .unchanged => (report, a)
            | .forceOn => applyPause a outputId true m report
            | .forceOff => applyPause a outputId false m report

end Engines

section Requests

/-- `ScheduleRequest`. -/
structure ScheduleRequest where
  action : Option String
  triggerKind : Option String
  triggerTime : Option String
  offsetMin : Option Int
  daysMask : Option Int
  enabled : Option Bool

/-- `SolarPausePatch`. -/
structure SolarPausePatch where
  enabled : Option Bool
  chargerOutputId : Option String
  targetSoc : Option ℚ
  recoverSoc : Option ℚ
  hardFloorSoc : Option ℚ
  pvSurplusW : Option ℚ
  cooldownMinutes : Option Int

/-- The refusals of the output routes. -/
inductive ApiError where
  | outputNotFound (outputId : String)
  | safetyGateNotPassed
  | toggleRaised (error : ToggleError)
  | writeFailed (result : WriteResult)
  | badAction
  | badTriggerKind
  | badTriggerTime
  | badOffset
  | badDaysMask
  | scheduleNotFound (outputId : String) (scheduleId : Nat)
  | badPauseRule (message : String)
  | configNotWritten
deriving DecidableEq

def ApiError.status : ApiError → Nat
  | .outputNotFound _ => 404
  | .safetyGateNotPassed => 409
  | .toggleRaised (.unknownOutput _) => 404
  | .toggleRaised (.unknownDevice _) => 404
  | .toggleRaised (.transportNotRunning _) => 503
  | .writeFailed _ => 502
  | .badAction => 400
  | .badTriggerKind => 400
  | .badTriggerTime => 400
  | .badOffset => 400
  | .badDaysMask => 400
  | .scheduleNotFound _ _ => 404
  | .badPauseRule _ => 400
  | .configNotWritten => 500

/-- The action texts, the trigger kinds and the strict `HH:MM`. -/
def actionOf : String → Option Bool
  | "on" => some true
  | "off" => some false
  | _ => none

def triggerKindOf : String → Option TriggerKind
  | "time" => some .time
  | "sunrise" => some .sunrise
  | "sunset" => some .sunset
  | _ => none

/-- `_validate_schedule_fields`: the complaint, if there is one. -/
def validateScheduleFields (data : ScheduleRequest) : Option ApiError :=
  if data.action.any (fun x => (actionOf x).isNone) then some .badAction
  else if data.triggerKind.any (fun x => (triggerKindOf x).isNone) then some .badTriggerKind
  else if data.triggerKind = some "time" ∧
      data.triggerTime.any (fun x => x != "" && (Schedules.parseHhmm (some x)).isNone) then
    some .badTriggerTime
  else if data.offsetMin.any (fun n => n < -720 || 720 < n) then some .badOffset
  else if data.daysMask.any (fun n => n < 0 || 127 < n) then some .badDaysMask
  else none

/-- The default of an empty or missing text. -/
def orText (s : Option String) (default : String) : String :=
  if s.getD "" = "" then default else s.getD ""

/-- The server's defaults of a new schedule. -/
def ScheduleRequest.withDefaults (data : ScheduleRequest) : ScheduleRequest where
  action := some (orText data.action "on")
  triggerKind := some (orText data.triggerKind "time")
  triggerTime := data.triggerTime
  offsetMin := some (data.offsetMin.getD 0)
  daysMask := some (data.daysMask.getD 127)
  enabled := some (data.enabled.getD true)

/-- The fields that a request sets; the others stay. -/
def ScheduleRequest.patch (data : ScheduleRequest) (rule : Rule) : Rule :=
  { rule with
    on := (data.action.bind actionOf).getD rule.on
    triggerKind := (data.triggerKind.bind triggerKindOf).getD rule.triggerKind
    triggerTime := data.triggerTime.or rule.triggerTime
    offsetMin := data.offsetMin.getD rule.offsetMin
    daysMask := (data.daysMask.map Int.toNat).getD rule.daysMask
    enabled := data.enabled.getD rule.enabled }

def SolarPausePatch.patch (data : SolarPausePatch) (cfg : PauseCfg) : PauseCfg where
  enabled := data.enabled.getD cfg.enabled
  chargerOutputId := data.chargerOutputId.or cfg.chargerOutputId
  targetSoc := data.targetSoc.getD cfg.targetSoc
  recoverSoc := data.recoverSoc.getD cfg.recoverSoc
  hardFloorSoc := data.hardFloorSoc.getD cfg.hardFloorSoc
  pvSurplusW := data.pvSurplusW.getD cfg.pvSurplusW
  cooldownMinutes := data.cooldownMinutes.getD cfg.cooldownMinutes

/-- A call of one of the handlers. -/
inductive Endpoint where
  | listOutputs (device : Option String)
  | toggleOutput (outputId : String) (on : Bool)
  | confirmOutputSafety (outputId : String)
  | listOutputSchedules (outputId : String)
  | createOutputSchedule (outputId : String) (data : ScheduleRequest)
  | updateOutputSchedule (outputId : String) (scheduleId : Nat) (data : ScheduleRequest)
  | deleteOutputSchedule (outputId : String) (scheduleId : Nat)
  | getSolarPause
  | patchSolarPause (data : SolarPausePatch)

def Endpoint.method : Endpoint → String
  | .listOutputs _ => "GET"
  | .toggleOutput _ _ => "POST"
  | .confirmOutputSafety _ => "POST"
  | .listOutputSchedules _ => "GET"
  | .createOutputSchedule _ _ => "POST"
  | .updateOutputSchedule _ _ _ => "PUT"
  | .deleteOutputSchedule _ _ => "DELETE"
  | .getSolarPause => "GET"
  | .patchSolarPause _ => "PUT"

/-- What a request meets: the bank reading, the way of a toggle, and whether
config.yaml can be read and written. -/
structure Circumstance where
  bank : Option BankSnapshot
  way : Meet
  configWritten : Bool

/-- What a handler returns. -/
inductive Answer where
  | outputs (rows : List OutputRow)
  | schedules (rows : List Schedule)
  | toggled (result : WriteResult)
  | confirmed
  | saved (scheduleId : Nat)
  | pause (cfg : PauseCfg) (status : PauseReport)

/-- `toggle_output`. -/
def toggleEndpoint (a : Appliance) (outputId : String) (on : Bool) (m : Meet) :
    Except ApiError Answer × Appliance :=
  match findRow a.service.outputs outputId with
  | none => (.error (.outputNotFound outputId), a)
  | some row =>
      if !row.safetyConfirmed then (.error .safetyGateNotPassed, a)
      else
        match toggleOutput a outputId on "user" m with
        | (.error e, after) => (.error (.toggleRaised e), after)
        | (.ok result, after) =>
            if result.ok then (.ok (.toggled result), after)
            else (.error (.writeFailed result), after)

/-- `confirm_output_safety`, of the API and of the store. -/
def confirmEndpoint (a : Appliance) (outputId : String) : Except ApiError Answer × Appliance :=
  if (findRow a.service.outputs outputId).isNone then (.error (.outputNotFound outputId), a)
  else
    (.ok .confirmed,
      { a with
        service := { a.service with
          outputs := updateRow a.service.outputs outputId fun row =>
            { row with safetyConfirmed := true } } })

/-- `create_output_schedule`. -/
def createSchedule (a : Appliance) (outputId : String) (data : ScheduleRequest) :
    Except ApiError Answer × Appliance :=
  if (findRow a.service.outputs outputId).isNone then (.error (.outputNotFound outputId), a)
  else
    match validateScheduleFields data.withDefaults with
    | some e => (.error e, a)
    | none =>
        let id := a.lastScheduleId + 1
        let rule : Rule := data.withDefaults.patch
          { id := id, outputId := outputId, on := true, triggerKind := .time
            triggerTime := none, offsetMin := 0, daysMask := 127, enabled := true }
        (.ok (.saved id),
          { a with
            schedules := a.schedules ++
              [{ rule := rule, lastRunAt := none, lastRunResult := none }]
            lastScheduleId := id })

/-- `get_schedule`. -/
def getSchedule (a : Appliance) (scheduleId : Nat) : Option Schedule :=
  a.schedules.find? (fun row => row.rule.id = scheduleId)

/-- `update_output_schedule`. -/
def updateSchedule (a : Appliance) (outputId : String) (scheduleId : Nat)
    (data : ScheduleRequest) : Except ApiError Answer × Appliance :=
  if ((getSchedule a scheduleId).filter (fun row => row.rule.outputId == outputId)).isNone then
    (.error (.scheduleNotFound outputId scheduleId), a)
  else
    match validateScheduleFields data with
    | some e => (.error e, a)
    | none =>
        (.ok (.saved scheduleId),
          { a with
            schedules := a.schedules.map fun row =>
              if row.rule.id = scheduleId then { row with rule := data.patch row.rule } else row })

/-- `delete_output_schedule`. -/
def deleteSchedule (a : Appliance) (outputId : String) (scheduleId : Nat) :
    Except ApiError Answer × Appliance :=
  if ((getSchedule a scheduleId).filter (fun row => row.rule.outputId == outputId)).isNone then
    (.error (.scheduleNotFound outputId scheduleId), a)
  else
    (.ok (.saved scheduleId),
      { a with schedules := a.schedules.filter (fun row => row.rule.id != scheduleId) })

/-- `get_solar_pause`. -/
def getSolarPause (a : Appliance) (c : Circumstance) : Except ApiError Answer × Appliance :=
  let (status, after) := evaluateSolarPause a c.bank c.way
  (.ok (.pause a.pause status), after)

/-- `patch_solar_pause`: the merged rule is checked when it is enabled, saved, and
evaluated at once. -/
def patchSolarPause (a : Appliance) (data : SolarPausePatch) (c : Circumstance) :
    Except ApiError Answer × Appliance :=
  let merged := data.patch a.pause
  match if merged.enabled then merged.validate else none with
  | some message => (.error (.badPauseRule message), a)
  | none =>
      if !c.configWritten then (.error .configNotWritten, a)
      else getSolarPause { a with pause := merged } c

def handle (a : Appliance) (endpoint : Endpoint) (c : Circumstance) :
    Except ApiError Answer × Appliance :=
  match endpoint with
  | .listOutputs device =>
      (.ok (.outputs ((a.service.outputs.filter
        (fun row => device.all (· == row.deviceLabel))).insertionSort
          (fun x y => [x.deviceLabel, x.name] ≤ [y.deviceLabel, y.name]))), a)
  | .toggleOutput outputId on => toggleEndpoint a outputId on c.way
  | .confirmOutputSafety outputId => confirmEndpoint a outputId
  | .listOutputSchedules outputId =>
      if (findRow a.service.outputs outputId).isNone then (.error (.outputNotFound outputId), a)
      else
        (.ok (.schedules ((listSchedules a.schedules).filter
          (fun row => row.rule.outputId == outputId))), a)
  | .createOutputSchedule outputId data => createSchedule a outputId data
  | .updateOutputSchedule outputId scheduleId data => updateSchedule a outputId scheduleId data
  | .deleteOutputSchedule outputId scheduleId => deleteSchedule a outputId scheduleId
  | .getSolarPause => getSolarPause a c
  | .patchSolarPause data => patchSolarPause a data c

end Requests

section Machine

/-- What can happen to the outputs: a request that reached its handler, the two
ticks of a poll cycle, a discovery, a state read back, and passing time. -/
inductive Happening where
  | request (endpoint : Endpoint) (c : Circumstance)
  | scheduleTick (cache : Option WeatherCache) (meets : Nat → Meet)
  | pauseTick (bank : Option BankSnapshot) (way : Meet)
  | discover (found : Discovery)
  | measured (outputId : String) (state : Int)
  | elapse (seconds : Nat)

def happen (zone : LocalTime.Zone) (a : Appliance) : Happening → Appliance
  | .request endpoint c => (handle a endpoint c).2
  | .scheduleTick cache meets => fireDueSchedules zone a cache meets
  | .pauseTick bank way => (evaluateSolarPause a bank way).2
  | .discover found => discoverAll a found
  | .measured outputId state =>
      { a with
        service := { a.service with
          outputs := updateOutputState a.service.outputs outputId (some state)
            a.service.clock } }
  | .elapse seconds => { a with service := { a.service with clock := a.service.clock + seconds } }

end Machine

end WattPost.Outputs
