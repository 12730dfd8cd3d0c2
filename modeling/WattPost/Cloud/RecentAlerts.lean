import WattPost.Alerts.RuleStore

/-! The alerts in the heartbeats: a heartbeat collects the events newer than a cursor,
may shed them to fit its budget, and moves the cursor when it was answered. Several
heartbeats can be under way. -/
namespace WattPost.Cloud.RecentAlerts

open Alerts

variable {N V : Type}

/-! ### The extras of a heartbeat -/

/-- The value of a key of `extras`. -/
inductive Extra (N V : Type) where
  | alerts (notices : List (Notice N))
  | other (v : V)

abbrev Extras (N V : Type) := List (String × Extra N V)

/-- The keys that the rest of the payload fills. -/
structure Others (V : Type) where
  entries : List (String × V)
  noAlerts : ∀ e ∈ entries, e.1 ≠ "recent_alerts"

/-- `_EXTRAS_BUDGET`. -/
def extrasBudget : Nat := 7800

/-- `_EXTRAS_KEEP`. -/
def extrasKeep : List String := ["version", "deployment", "kiosk_skin", "alert_count"]

/-- The first of the biggest keys that may be shed; `bytes` is the length of the
JSON text. -/
def biggest (bytes : Extras N V → Nat) (extras : Extras N V) : Option String :=
  ((extras.filter fun e => !extrasKeep.contains e.1).foldl
    (fun best e =>
      match best with
      | none => some e
      | some b => if bytes [b] < bytes [e] then some e else some b) none).map Prod.fst

/-- The shedding loop, and what it leaves of the pending marker. -/
def shed (bytes : Extras N V → Nat) : Nat → Extras N V → Option Int → Extras N V × Option Int
  | 0, extras, pendingTs => (extras, pendingTs)
  | fuel + 1, extras, pendingTs =>
      if bytes extras ≤ extrasBudget then (extras, pendingTs)
      else
        match biggest bytes extras with
        | none => (extras, pendingTs)
        | some key =>
            shed bytes fuel (extras.filter fun e => e.1 ≠ key)
              (if key = "recent_alerts" then none else pendingTs)

/-! ### Heartbeats -/

/-- How far a heartbeat is: collecting, sent, or answered successfully. -/
inductive Stage where
  | building
  | sent
  | answered
deriving DecidableEq

/-- A heartbeat under way; `alerts` is its `recent_alerts`, if it has any. -/
structure Flight (N : Type) where
  stage : Stage
  alerts : Option (List (Notice N))

/-- `CloudService`, with the engine. `fired` and `answered` record what happened:
the events, and the lists in the bodies that were answered successfully. -/
structure Service (N : Type) where
  engine : AlertEngine N
  rules : List (AlertRuleCfg N)
  uploadedTs : Int := 0
  pendingTs : Option Int := none
  flights : Nat → Option (Flight N) := fun _ => none
  fired : List (AlertEvent N) := []
  answered : List (List (Notice N)) := []

/-- `rule_transports.get(rule_id, [])`: the last rule of an id counts. -/
def ruleTransports (rules : List (AlertRuleCfg N)) (id : String) : List String :=
  ((rules.reverse.find? fun r => r.id = id).map AlertRuleCfg.transports).getD []

namespace Service

/-- The events that the next heartbeat reports. -/
def recent (s : Service N) : List (AlertEvent N) :=
  (s.engine.recentEventsSince s.uploadedTs 20).take 20

/-- What a heartbeat collects now. -/
def collected (s : Service N) : Option (List (Notice N)) :=
  if s.recent.isEmpty then none
  else some (s.recent.map fun e => (e, ruleTransports s.rules e.ruleId))

def setFlight (s : Service N) (h : Nat) (flight : Option (Flight N)) : Service N :=
  { s with flights := Function.update s.flights h flight }

/-- The engine fires. -/
def fire (s : Service N) (event : AlertEvent N) : Service N :=
  { s with engine := s.engine.record event, fired := s.fired ++ [event] }

/-- Heartbeat `h` begins and collects its alerts. -/
def collect (s : Service N) (h : Nat) : Service N :=
  { s.setFlight h (some ⟨.building, s.collected⟩) with
    pendingTs := if s.recent.isEmpty then s.pendingTs else (s.recent.map AlertEvent.ts).max? }

/-- The payload is complete and is trimmed; the keys before the alerts and after
them are those of the rest of the payload. -/
def trim (bytes : Extras N V → Nat) (s : Service N) (h : Nat) (flight : Flight N)
    (before after : Others V) : Service N :=
  let other := fun e : String × V => (e.1, (Extra.other e.2 : Extra N V))
  let alerts :=
    match flight.alerts with
    | none => []
    | some notices => [("recent_alerts", Extra.alerts notices)]
  let extras := before.entries.map other ++ alerts ++ after.entries.map other
  let (kept, pendingTs) := shed bytes extras.length extras s.pendingTs
  { s.setFlight h (some ⟨.sent,
      if kept.any fun e => e.1 = "recent_alerts" then flight.alerts else none⟩) with
    pendingTs := pendingTs }

/-- The post fails, or the cloud answers with success. -/
def respond (s : Service N) (h : Nat) (flight : Flight N) (ok : Bool) : Service N :=
  if ok then
    { s.setFlight h (some { flight with stage := .answered }) with
      answered := s.answered ++ [flight.alerts.getD []] }
  else s.setFlight h none

/-- The end of a successful heartbeat. -/
def promote (s : Service N) (h : Nat) : Service N :=
  match s.pendingTs with
  | none => s.setFlight h none
  | some ts => { s.setFlight h none with uploadedTs := ts, pendingTs := none }

end Service

/-- What happens, in any order; a heartbeat that fails before it is sent is never
heard of again. -/
inductive Op (N V : Type) where
  | fire (event : AlertEvent N)
  | setRules (rules : List (AlertRuleCfg N))
  | collect (h : Nat)
  | trim (h : Nat) (before after : Others V)
  | respond (h : Nat) (ok : Bool)
  | promote (h : Nat)

/-- An operation of a heartbeat that is not that far does nothing. -/
def Service.step (bytes : Extras N V → Nat) (s : Service N) : Op N V → Service N
  | .fire event => s.fire event
  | .setRules rules => { s with rules := rules }
  | .collect h =>
      match s.flights h with
      | none => s.collect h
      | some _ => s
  | .trim h before after =>
      match s.flights h with
      | some flight => if flight.stage = .building then s.trim bytes h flight before after else s
      | none => s
  | .respond h ok =>
      match s.flights h with
      | some flight => if flight.stage = .sent then s.respond h flight ok else s
      | none => s
  | .promote h =>
      match s.flights h with
      | some flight => if flight.stage = .answered then s.promote h else s
      | none => s

end WattPost.Cloud.RecentAlerts
