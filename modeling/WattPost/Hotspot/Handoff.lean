import Mathlib.Logic.Function.Basic

/-! The hotspot and who raises it: requests, the scan that bounces it, changes of the
configuration, and the monitor that raises it when there is no network. Each of them
runs from one `nmcli` call to the next, and the others run in between. A call that
fails has no effect. -/
namespace WattPost.Hotspot

/-! ### The configuration -/

/-- `HotspotCfg`. -/
structure HotspotCfg where
  enabled : Bool := false
  autoHandoff : Bool := false
  onboarding : Bool := true
  captivePortal : Bool := true
  ssid : String := "WattPost-Setup"
  password : String := ""
  band : String := "bg"
  channel : Int := 6
  interface : String := "wlan0"
  connectionName : String := "wattpost-hotspot"

structure HotspotConfigPayload where
  enabled : Option Bool := none
  autoHandoff : Option Bool := none
  captivePortal : Option Bool := none
  ssid : Option String := none
  password : Option String := none
  band : Option String := none
  channel : Option Int := none
  interface : Option String := none

/-- An empty password opens the network. -/
def passwordOk (password : String) : Bool :=
  password = "" || (8 ≤ password.length && password.length ≤ 63)

/-- The new block of `update_hotspot_config`, or the detail of its error. -/
def updateHotspotConfig (data : HotspotConfigPayload) (cur : HotspotCfg) :
    Except String HotspotCfg :=
  let ssid := data.ssid.getD cur.ssid
  let password := data.password.getD cur.password
  let band := data.band.getD cur.band
  let channel := data.channel.getD cur.channel
  if ssid = "" || 32 < ssid.length then .error "ssid must be 1..32 chars"
  else if !passwordOk password then
    .error "password must be 8..63 chars (WPA2) or empty (open network)"
  else if !(["bg", "a"].contains band) then .error "band must be 'bg' (2.4GHz) or 'a' (5GHz)"
  else if !(1 ≤ channel && channel ≤ 196) then .error "channel out of range"
  else
    .ok
      { enabled := data.enabled.getD cur.enabled
        autoHandoff := data.autoHandoff.getD cur.autoHandoff
        captivePortal := data.captivePortal.getD cur.captivePortal
        ssid := ssid, password := password, band := band, channel := channel
        interface := data.interface.getD cur.interface
        connectionName := cur.connectionName }

/-! ### Calls -/

/-- How an `nmcli` call ends: exit code zero, another exit code, or an exception. -/
inductive Reply where
  | ok
  | failed
  | raised
deriving DecidableEq

/-- Where `activate` waits. -/
inductive ActivateAt where
  | delete
  | add
  | modify
  | radioOn
  | ifaceReady
  | up
deriving DecidableEq

/-- After a call: the next one, or the end and whether it is a success. -/
inductive Next where
  | call (at_ : ActivateAt)
  | done (ok : Bool)

/-- `activate` from one call to the next. -/
def ActivateAt.next : ActivateAt → Reply → Next
  | .ifaceReady, _ => .call .up
  | _, .raised => .done false
  | .delete, _ => .call .add
  | .add, .ok => .call .modify
  | .modify, .ok => .call .radioOn
  | .radioOn, _ => .call .ifaceReady
  | .up, .ok => .done true
  | _, .failed => .done false

/-- Who brings the hotspot up. -/
inductive Actor where
  | manual
  | monitor
  | bounce
  | config
deriving DecidableEq

/-- What `lan_kind` finds. -/
inductive Lan where
  | eth
  | wifi
deriving DecidableEq

def Lan.text : Lan → String
  | .eth => "eth"
  | .wifi => "wifi"

/-! ### The parties -/

/-- Where `tick` waits, with what it has read. -/
inductive TickAt where
  | active (onboarding eff : Bool)
  | tidy
  | lan (onboarding apUp : Bool)
  | drop (lan : Lan)
  | probe
  | raise (at_ : ActivateAt)

/-- A request, a scan or a change of the configuration under way, and where it
waits. -/
inductive Task where
  | hotspotOn (at_ : ActivateAt)
  | hotspotOff
  | bounceStatus
  | bounceDown
  | bounceScan (wasActive : Bool)
  | bounceUp (at_ : ActivateAt)
  | apply (new : HotspotCfg)
  | applyUp (at_ : ActivateAt)

/-- What the monitor did: it took down a hotspot that was up, of which we note who
last brought it up; or a tick ended. -/
inductive Event where
  | tookDown (owner : Option Actor)
  | reported (outcome : String) (apUp : Bool) (owner : Option Actor)
deriving DecidableEq

/-- The service, the monitor, the radio, and what is under way. `owner` is who made
the last successful bring-up. -/
structure Appliance where
  cfg : HotspotCfg
  nmcli : Bool
  networked : Bool
  raisedByMonitor : Bool := false
  missStreak : Nat := 0
  pollsSinceRaise : Nat := 0
  tick : Option TickAt := none
  tasks : Nat → Option Task := fun _ => none
  apUp : Bool := false
  owner : Option Actor := none
  log : List Event := []

/-- `GRACE_CHECKS`. -/
def graceChecks : Nat := 2

/-- `RETRY_AFTER_POLLS`. -/
def retryAfterPolls : Nat := 10

namespace Appliance

def goDown (s : Appliance) : Appliance := { s with apUp := false }

def comeUp (s : Appliance) (actor : Actor) : Appliance :=
  { s with apUp := true, owner := some actor }

/-- The monitor takes the hotspot down. -/
def takeDown (s : Appliance) : Appliance :=
  { s with apUp := false, log := if s.apUp then s.log ++ [.tookDown s.owner] else s.log }

/-- What a call of `activate` does: the old profile goes with the connection. -/
def activateEffect (s : Appliance) (actor : Actor) (at_ : ActivateAt) (r : Reply) : Appliance :=
  match at_, r with
  | .delete, .ok => if actor = .monitor then s.takeDown else s.goDown
  | .up, .ok => s.comeUp actor
  | _, _ => s

def setTask (s : Appliance) (i : Nat) (task : Option Task) : Appliance :=
  { s with tasks := Function.update s.tasks i task }

/-- Whether `activate` gets as far as its first call. -/
def canActivate (s : Appliance) : Bool := s.nmcli && passwordOk s.cfg.password

/-- Task `i` goes on to activate, if it can. -/
def startActivate (s : Appliance) (i : Nat) (waits : ActivateAt → Task) : Appliance :=
  s.setTask i (if s.canActivate then some (waits .delete) else none)

/-- A call of `activate` in task `i` returns. -/
def resumeActivate (s : Appliance) (i : Nat) (actor : Actor) (waits : ActivateAt → Task)
    (at_ : ActivateAt) (r : Reply) : Appliance :=
  match at_.next r with
  | .call at_' => (s.activateEffect actor at_ r).setTask i (some (waits at_'))
  | .done _ => (s.activateEffect actor at_ r).setTask i none

/-- `connection down`. -/
def downEffect (s : Appliance) (r : Reply) : Appliance :=
  match r with
  | .ok => s.goDown
  | _ => s

/-- What `_is_active` answers; an exception is none of its answers. -/
def readsActive (s : Appliance) (r : Reply) : Bool :=
  match r with
  | .ok => s.apUp
  | _ => false

/-! ### The monitor -/

def onboardingActive (s : Appliance) : Bool := s.cfg.onboarding && !s.networked

def resetMonitor (s : Appliance) : Appliance :=
  { s with missStreak := 0, pollsSinceRaise := 0, raisedByMonitor := false }

/-- The tick ends with an outcome. -/
def report (s : Appliance) (outcome : String) : Appliance :=
  { s with tick := none, log := s.log ++ [.reported outcome s.apUp s.owner] }

/-- `tick`, up to its first call. -/
def tickBegin (s : Appliance) : Appliance :=
  if s.cfg.enabled then s.report "skip:enabled"
  else if !s.nmcli then s.report "skip:unavailable"
  else
    { s with tick := some (.active s.onboardingActive (s.cfg.autoHandoff || s.onboardingActive)) }

/-- `tick` after `_is_active`. -/
def tickActive (s : Appliance) (onboarding eff apUp : Bool) : Appliance :=
  if !eff then
    if s.raisedByMonitor && apUp then { s with tick := some .tidy }
    else s.resetMonitor.report "off"
  else { s with tick := some (.lan onboarding apUp) }

/-- `tick` after `lan_kind`. -/
def tickLan (s : Appliance) (onboarding apUp : Bool) (lan : Option Lan) : Appliance :=
  let s := { s with networked := s.networked || lan.isSome }
  if apUp && s.raisedByMonitor then
    match lan with
    | some lan => { s with tick := some (.drop lan) }
    | none =>
        if onboarding then s.report "hold:onboarding"
        else
          let s := { s with pollsSinceRaise := s.pollsSinceRaise + 1 }
          if retryAfterPolls ≤ s.pollsSinceRaise then { s with tick := some .probe }
          else s.report "hold"
  else if apUp then s.report "skip:manual"
  else
    match lan with
    | none =>
        let s := { s with missStreak := s.missStreak + 1 }
        if graceChecks ≤ s.missStreak then
          if s.canActivate then { s with tick := some (.raise .delete) }
          else s.report "raise-failed"
        else s.report "wait"
    | some _ => { s with missStreak := 0 }.report "ok"

/-- The effect of `connection down` in a tick, whose answer the tick ignores. -/
def tickDown (s : Appliance) (r : Reply) : Appliance :=
  match r with
  | .ok => s.takeDown
  | _ => s

/-- `tick` after a call of its `activate`. -/
def tickRaise (s : Appliance) (at_ : ActivateAt) (r : Reply) : Appliance :=
  let s := s.activateEffect .monitor at_ r
  match at_.next r with
  | .call at_' => { s with tick := some (.raise at_') }
  | .done true =>
      { s with raisedByMonitor := true, pollsSinceRaise := 0, missStreak := 0 }.report "raise"
  | .done false => s.report "raise-failed"

/-- The call that the tick waits for returns; `lan` is what the device list shows. -/
def tickResume (s : Appliance) (at_ : TickAt) (r : Reply) (lan : Option Lan) : Appliance :=
  match at_ with
  | .active onboarding eff =>
      if r = .raised then { s with tick := none }
      else s.tickActive onboarding eff (s.readsActive r)
  | .tidy => (s.tickDown r).resetMonitor.report "off"
  | .lan onboarding apUp => s.tickLan onboarding apUp (if r = .ok then lan else none)
  | .drop lan => (s.tickDown r).resetMonitor.report ("drop:" ++ lan.text)
  | .probe => (s.tickDown r).resetMonitor.report "probe-drop"
  | .raise at_ => s.tickRaise at_ r

/-- The tick is cancelled where it waits, whether its call still lands or not. -/
def cancelTick (s : Appliance) (at_ : TickAt) (lands : Bool) : Appliance :=
  let s := { s with tick := none }
  match at_, lands with
  | .tidy, true | .drop _, true | .probe, true => s.takeDown
  | .raise at_, true => s.activateEffect .monitor at_ .ok
  | _, _ => s

/-! ### The others -/

/-- The call that task `i` waits for returns. -/
def resumeTask (s : Appliance) (i : Nat) (task : Task) (r : Reply) : Appliance :=
  match task with
  | .hotspotOn at_ => s.resumeActivate i .manual .hotspotOn at_ r
  | .hotspotOff => (s.downEffect r).setTask i none
  | .bounceStatus =>
      s.setTask i (some (if s.readsActive r then .bounceDown else .bounceScan false))
  | .bounceDown => (s.downEffect r).setTask i (some (.bounceScan true))
  | .bounceScan wasActive =>
      if wasActive then s.startActivate i .bounceUp else s.setTask i none
  | .bounceUp at_ => s.resumeActivate i .bounce .bounceUp at_ r
  | .apply new =>
      if new.enabled && s.nmcli then s.startActivate i .applyUp else s.setTask i none
  | .applyUp at_ => s.resumeActivate i .config .applyUp at_ r

end Appliance

/-- What happens, in any order. The hotspot can also go down by itself. -/
inductive Op where
  | tick
  | tickResume (r : Reply) (lan : Option Lan)
  | cancelTick (lands : Bool)
  | hotspotOn (i : Nat)
  | hotspotOff (i : Nat)
  | bounce (i : Nat)
  | putConfig (i : Nat) (data : HotspotConfigPayload)
  | resume (i : Nat) (r : Reply)
  | lost

/-- A tick begins when none is under way, a task when its number is free. -/
def Appliance.step (s : Appliance) : Op → Appliance
  | .tick =>
      match s.tick with
      | none => s.tickBegin
      | some _ => s
  | .tickResume r lan =>
      match s.tick with
      | some at_ => s.tickResume at_ r lan
      | none => s
  | .cancelTick lands =>
      match s.tick with
      | some at_ => s.cancelTick at_ lands
      | none => s
  | .hotspotOn i =>
      match s.tasks i with
      | none => s.startActivate i .hotspotOn
      | some _ => s
  | .hotspotOff i =>
      match s.tasks i with
      | none => s.setTask i (if s.nmcli then some .hotspotOff else none)
      | some _ => s
  | .bounce i =>
      match s.tasks i with
      | none => s.setTask i (some (if s.nmcli then .bounceStatus else .bounceScan false))
      | some _ => s
  | .putConfig i data =>
      match s.tasks i, updateHotspotConfig data s.cfg with
      | none, .ok new => { s with cfg := new }.setTask i (some (.apply new))
      | _, _ => s
  | .resume i r =>
      match s.tasks i with
      | some task => s.resumeTask i task r
      | none => s
  | .lost => s.goDown

end WattPost.Hotspot
