import WattPost.Net.HelperWire
import WattPost.Net.WifiProfiles

/-! The join as the helper's calls make it has the effect on the profiles that the join as a
program over files has. -/
namespace Helperd

open FileProgram (Fault Files)
open Process (Proc)
open WifiJoin (Answer Faults Nmcli Plan)

/-- What an operation on files raises. -/
def faultReply (fault : Fault String) : Option String :=
  match fault with
  | .none => none
  | .failed _ => some "OSError"

/-- How an nmcli call ends. The files do not say what kind of exception it raised. -/
def nmcliReply : Nmcli → Except Raised Completed
  | .succeeds => .ok ⟨0, "", ""⟩
  | .fails stderr => .ok ⟨1, "", stderr⟩
  | .raises message => .error ⟨false, message⟩

/-- The profiles as the calls of a join leave them, where its operations fail as they do. -/
def respond (host : WifiJoin.Host) (faults : Faults) (c : Call) (files : Files String String) :
    Reply c × Files String String :=
  match c with
  | .makedirs _ => (faultReply faults.makedirs, files)
  | .write path body _ =>
      (faultReply faults.write, (FileProgram.write faults.write path body files).2)
  | .remove path => (faultReply faults.remove, (FileProgram.unlink faults.remove path files).2)
  | .run argv =>
      match argv with
      | [_, _, "load", _] => (nmcliReply faults.load, files)
      | [_, _, "up", _, _] => (nmcliReply faults.up, files)
      | [_, _, "delete", _, id] =>
          (nmcliReply faults.delete, (WifiJoin.dropNamed host id faults.gone files).2)
      | _ => (nmcliReply .succeeds, files)
  | .popen _ => ((none : Option String), files)
  | .which _ => ((none : Option String), files)
  | .probe _ => (false, files)
  | .pathExists _ => (false, files)

section Join

variable {host : WifiJoin.Host} {faults : Faults} {p : Plan} {files : Files String String}

theorem activate_refines :
    ∃ outcome, (activate p).runWith (respond host faults) 7 files =
        (some outcome, (WifiJoin.activate host faults p files).2) ∧
      outcome.mapError Raised.message = (WifiJoin.activate host faults p files).1 := by
  obtain ⟨makedirs, write, load, up, delete, gone, remove⟩ := faults
  cases makedirs with
  | failed leftover => exact ⟨_, rfl, rfl⟩
  | none =>
      cases write with
      | failed leftover =>
          cases leftover with
          | none => exact ⟨_, rfl, rfl⟩
          | some text => exact ⟨_, rfl, rfl⟩
      | none =>
          cases load with
          | raises message => exact ⟨_, rfl, rfl⟩
          | fails stderr =>
              cases remove with
              | none => exact ⟨_, rfl, rfl⟩
              | failed leftover => exact ⟨_, rfl, rfl⟩
          | succeeds =>
              cases up with
              | raises message => exact ⟨_, rfl, rfl⟩
              | succeeds => exact ⟨_, rfl, rfl⟩
              | fails stderr =>
                  cases delete with
                  | raises message => exact ⟨_, rfl, rfl⟩
                  | succeeds =>
                      cases remove with
                      | none => exact ⟨_, rfl, rfl⟩
                      | failed leftover => exact ⟨_, rfl, rfl⟩
                  | fails stderr =>
                      cases remove with
                      | none => exact ⟨_, rfl, rfl⟩
                      | failed leftover => exact ⟨_, rfl, rfl⟩

end Join

/-- Where no infinite prefix raises, the join answers and leaves the profiles as the program
over files does. -/
theorem actWifiJoin_refines {host : Host} {args : WattPost.Cloud.Fields}
    (h : overflows host args = false) (faults : Faults) (files : Files String String) :
    ∃ outcome, (actWifiJoin host args).runWith (respond host.toHost faults) 7 files =
        (some outcome, (WifiJoin.actWifiJoin host.toHost faults (joinArgs host args) files).2) ∧
      outcome.mapError Raised.message =
        (WifiJoin.actWifiJoin host.toHost faults (joinArgs host args) files).1 := by
  unfold actWifiJoin joinPlan WifiJoin.actWifiJoin
  rw [h, if_neg Bool.false_ne_true]
  cases WifiJoin.plan host.toHost (joinArgs host args) with
  | ok p => exact activate_refines
  | error r =>
      cases r with
      | raised message => exact ⟨_, rfl, rfl⟩
      | answered answer => exact ⟨_, rfl, rfl⟩

theorem actWifiJoin_refines_home :
    ∃ outcome, (actWifiJoin plainHost [("ssid", .str "Home")]).runWith
        (respond plainHost.toHost (WifiJoin.refused (.fails "no") .succeeds)) 7 (fun _ => none) =
        (some outcome, (WifiJoin.actWifiJoin plainHost.toHost
          (WifiJoin.refused (.fails "no") .succeeds)
          (joinArgs plainHost [("ssid", .str "Home")]) fun _ => none).2) ∧
      outcome.mapError Raised.message = (WifiJoin.actWifiJoin plainHost.toHost
        (WifiJoin.refused (.fails "no") .succeeds)
        (joinArgs plainHost [("ssid", .str "Home")]) fun _ => none).1 :=
  actWifiJoin_refines rfl _ _

end Helperd
