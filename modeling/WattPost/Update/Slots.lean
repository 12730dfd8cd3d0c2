import WattPost.Lib.LockedPool
import Mathlib.Logic.Function.Basic

/-! The two slots of an installation and the scripts that move it from one to the other:
`wattpost-update` builds a release in the slot that is not live and swaps the link,
`wattpost-rollback` swaps it back. Each command of a script may fail, and the script may be cut
off between any two of them. -/
namespace WattPost.Update

open Process

/-- The slots under `/opt/wattpost-slots`. -/
inductive SlotName where
  | a
  | b
deriving DecidableEq

def SlotName.other : SlotName → SlotName
  | .a => .b
  | .b => .a

@[simp] theorem SlotName.other_ne (s : SlotName) : s.other ≠ s := by cases s <;> decide

@[simp] theorem SlotName.ne_other (s : SlotName) : s ≠ s.other := s.other_ne.symm

@[simp] theorem SlotName.other_other (s : SlotName) : s.other.other = s := by cases s <;> rfl

theorem SlotName.eq_other_of_ne {s t : SlotName} (h : s ≠ t) : s = t.other := by
  cases s <;> cases t <;> first | rfl | exact absurd rfl h

/-- What is whole in a slot: the sources of a release, the release that is installed in the
venv, the file `version`, and whether the daemon's user owns it all. -/
structure SlotDir (R : Type) where
  src : Option R := none
  venv : Option R := none
  version : Option String := none
  owned : Bool := false
deriving DecidableEq

/-- The disk, as far as the scripts see it, and two facts that only the reader keeps: which
slots have passed their probe since they were last touched, or came with the installer, and
whether an update has wiped its slot and no probe has passed since. -/
structure Disk (R : Type) where
  slots : SlotName → Option (SlotDir R)
  live : SlotName
  appNew : Option SlotName
  previous : Option SlotName
  tarball : Option R
  probed : SlotName → Bool
  brokenOff : Bool

/-- The commands that build a slot up. -/
inductive BuildStep where
  | tar
  | makeVenv
  | pipUpgrade
  | pipInstall
  | pipReinstall
  | readVersion
  | writeVersion
  | chown
deriving DecidableEq

/-- The commands that answer with their exit status. -/
inductive Action where
  | rmSlot (s : SlotName)
  | mkdirSlot (s : SlotName)
  | curlTarball
  | curlSha256
  | sha256sum
  | curlManifest
  | build (step : BuildStep) (s : SlotName)
  | startProbe (s : SlotName)
  | curlProbe (endpoint : String)
  | logPassed (s : SlotName)
  | linkNew (s : SlotName)
  | moveNew
  | linkPrevious (s : SlotName)
  | syncPrivileged
  | restart
  | startNoBlock
  | curlHealth
  | isDir (s : SlotName)
deriving DecidableEq

/-- A command of a script. -/
inductive Cmd where
  | act (c : Action)
  | readApp
  | readPrevious
  | verifyDownload

/-- What a command answers: whether it succeeds, the slot a link leads to, or the status that
`verify_download` exits with. -/
def Cmd.Answer : Cmd → Type
  | .act _ => Bool
  | .readApp => SlotName
  | .readPrevious => Option SlotName
  | .verifyDownload => Nat

/-- A script, which ends with its exit status. -/
abbrev Script := Proc Cmd Cmd.Answer Nat

def run (c : Action) (next : Bool → Script) : Script := .eff (.act c) next

/-- Under `set -e` a command that fails ends the script with a status that is not 0. -/
def must (c : Action) (rest : Script) : Script := run c fun ok => if ok then rest else .ret 1

/-! ### `wattpost-update` -/

/-- The loops that wait for an endpoint to answer. -/
def waitFor (c : Action) : Nat → (Bool → Script) → Script
  | 0, next => next false
  | tries + 1, next => run c fun up => if up then next true else waitFor c tries next

/-- The manifest of the release: only a certain sign of tampering, or a downgrade, ends the
update. -/
def checkManifest (rest : Script) : Script :=
  run .curlManifest fun fetched =>
    if fetched then
      .eff .verifyDownload fun (rc : Nat) =>
        if rc = 8 || rc = 9 || rc = 10 then .ret 1 else rest
    else rest

def installSteps : List BuildStep :=
  [.tar, .makeVenv, .pipUpgrade, .pipInstall, .pipReinstall, .readVersion, .writeVersion, .chown]

def buildAll (s : SlotName) : List BuildStep → Script → Script
  | [], rest => rest
  | step :: steps, rest => must (.build step s) (buildAll s steps rest)

/-- Wipe the slot, download the release and install it there. -/
def buildSlot (s : SlotName) (rest : Script) : Script :=
  must (.rmSlot s) <| must (.mkdirSlot s) <|
  must .curlTarball <| must .curlSha256 <| must .sha256sum <|
  checkManifest <| buildAll s installSteps rest

def probeEndpoints : List String :=
  ["/api/health", "/api/snapshot", "/api/devices", "/api/system/info"]

/-- Each endpoint is asked, also when one before it has failed. -/
def probeAll : List String → Bool → (Bool → Script) → Script
  | [], ok, next => next ok
  | e :: es, ok, next => run (.curlProbe e) fun up => probeAll es (ok && up) next

/-- The health probe of the slot. -/
def healthProbe (s : SlotName) (rest : Script) : Script :=
  must (.startProbe s) <|
  waitFor (.curlProbe "/api/health") 12 fun up =>
    if up then
      probeAll probeEndpoints true fun ok => if ok then must (.logPassed s) rest else .ret 1
    else .ret 1

/-- `ln -sfn SLOT /opt/wattpost.new; mv -Tf /opt/wattpost.new /opt/wattpost`. -/
def flip (s : SlotName) (rest : Script) : Script := must (.linkNew s) <| must .moveNew rest

/-- The restart, the health check behind it, and the way back when it fails. -/
def restartChecked (active : SlotName) : Script :=
  run .syncPrivileged fun _ =>
  must .restart <|
  waitFor .curlHealth 20 fun ok =>
    if ok then .ret 0
    else flip active <| must .restart <| .ret 2

/-- `wattpost-update`, from where it has the lock. -/
def update : Script :=
  .eff .readApp fun (active : SlotName) =>
    buildSlot active.other <| healthProbe active.other <|
    flip active.other <| must (.linkPrevious active) <| restartChecked active

/-! ### `wattpost-rollback` -/

/-- How the daemon is started again. -/
def startAgain (auto : Bool) : Script :=
  if auto then must .startNoBlock (.ret 0) else must .restart (.ret 0)

/-- `wattpost-rollback`, from where it has the lock. A link that is gone resolves to its own
path, which is no directory. -/
def rollback (auto : Bool) : Script :=
  .eff .readPrevious fun (prev : Option SlotName) =>
  .eff .readApp fun (current : SlotName) =>
    match prev with
    | none => .ret 5
    | some prev =>
        run (.isDir prev) fun there =>
          if there then
            if current = prev then .ret 0
            else flip prev <| must (.linkPrevious current) <| startAgain auto
          else .ret 5

/-- The scripts that take the lock. -/
inductive Job where
  | update
  | rollback (auto : Bool)

def Job.script : Job → Script
  | .update => Update.update
  | .rollback auto => Update.rollback auto

/-! ### What the commands do -/

section Effects

variable {R : Type} (versionOf : R → String)

def Disk.put (w : Disk R) (s : SlotName) (d : Option (SlotDir R)) : Disk R :=
  { w with slots := Function.update w.slots s d }

/-- A slot after a step that has succeeded on it. -/
def built (tarball : Option R) (d : SlotDir R) : BuildStep → SlotDir R
  | .tar => { d with src := tarball }
  | .makeVenv => { d with venv := none }
  | .pipUpgrade | .readVersion => d
  | .pipInstall | .pipReinstall => { d with venv := d.src }
  | .writeVersion => { d with version := d.src.map versionOf }
  | .chown => { d with owned := true }

/-- What a command does to the disk when it answers `ok`. One that fails, or is cut off, may
leave anything in the slot it works on, and `ln -sfn` takes the old link away first. -/
def Acts : Action → Disk R → Bool → Disk R → Prop
  | .rmSlot s, w, ok, w' => ∃ left, (ok = true → left = none) ∧
      w' = { w.put s left with probed := Function.update w.probed s false, brokenOff := true }
  | .mkdirSlot s, w, ok, w' => ∃ left, (ok = true → left = some ((w.slots s).getD {})) ∧
      w' = w.put s left
  | .curlTarball, w, ok, w' => ∃ t : Option R, (ok = true → t.isSome) ∧
      w' = { w with tarball := t }
  | .build step s, w, ok, w' => ∃ left,
      (ok = true → ∃ d, w.slots s = some d ∧ left = some (built versionOf w.tarball d step)) ∧
        w' = w.put s left
  | .logPassed s, w, ok, w' =>
      w' = if ok then { w with probed := Function.update w.probed s true, brokenOff := false }
        else w
  | .linkNew s, w, ok, w' => ∃ left, (ok = true → left = some s) ∧ w' = { w with appNew := left }
  | .moveNew, w, true, w' => ∃ s, w.appNew = some s ∧ w' = { w with live := s, appNew := none }
  | .linkPrevious s, w, ok, w' => ∃ left, (ok = true → left = some s) ∧
      (left = w.previous ∨ left = none ∨ left = some s) ∧ w' = { w with previous := left }
  | .isDir s, w, ok, w' => ok = (w.slots s).isSome ∧ w' = w
  | _, w, _, w' => w' = w

/-- The effect of a command. The verification of a download may answer anything. -/
def effect : Handler Cmd Cmd.Answer (Disk R)
  | .act c, w, ok, w' => Acts versionOf c w ok w'
  | .readApp, w, s, w' => s = w.live ∧ w' = w
  | .readPrevious, w, s, w' => s = w.previous ∧ w' = w
  | .verifyDownload, w, _, w' => w' = w

/-- One way the commands may answer: those in `fails` fail without effect, the others succeed,
and the release that is offered is `r`. -/
def perform (fails : Action → Bool) (r : R) (c : Action) (w : Disk R) : Bool × Disk R :=
  match c with
  | .rmSlot s =>
      (!fails c, { w.put s (if fails c then w.slots s else none) with
        probed := Function.update w.probed s false, brokenOff := true })
  | .mkdirSlot s => (!fails c, w.put s (if fails c then w.slots s else some ((w.slots s).getD {})))
  | .curlTarball => (!fails c, { w with tarball := if fails c then none else some r })
  | .build step s =>
      match w.slots s with
      | none => (false, w.put s none)
      | some d =>
          (!fails c, w.put s (some (if fails c then d else built versionOf w.tarball d step)))
  | .logPassed s =>
      (!fails c, if fails c then w else
        { w with probed := Function.update w.probed s true, brokenOff := false })
  | .linkNew s => (!fails c, { w with appNew := if fails c then w.appNew else some s })
  | .moveNew =>
      match w.appNew with
      | none => (false, w)
      | some s => (!fails c, if fails c then w else { w with live := s, appNew := none })
  | .linkPrevious s => (!fails c, { w with previous := if fails c then w.previous else some s })
  | .isDir s => ((w.slots s).isSome, w)
  | _ => (!fails c, w)

def respond (fails : Action → Bool) (r : R) : (e : Cmd) → Disk R → e.Answer × Disk R
  | .act c, w => perform versionOf fails r c w
  | .readApp, w => (w.live, w)
  | .readPrevious, w => (w.previous, w)
  | .verifyDownload, w => ((0 : Nat), w)

theorem acts_perform (fails : Action → Bool) (r : R) (c : Action) (w : Disk R) :
    Acts versionOf c w (perform versionOf fails r c w).1 (perform versionOf fails r c w).2 := by
  cases c with
  | rmSlot s =>
      refine ⟨_, ?_, rfl⟩
      intro hOk
      exact if_neg (by simpa [perform] using hOk)
  | mkdirSlot s =>
      refine ⟨_, ?_, rfl⟩
      intro hOk
      exact if_neg (by simpa [perform] using hOk)
  | curlTarball =>
      refine ⟨_, ?_, rfl⟩
      intro hOk
      rw [if_neg (by simpa [perform] using hOk)]
      rfl
  | build step s =>
      cases hSlot : w.slots s with
      | none =>
          refine ⟨none, ?_, ?_⟩
          · intro hOk
            simp [perform, hSlot] at hOk
          · simp [perform, hSlot]
      | some d =>
          refine ⟨some (if fails (.build step s) then d else built versionOf w.tarball d step),
            ?_, ?_⟩
          · intro hOk
            refine ⟨d, hSlot, ?_⟩
            rw [if_neg (by simpa [perform, hSlot] using hOk)]
          · simp [perform, hSlot]
  | logPassed s => cases hFails : fails (.logPassed s) <;> simp [perform, Acts, hFails]
  | linkNew s =>
      refine ⟨_, ?_, rfl⟩
      intro hOk
      exact if_neg (by simpa [perform] using hOk)
  | moveNew =>
      cases hNew : w.appNew with
      | none => simp [perform, Acts, hNew]
      | some s => cases hFails : fails .moveNew <;> simp [perform, Acts, hNew, hFails]
  | linkPrevious s =>
      cases hFails : fails (.linkPrevious s) with
      | true => exact ⟨w.previous, by simp [perform, hFails], Or.inl rfl, by simp [perform, hFails]⟩
      | false => exact ⟨some s, fun _ => rfl, Or.inr (Or.inr rfl), by simp [perform, hFails]⟩
  | isDir s => exact ⟨rfl, rfl⟩
  | _ => rfl

theorem effect_respond (fails : Action → Bool) (r : R) (e : Cmd) (w : Disk R) :
    effect versionOf e w (respond versionOf fails r e w).1 (respond versionOf fails r e w).2 := by
  cases e with
  | act c => exact acts_perform versionOf fails r c w
  | readApp => exact ⟨rfl, rfl⟩
  | readPrevious => exact ⟨rfl, rfl⟩
  | verifyDownload => rfl

/-- An execution against such answers. -/
theorem exec_respond (fails : Action → Bool) (r : R) (n : Nat) (p : Script) (w : Disk R) :
    Exec (effect versionOf) p w (p.runWith (respond versionOf fails r) n w).2
      (p.runWith (respond versionOf fails r) n w).1 :=
  Exec.of_runWith (P := fun _ => True)
    (fun e s _ => ⟨effect_respond versionOf fails r e s, trivial⟩) n p trivial

end Effects

end WattPost.Update
