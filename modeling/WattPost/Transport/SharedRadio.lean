import Mathlib.Logic.Function.Basic
import WattPost.Lib.Runs

/-! The Bluetooth radio, which may run one discovery at a time. Passive scanners listen on it for
the transports that registered with them, and whoever connects or searches pauses them first,
under a lock of its own, and resumes those that it found running. Transports come and go in
between, and a connect may be cancelled while it waits. -/
namespace WattPost.Transport.SharedRadio

open Runs

/-! ### Scanners -/

/-- The module-level scanners. -/
inductive Scanner where
  | victron
  | mopeka
  | govee
  | ruuvi
  | discovery
deriving DecidableEq

/-- What a scanner keeps: who registered with it, whether it holds a running scan, and whether
anything is heard. The discovery scanner keeps no record of who started it; there the scheduler
stands in `wanted` while it was started last. -/
structure ScannerState where
  wanted : List String
  listed : Bool
  scanning : Bool

namespace ScannerState

def idle : ScannerState := ⟨[], false, false⟩

/-- A scan is started; one that fails is caught and forgotten. -/
def start (ok : Bool) (x : ScannerState) : ScannerState :=
  { x with listed := ok, scanning := ok }

/-- A scan is stopped and forgotten, whether or not stopping it fails. -/
def stop (ok : Bool) (x : ScannerState) : ScannerState :=
  { x with listed := false, scanning := x.scanning && !ok }

/-- `register`, and `start` of the discovery scanner. The scanners with a single scan hold it
before they start it, and nobody catches it when this fails. -/
def register (s : Scanner) (who : String) (ok : Bool) (x : ScannerState) : ScannerState :=
  let x := { x with wanted := x.wanted.insert who }
  if x.listed then x
  else
    match s with
    | .victron | .discovery => x.start ok
    | .mopeka | .govee | .ruuvi => { x with listed := true, scanning := ok }

/-- Who is left when `who` leaves. -/
def without (s : Scanner) (who : String) (wanted : List String) : List String :=
  if s = .discovery then [] else wanted.erase who

/-- `unregister`, and `stop` of the discovery scanner. -/
def unregister (s : Scanner) (who : String) (ok : Bool) (x : ScannerState) : ScannerState :=
  let x := { x with wanted := without s who x.wanted }
  if x.wanted = [] ∧ x.listed = true then x.stop ok else x

/-- `pause`: whether a scan was running, which does not run now. -/
def pause (ok : Bool) (x : ScannerState) : Bool × ScannerState :=
  if x.listed then (true, x.stop ok) else (false, x)

/-- `resume`. The discovery scanner does not ask whether anyone wants it. -/
def resume (s : Scanner) (ok : Bool) (x : ScannerState) : ScannerState :=
  if x.listed = true ∨ (s ≠ .discovery ∧ x.wanted = []) then x else x.start ok

end ScannerState

/-! ### Who needs the radio -/

/-- The callers that hold `HCI_DISCOVER_LOCK`: `_open_once`, `ble_scan` and `ble_diagnose`. -/
inductive Use where
  | openOnce
  | bleScan
  | bleDiagnose
deriving DecidableEq

/-- The scanners that a caller pauses, in its order. -/
def Use.pauses : Use → List Scanner
  | .openOnce => [.victron, .discovery, .govee, .ruuvi]
  | .bleScan => [.victron, .mopeka, .govee, .ruuvi, .discovery]
  | .bleDiagnose => [.victron]

/-- How far the holder of the lock is: the scanners that it found running, and those that it has
still to pause. -/
inductive Phase where
  | pausing (paused next : List Scanner)
  | discovering (paused : List Scanner)
  | resuming (paused : List Scanner)
deriving DecidableEq

structure Holder where
  use : Use
  phase : Phase

structure Radio where
  scanners : Scanner → ScannerState
  holder : Option Holder

def Radio.start : Radio := ⟨fun _ => .idle, none⟩

/-- `finally`: what is left to resume, and the lock when nothing is. -/
def leaving (use : Use) : List Scanner → Option Holder
  | [] => none
  | s :: rest => some ⟨use, .resuming (s :: rest)⟩

/-- One turn: of the holder of the lock, of a transport, or of whoever cancels the holder. What
is pausing when it is cancelled has not come to its `try` yet. -/
inductive Turn where
  | acquire (use : Use)
  | pause (ok : Bool)
  | discovered
  | resume (ok : Bool)
  | cancel
  | register (s : Scanner) (who : String) (ok : Bool)
  | unregister (s : Scanner) (who : String) (ok : Bool)

/-- Behind a pause, the next one or the discovery. -/
def Holder.paused (use : Use) (paused : List Scanner) : List Scanner → Holder
  | [] => ⟨use, .discovering paused⟩
  | s :: next => ⟨use, .pausing paused (s :: next)⟩

def Radio.turn (r : Radio) : Turn → Radio
  | .acquire use =>
      match r.holder with
      | some _ => r
      | none => { r with holder := some ⟨use, .pausing [] use.pauses⟩ }
  | .pause ok =>
      match r.holder with
      | some ⟨use, .pausing paused (s :: next)⟩ =>
          let done := (r.scanners s).pause ok
          { scanners := Function.update r.scanners s done.2
            holder := some (.paused use (if done.1 then paused ++ [s] else paused) next) }
      | _ => r
  | .discovered =>
      match r.holder with
      | some ⟨use, .discovering paused⟩ => { r with holder := leaving use paused }
      | _ => r
  | .resume ok =>
      match r.holder with
      | some ⟨use, .resuming (s :: rest)⟩ =>
          { scanners := Function.update r.scanners s ((r.scanners s).resume s ok)
            holder := leaving use rest }
      | _ => r
  | .cancel =>
      match r.holder with
      | some ⟨use, .discovering paused⟩ => { r with holder := leaving use paused }
      | _ => { r with holder := none }
  | .register s who ok =>
      { r with scanners := Function.update r.scanners s ((r.scanners s).register s who ok) }
  | .unregister s who ok =>
      { r with scanners := Function.update r.scanners s ((r.scanners s).unregister s who ok) }

/-! ### What a method does -/

namespace ScannerState

variable {s : Scanner} {x : ScannerState} {who : String} {ok : Bool}

/-- What is listed is heard. -/
def Hears (x : ScannerState) : Prop := x.scanning = x.listed

/-- Nothing is listed that nobody wants. -/
def Needed (s : Scanner) (x : ScannerState) : Prop :=
  s ≠ .discovery → x.wanted = [] → x.listed = false

theorem insert_ne_nil (xs : List String) (who : String) : xs.insert who ≠ [] :=
  List.ne_nil_of_mem (List.mem_insert_self)

theorem hears_register (h : x.Hears) : (x.register s who true).Hears := by
  unfold register
  dsimp only
  split
  · exact h
  · cases s <;> rfl

theorem wanted_register : (x.register s who ok).wanted = x.wanted.insert who := by
  unfold register
  dsimp only
  split
  · rfl
  · cases s <;> rfl

theorem listed_register : (x.register s who true).listed = true := by
  unfold register
  dsimp only
  split
  case isTrue hListed => exact hListed
  case isFalse => cases s <;> rfl

theorem hears_unregister (h : x.Hears) : (x.unregister s who true).Hears := by
  unfold unregister
  dsimp only
  split
  · exact Bool.and_false _
  · exact h

theorem needed_unregister : (x.unregister s who ok).Needed s := by
  intro _
  unfold unregister
  dsimp only
  split
  case isTrue => exact fun _ => rfl
  case isFalse hKept =>
    intro hNobody
    exact Bool.eq_false_iff.mpr fun hListed => hKept ⟨hNobody, hListed⟩

/-- A transport that leaves takes no scan from the others. -/
theorem listed_unregister (hWanted : (x.unregister s who ok).wanted ≠ []) :
    (x.unregister s who ok).listed = x.listed ∧ x.wanted ≠ [] := by
  unfold unregister at hWanted ⊢
  dsimp only at hWanted ⊢
  split at hWanted
  case isTrue hNobody => exact absurd hNobody.1 hWanted
  case isFalse hKept =>
    rw [if_neg hKept]
    refine ⟨rfl, ?_⟩
    intro hNil
    refine hWanted ?_
    unfold without
    split
    · rfl
    · rw [hNil, List.erase_nil]

theorem unregister_idle (h : x.listed = false) :
    (x.unregister s who ok).listed = false ∧ (x.unregister s who ok).scanning = x.scanning := by
  unfold unregister
  dsimp only
  rw [h, if_neg fun hBoth => Bool.false_ne_true hBoth.2]
  exact ⟨rfl, rfl⟩

theorem wanted_pause : (x.pause ok).2.wanted = x.wanted := by
  unfold pause
  split <;> rfl

theorem listed_pause : (x.pause ok).2.listed = false := by
  unfold pause
  split
  case isTrue => rfl
  case isFalse hIdle => exact Bool.eq_false_iff.mpr hIdle

theorem pause_fst : (x.pause ok).1 = x.listed := by
  unfold pause
  split
  case isTrue hListed => exact hListed.symm
  case isFalse hIdle => exact (Bool.eq_false_iff.mpr hIdle).symm

theorem hears_pause (h : x.Hears) : (x.pause true).2.Hears := by
  unfold pause
  split
  · exact Bool.and_false _
  · exact h

theorem wanted_resume : (x.resume s ok).wanted = x.wanted := by
  unfold resume
  split <;> rfl

theorem hears_resume (h : x.Hears) : (x.resume s true).Hears := by
  unfold resume
  split
  · exact h
  · rfl

theorem needed_resume (h : x.Needed s) : (x.resume s ok).Needed s := by
  intro hOwn hNobody
  rw [wanted_resume] at hNobody
  have hIdle : x.listed = true ∨ (s ≠ .discovery ∧ x.wanted = []) := Or.inr ⟨hOwn, hNobody⟩
  rw [resume, if_pos hIdle]
  exact h hOwn hNobody

theorem listed_resume (hWanted : x.wanted ≠ []) : (x.resume s true).listed = true := by
  unfold resume
  split
  case isTrue hKept => exact hKept.resolve_right fun h => hWanted h.2
  case isFalse => rfl

end ScannerState

end WattPost.Transport.SharedRadio
