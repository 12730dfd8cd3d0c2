import WattPost.Hotspot.Handoff
import WattPost.Lib.Runs

/-! Whose hotspot it is: when the monitor's flag says what is true of the radio. -/
namespace WattPost.Hotspot

open Runs

/-! ### Conditions -/

/-- The monitor goes on to raise the hotspot after this answer. -/
def BeginsRaise (s : Appliance) (r : Reply) (lan : Option Lan) : Prop :=
  (r = .ok → lan = none) ∧ graceChecks ≤ s.missStreak + 1 ∧ s.canActivate = true

/-- The reply to the call that a tick waits for. A `connection down` of the monitor
does not fail while its own hotspot is up, nor does its status query while it is
switched off; and it begins to raise only while no manual hotspot is up. -/
def TickOk (s : Appliance) (r : Reply) (lan : Option Lan) : TickAt → Prop
  | .active _ eff => eff = false → r = .failed → s.apUp = true → s.owner ≠ some .monitor
  | .tidy | .drop _ | .probe => r ≠ .ok → s.apUp = true → s.owner ≠ some .monitor
  | .lan _ false => BeginsRaise s r lan → s.apUp = true → s.owner ≠ some .manual
  | _ => True

/-- Besides, no cancelled bring-up of the monitor lands, unless its flag is set
anyway; and a manual bring-up succeeds only while the flag is not set and the
monitor is not deleting the profile. -/
def StepOk (s : Appliance) : Op → Prop
  | .tickResume r lan => ∀ at_, s.tick = some at_ → TickOk s r lan at_
  | .cancelTick lands =>
      lands = true → s.tick = some (.raise .up) → s.raisedByMonitor = true
  | .resume i r =>
      s.tasks i = some (.hotspotOn .up) → r = .ok →
        s.raisedByMonitor = false ∧ s.tick ≠ some (.raise .delete)
  | _ => True

/-- The monitor took down no manual hotspot, and called no hotspot of its own a
manual one. -/
def Event.Rightful : Event → Prop
  | .tookDown owner => owner ≠ some .manual
  | .reported outcome apUp owner =>
      outcome = "skip:manual" → apUp = true → owner ≠ some .monitor

/-! ### The invariant -/

/-- What the monitor relies on where it waits. -/
def WaitOk (s : Appliance) : TickAt → Prop
  | .tidy | .drop _ | .probe => s.raisedByMonitor = true
  | .raise .delete => s.apUp = true → s.owner ≠ some .manual
  | _ => True

/-- The flag tells a hotspot of the monitor from a manual one. -/
structure FlagOk (s : Appliance) : Prop where
  manual : s.apUp = true → s.owner = some .manual → s.raisedByMonitor = false
  own : s.apUp = true → s.owner = some .monitor → s.raisedByMonitor = true
  rightful : ∀ e ∈ s.log, e.Rightful

structure Inv (s : Appliance) : Prop where
  flag : FlagOk s
  waits : ∀ at_, s.tick = some at_ → WaitOk s at_

variable {s : Appliance}

/-! ### The others -/

theorem Inv.setTask (h : Inv s) (i : Nat) (task : Option Task) : Inv (s.setTask i task) :=
  ⟨⟨h.flag.manual, h.flag.own, h.flag.rightful⟩, h.waits⟩

theorem Inv.goDown (h : Inv s) : Inv s.goDown := by
  refine ⟨⟨fun hUp => (nomatch hUp), fun hUp => (nomatch hUp), h.flag.rightful⟩, ?_⟩
  intro at_ hTick
  have hWaits := h.waits at_ hTick
  cases at_ with
  | raise call =>
      cases call with
      | delete => exact fun hUp => nomatch hUp
      | _ => trivial
  | _ => exact hWaits

/-- Somebody other than the monitor brings the hotspot up. -/
theorem Inv.comeUp (h : Inv s) {actor : Actor} (hActor : actor ≠ .monitor)
    (hManual : actor = .manual → s.raisedByMonitor = false ∧ s.tick ≠ some (.raise .delete)) :
    Inv (s.comeUp actor) := by
  refine ⟨⟨?_, ?_, h.flag.rightful⟩, ?_⟩
  · intro _ hOwner
    exact (hManual (Option.some.inj hOwner)).1
  · intro _ hOwner
    exact absurd (Option.some.inj hOwner) hActor
  · intro at_ hTick
    have hWaits := h.waits at_ hTick
    cases at_ with
    | raise call =>
        cases call with
        | delete =>
            intro _ hOwner
            exact (hManual (Option.some.inj hOwner)).2 hTick
        | _ => trivial
    | _ => exact hWaits

theorem Inv.downEffect (h : Inv s) (r : Reply) : Inv (s.downEffect r) := by
  cases r with
  | ok => exact h.goDown
  | failed => exact h
  | raised => exact h

theorem Inv.activateEffect (h : Inv s) {actor : Actor} (hActor : actor ≠ .monitor)
    (at_ : ActivateAt) (r : Reply)
    (hManual : actor = .manual → at_ = .up → r = .ok →
      s.raisedByMonitor = false ∧ s.tick ≠ some (.raise .delete)) :
    Inv (s.activateEffect actor at_ r) := by
  unfold Appliance.activateEffect
  split
  · rw [if_neg hActor]
    exact h.goDown
  · exact h.comeUp hActor fun hEq => hManual hEq rfl rfl
  · exact h

theorem Inv.resumeActivate (h : Inv s) (i : Nat) {actor : Actor} (hActor : actor ≠ .monitor)
    (waits : ActivateAt → Task) (at_ : ActivateAt) (r : Reply)
    (hManual : actor = .manual → at_ = .up → r = .ok →
      s.raisedByMonitor = false ∧ s.tick ≠ some (.raise .delete)) :
    Inv (s.resumeActivate i actor waits at_ r) := by
  unfold Appliance.resumeActivate
  split
  · exact (h.activateEffect hActor at_ r hManual).setTask i _
  · exact (h.activateEffect hActor at_ r hManual).setTask i _

theorem Inv.resumeTask (h : Inv s) (i : Nat) (task : Task) (r : Reply)
    (hOk : task = .hotspotOn .up → r = .ok →
      s.raisedByMonitor = false ∧ s.tick ≠ some (.raise .delete)) :
    Inv (s.resumeTask i task r) := by
  cases task with
  | hotspotOn at_ =>
      refine h.resumeActivate i (by decide) _ at_ r ?_
      intro _ hUp
      exact hOk (congrArg Task.hotspotOn hUp)
  | hotspotOff => exact (h.downEffect r).setTask i _
  | bounceStatus => exact h.setTask i _
  | bounceDown => exact (h.downEffect r).setTask i _
  | bounceScan wasActive =>
      simp only [Appliance.resumeTask]
      split <;> exact h.setTask i _
  | bounceUp at_ => exact h.resumeActivate i (by decide) _ at_ r fun hEq => nomatch hEq
  | apply new =>
      simp only [Appliance.resumeTask]
      split <;> exact h.setTask i _
  | applyUp at_ => exact h.resumeActivate i (by decide) _ at_ r fun hEq => nomatch hEq

/-! ### The monitor -/

theorem FlagOk.of_same {s' : Appliance} (h : FlagOk s) (hUp : s'.apUp = s.apUp)
    (hOwner : s'.owner = s.owner) (hFlag : s'.raisedByMonitor = s.raisedByMonitor)
    (hLog : s'.log = s.log) : FlagOk s' := by
  refine ⟨?_, ?_, ?_⟩
  · rw [hUp, hOwner, hFlag]
    exact h.manual
  · rw [hUp, hOwner, hFlag]
    exact h.own
  · rw [hLog]
    exact h.rightful

/-- The tick waits for another call. -/
theorem FlagOk.waitAt {s' : Appliance} (h : FlagOk s) (at_ : TickAt)
    (hTick : s'.tick = some at_) (hUp : s'.apUp = s.apUp) (hOwner : s'.owner = s.owner)
    (hFlag : s'.raisedByMonitor = s.raisedByMonitor) (hLog : s'.log = s.log)
    (hWaits : WaitOk s at_) : Inv s' := by
  refine ⟨h.of_same hUp hOwner hFlag hLog, ?_⟩
  intro at_' hTick'
  rw [hTick] at hTick'
  cases Option.some.inj hTick'
  cases at_ with
  | raise call =>
      cases call with
      | delete =>
          simp only [WaitOk, hUp, hOwner]
          exact hWaits
      | _ => trivial
  | tidy => exact hFlag.trans hWaits
  | drop lan => exact hFlag.trans hWaits
  | probe => exact hFlag.trans hWaits
  | _ => trivial

theorem FlagOk.report (h : FlagOk s) {outcome : String}
    (hOutcome : outcome = "skip:manual" → s.apUp = true → s.owner ≠ some .monitor) :
    Inv (s.report outcome) := by
  refine ⟨⟨h.manual, h.own, ?_⟩, fun _ hTick => nomatch hTick⟩
  intro e hMem
  rcases List.mem_append.mp hMem with hOld | hNew
  · exact h.rightful e hOld
  · cases List.mem_singleton.mp hNew
    exact hOutcome

/-- The flag is cleared when the hotspot is not the monitor's own. -/
theorem FlagOk.reset (h : FlagOk s) (hOwn : s.apUp = true → s.owner ≠ some .monitor) :
    FlagOk s.resetMonitor :=
  ⟨fun _ _ => rfl, fun hUp hOwner => absurd hOwner (hOwn hUp), h.rightful⟩

theorem FlagOk.takeDown (h : FlagOk s) (hManual : s.apUp = true → s.owner ≠ some .manual) :
    FlagOk s.takeDown := by
  refine ⟨fun hUp => (nomatch hUp), fun hUp => (nomatch hUp), ?_⟩
  intro e hMem
  unfold Appliance.takeDown at hMem
  dsimp only at hMem
  split at hMem
  case isTrue hUp =>
    rcases List.mem_append.mp hMem with hOld | hNew
    · exact h.rightful e hOld
    · cases List.mem_singleton.mp hNew
      exact hManual hUp
  case isFalse => exact h.rightful e hMem

theorem FlagOk.not_manual (h : FlagOk s) (hFlag : s.raisedByMonitor = true) :
    s.apUp = true → s.owner ≠ some .manual := by
  intro hUp hOwner
  have hClear := h.manual hUp hOwner
  rw [hFlag] at hClear
  cases hClear

/-- After its `connection down` the monitor clears the flag. -/
theorem FlagOk.downAndReset (h : FlagOk s) (hFlag : s.raisedByMonitor = true) {r : Reply}
    (hOk : r ≠ .ok → s.apUp = true → s.owner ≠ some .monitor) {outcome : String}
    (hOutcome : outcome ≠ "skip:manual") : Inv ((s.tickDown r).resetMonitor.report outcome) := by
  have hReset : FlagOk (s.tickDown r).resetMonitor := by
    cases r with
    | ok => exact (h.takeDown (h.not_manual hFlag)).reset fun hUp => nomatch hUp
    | failed => exact h.reset (hOk (by decide))
    | raised => exact h.reset (hOk (by decide))
  exact hReset.report fun hEq => absurd hEq hOutcome

theorem Inv.tickBegin (h : Inv s) : Inv s.tickBegin := by
  unfold Appliance.tickBegin
  split_ifs
  · exact h.flag.report fun hEq => absurd hEq (by decide)
  · exact h.flag.report fun hEq => absurd hEq (by decide)
  · exact h.flag.waitAt (.active _ _) rfl rfl rfl rfl rfl trivial

theorem Inv.tickActive (h : Inv s) {onboarding eff : Bool} {r : Reply} {lan : Option Lan}
    (hOk : TickOk s r lan (.active onboarding eff)) (hReply : r ≠ .raised) :
    Inv (s.tickActive onboarding eff (s.readsActive r)) := by
  unfold Appliance.tickActive
  cases eff with
  | true => exact h.flag.waitAt (.lan _ _) rfl rfl rfl rfl rfl trivial
  | false =>
      simp only [Bool.not_false, if_true]
      split
      case isTrue hRaised =>
        rw [Bool.and_eq_true] at hRaised
        exact h.flag.waitAt .tidy rfl rfl rfl rfl rfl hRaised.1
      case isFalse hRaised =>
        refine FlagOk.report (h.flag.reset ?_) fun hEq => absurd hEq (by decide)
        intro hUp hOwner
        have hFlag := h.flag.own hUp hOwner
        cases r with
        | ok => exact hRaised (by simp [hFlag, Appliance.readsActive, hUp])
        | failed => exact hOk rfl rfl hUp hOwner
        | raised => exact hReply rfl

theorem Inv.tickLan (h : Inv s) {onboarding apUp : Bool} {r : Reply} {lan : Option Lan}
    (hOk : TickOk s r lan (.lan onboarding apUp)) :
    Inv (s.tickLan onboarding apUp (if r = .ok then lan else none)) := by
  have hSame : ∀ networked missStreak pollsSinceRaise, FlagOk { s with
      networked := networked, missStreak := missStreak, pollsSinceRaise := pollsSinceRaise } :=
    fun _ _ _ => h.flag.of_same rfl rfl rfl rfl
  generalize hFound : (if r = .ok then lan else none) = found
  unfold Appliance.tickLan
  dsimp only
  by_cases hOwn : (apUp && s.raisedByMonitor) = true
  · rw [if_pos hOwn]
    rw [Bool.and_eq_true] at hOwn
    cases found with
    | some kind => exact h.flag.waitAt (.drop kind) rfl rfl rfl rfl rfl hOwn.2
    | none =>
        dsimp only
        split_ifs
        · exact (hSame _ _ _).report fun hEq => absurd hEq (by decide)
        · exact h.flag.waitAt .probe rfl rfl rfl rfl rfl hOwn.2
        · exact (hSame _ _ _).report fun hEq => absurd hEq (by decide)
  · rw [if_neg hOwn]
    cases apUp with
    | true =>
        refine (hSame _ _ _).report fun _ hUp hOwner => hOwn ?_
        rw [h.flag.own hUp hOwner]
        rfl
    | false =>
        cases found with
        | some kind => exact (hSame _ _ _).report fun hEq => absurd hEq (by decide)
        | none =>
            have hNone : r = .ok → lan = none := fun hReply => by rwa [if_pos hReply] at hFound
            dsimp only [Bool.false_eq_true, if_false]
            rw [if_neg Bool.false_ne_true]
            split_ifs with hMissed hCan
            · exact h.flag.waitAt (.raise .delete) rfl rfl rfl rfl rfl (hOk ⟨hNone, hMissed, hCan⟩)
            · exact (hSame _ _ _).report fun hEq => absurd hEq (by decide)
            · exact (hSame _ _ _).report fun hEq => absurd hEq (by decide)

theorem next_eq_done_true {at_ : ActivateAt} {r : Reply} (h : at_.next r = .done true) :
    at_ = .up ∧ r = .ok := by
  cases at_ <;> cases r <;> simp_all [ActivateAt.next]

theorem next_ne_delete {at_ at_' : ActivateAt} {r : Reply} (h : at_.next r = .call at_') :
    at_' ≠ .delete := by
  rintro rfl
  cases at_ <;> cases r <;> simp_all [ActivateAt.next]

/-- What a call of the monitor's `activate` does, short of bringing the hotspot up. -/
theorem Inv.raiseEffect (h : Inv s) {at_ : ActivateAt} (hTick : s.tick = some (.raise at_))
    {r : Reply} (hNotUp : ¬ (at_ = .up ∧ r = .ok)) :
    FlagOk (s.activateEffect .monitor at_ r) := by
  unfold Appliance.activateEffect
  split
  · rw [if_pos rfl]
    exact h.flag.takeDown (h.waits _ hTick)
  · exact absurd ⟨rfl, rfl⟩ hNotUp
  · exact h.flag

theorem Inv.tickRaise (h : Inv s) {at_ : ActivateAt} (hTick : s.tick = some (.raise at_))
    (r : Reply) : Inv (s.tickRaise at_ r) := by
  unfold Appliance.tickRaise
  dsimp only
  split
  case h_1 at_' hNext =>
    have hNotUp : ¬ (at_ = .up ∧ r = .ok) := by
      rintro ⟨rfl, rfl⟩
      cases hNext
    refine (h.raiseEffect hTick hNotUp).waitAt (.raise at_') rfl rfl rfl rfl rfl ?_
    cases at_' with
    | delete => exact absurd rfl (next_ne_delete hNext)
    | _ => trivial
  case h_2 hNext =>
    obtain ⟨rfl, rfl⟩ := next_eq_done_true hNext
    have hFlag : FlagOk { s.comeUp .monitor with
        raisedByMonitor := true, pollsSinceRaise := 0, missStreak := 0 } :=
      ⟨fun _ hOwner => (nomatch hOwner), fun _ _ => rfl, h.flag.rightful⟩
    exact hFlag.report fun hEq => absurd hEq (by decide)
  case h_3 hNext =>
    have hNotUp : ¬ (at_ = .up ∧ r = .ok) := by
      rintro ⟨rfl, rfl⟩
      cases hNext
    exact (h.raiseEffect hTick hNotUp).report fun hEq => absurd hEq (by decide)

theorem FlagOk.idle (h : FlagOk s) : Inv { s with tick := none } :=
  ⟨h.of_same rfl rfl rfl rfl, fun _ hTick => nomatch hTick⟩

theorem Inv.cancelTick (h : Inv s) {at_ : TickAt} (hTick : s.tick = some at_) {lands : Bool}
    (hOk : lands = true → at_ = .raise .up → s.raisedByMonitor = true) :
    Inv (s.cancelTick at_ lands) := by
  have hDown : s.raisedByMonitor = true → Inv { s.takeDown with tick := none } := fun hFlag =>
    (h.flag.takeDown (h.flag.not_manual hFlag)).idle
  cases lands with
  | false => cases at_ <;> exact h.flag.idle
  | true =>
      cases at_ with
      | active onboarding eff => exact h.flag.idle
      | lan onboarding apUp => exact h.flag.idle
      | tidy => exact hDown (h.waits _ hTick)
      | drop lan => exact hDown (h.waits _ hTick)
      | probe => exact hDown (h.waits _ hTick)
      | raise at_ =>
          by_cases hUp : at_ = .up
          · subst hUp
            refine FlagOk.idle (s := s.comeUp .monitor) ⟨?_, ?_, h.flag.rightful⟩
            · exact fun _ hOwner => nomatch hOwner
            · exact fun _ _ => hOk rfl rfl
          · have hEffect := (h.raiseEffect hTick (r := .ok) fun hBoth => hUp hBoth.1).idle
            cases at_ with
            | up => exact absurd rfl hUp
            | _ => exact hEffect

theorem Inv.tickResume (h : Inv s) {at_ : TickAt} (hTick : s.tick = some at_) {r : Reply}
    {lan : Option Lan} (hOk : TickOk s r lan at_) : Inv (s.tickResume at_ r lan) := by
  cases at_ with
  | active onboarding eff =>
      simp only [Appliance.tickResume]
      split
      case isTrue => exact h.flag.idle
      case isFalse hReply => exact h.tickActive hOk hReply
  | tidy => exact h.flag.downAndReset (h.waits _ hTick) hOk (by decide)
  | lan onboarding apUp => exact h.tickLan hOk
  | drop lan =>
      refine h.flag.downAndReset (h.waits _ hTick) hOk ?_
      cases lan <;> decide
  | probe => exact h.flag.downAndReset (h.waits _ hTick) hOk (by decide)
  | raise at_ => exact h.tickRaise hTick r

/-! ### Runs -/

theorem Inv.step (h : Inv s) {op : Op} (hOk : StepOk s op) : Inv (s.step op) := by
  cases op with
  | tick =>
      simp only [Appliance.step]
      split
      · exact h.tickBegin
      · exact h
  | tickResume r lan =>
      simp only [Appliance.step]
      split
      case h_1 at_ hTick => exact h.tickResume hTick (hOk at_ hTick)
      case h_2 => exact h
  | cancelTick lands =>
      simp only [Appliance.step]
      split
      case h_1 at_ hTick =>
        refine h.cancelTick hTick ?_
        rintro hLands rfl
        exact hOk hLands hTick
      case h_2 => exact h
  | hotspotOn i =>
      simp only [Appliance.step]
      split
      · exact h.setTask i _
      · exact h
  | hotspotOff i =>
      simp only [Appliance.step]
      split
      · exact h.setTask i _
      · exact h
  | bounce i =>
      simp only [Appliance.step]
      split
      · exact h.setTask i _
      · exact h
  | putConfig i data =>
      simp only [Appliance.step]
      split
      case h_1 new _ _ =>
        have hCfg : Inv { s with cfg := new } :=
          ⟨h.flag.of_same rfl rfl rfl rfl, fun at_ hTick => by
            have hWaits := h.waits at_ hTick
            cases at_ with
            | raise call => cases call <;> exact hWaits
            | _ => exact hWaits⟩
        exact hCfg.setTask i _
      case h_2 => exact h
  | resume i r =>
      simp only [Appliance.step]
      split
      case h_1 task hTask =>
        refine h.resumeTask i task r ?_
        rintro rfl hReply
        exact hOk hTask hReply
      case h_2 => exact h
  | lost => exact h.goDown

/-- Before the first tick: nothing is under way and the flag is not set. -/
structure Fresh (s : Appliance) : Prop where
  flag : s.raisedByMonitor = false
  tick : s.tick = none
  owner : s.owner = none
  log : s.log = []

theorem Fresh.inv (h : Fresh s) : Inv s := by
  refine ⟨⟨fun _ _ => h.flag, ?_, ?_⟩, ?_⟩
  · intro _ hOwner
    rw [h.owner] at hOwner
    cases hOwner
  · rw [h.log]
    exact fun _ hMem => nomatch hMem
  · intro at_ hTick
    rw [h.tick] at hTick
    cases hTick

/-- In every run whose steps meet the condition, the monitor takes down no hotspot
that was last brought up by hand, and reports none that it brought up itself as a
manual one. -/
theorem monitor_respects_owner (hFresh : Fresh s) {ops : List Op}
    (hOps : StepsOk Appliance.step (fun _ s op => StepOk s op) s ops) :
    ∀ e ∈ (run Appliance.step s ops).log, e.Rightful := by
  have hInv : Inv (run Appliance.step s ops) :=
    hOps.preserves hFresh.inv fun _ _ _ hInv hOk => hInv.step hOk
  exact hInv.flag.rightful

/-- A call of a tick that succeeds meets its condition while no manual hotspot is up. -/
theorem stepOk_of_ok {lan : Option Lan} (h : s.apUp = true → s.owner ≠ some .manual) :
    StepOk s (.tickResume .ok lan) := by
  intro at_ _
  cases at_ with
  | active onboarding eff => exact fun _ hFailed => nomatch hFailed
  | lan onboarding apUp =>
      cases apUp with
      | true => trivial
      | false => exact fun _ => h
  | raise at_ => trivial
  | tidy => exact fun hFailed => absurd rfl hFailed
  | drop lan => exact fun hFailed => absurd rfl hFailed
  | probe => exact fun hFailed => absurd rfl hFailed

/-- An appliance that was networked once and is offline now, with the handoff on. -/
def offline : Appliance :=
  { cfg := { autoHandoff := true }, nmcli := true, networked := true }

theorem offline_fresh : Fresh offline := ⟨rfl, rfl, rfl, rfl⟩

/-- A tick that finds no network: the status query, then the device list. -/
def look : List Op := [.tick, .tickResume .ok none, .tickResume .ok none]

/-- The calls of an `activate` that succeeds, each answered by `answer`. -/
def activated (answer : Op) : List Op := List.replicate 6 answer

/-- The monitor raises the hotspot when it misses the network for the second time. -/
def raised : List Op := look ++ look ++ activated (.tickResume .ok none)

/-- The network is back, and the monitor takes its hotspot down if the call ends so. -/
def handBack (r : Reply) : List Op :=
  [.tick, .tickResume .ok none, .tickResume .ok (some .eth), .tickResume r none]

theorem monitor_respects_owner_handBack :
    .tookDown (some .monitor) ∈ (run Appliance.step offline (raised ++ handBack .ok)).log ∧
      ∀ e ∈ (run Appliance.step offline (raised ++ handBack .ok)).log, e.Rightful := by
  refine ⟨by decide, monitor_respects_owner offline_fresh ?_⟩
  simp only [raised, look, activated, handBack, List.replicate, List.cons_append,
    List.nil_append, stepsOk_cons, stepsOk_nil]
  refine ⟨trivial, ?_, ?_, trivial, ?_, ?_, ?_, ?_, ?_, ?_, ?_, ?_, trivial, ?_, ?_, ?_, trivial⟩
  all_goals exact stepOk_of_ok (by decide)

/-- Switched off and on by hand, the hotspot that the monitor raised is a manual one,
and it takes that down. Where its own `connection down` fails, it takes the hotspot
it raised for a manual one. -/
theorem monitor_mistakes_owner : Fresh offline ∧
    .tookDown (some .manual) ∈ (run Appliance.step offline (raised ++
      [.hotspotOff 0, .resume 0 .ok, .hotspotOn 0] ++ activated (.resume 0 .ok) ++
      handBack .ok)).log ∧
    .reported "skip:manual" true (some .monitor) ∈ (run Appliance.step offline (raised ++
      handBack .failed ++ look)).log :=
  ⟨offline_fresh, by decide, by decide⟩

end WattPost.Hotspot
