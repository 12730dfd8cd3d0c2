import WattPost.Outputs.SolarPause

/-! The loop that the pause controller closes: poll cycles, hand switching and
passing time, over any number of steps. The commands that reached the charger
are compared with the cooldown and with the user's override. -/
namespace WattPost.Outputs.SolarPause

open Cloud (Json Fields)
open Runs

/-- Who switches an output by hand, or by a schedule. -/
inductive ManualIssuer where
  | user
  | schedule (id : Nat)

def ManualIssuer.text : ManualIssuer → String
  | .user => "user"
  | .schedule id => "schedule:" ++ toString id

/-- A step of the appliance, as far as an output is concerned. -/
inductive Op where
  | elapse (seconds : Nat)
  | measured (outputId : String) (state : Int)
  | manualToggle (outputId : String) (on : Bool) (issuer : ManualIssuer) (attempt : Attempt)
  | evaluate (bank : Option BankSnapshot) (delay : Nat) (attempt : Attempt)

def step (cfg : PauseCfg) (s : State) : Op → State
  | .elapse seconds => { s with clock := s.clock + seconds }
  | .measured outputId state =>
      { s with outputs := updateOutputState s.outputs outputId (some state) s.clock }
  | .manualToggle outputId on issuer attempt => (toggle s outputId on issuer.text attempt).2
  | .evaluate bank delay attempt => (evaluateSolarPause cfg s bank delay attempt).2

/-! ### What the commands have to respect -/

/-- `by` starts with "auto". -/
def Command.automatic (command : Command) : Bool := PyText.startsWith command.issuer "auto"

/-- The last command on an output. -/
def lastOn (outputId : String) (issued : List Command) : Option Command :=
  (issued.filter fun command => command.outputId = outputId).getLast?

/-- No automatic switch-off within the cooldown of an earlier automatic command,
and no automatic command at all after a manual one. -/
structure Respected (cfg : PauseCfg) (outputId : String) (issued : List Command) : Prop where
  cooldown : ∀ before command after, issued = before ++ command :: after →
    command.outputId = outputId → Command.automatic command = true → command.on = false →
      ∀ earlier ∈ before, earlier.outputId = outputId → Command.automatic earlier = true →
        (earlier.time : Int) + cfg.cooldownMinutes * 60 ≤ command.time
  override : ∀ before command after, issued = before ++ command :: after →
    command.outputId = outputId → Command.automatic command = true →
      ∀ last, lastOn outputId before = some last → Command.automatic last = true

/-- The issuer and the time in a stored command. -/
def issuerOf (fields : Fields) : String := (Json.strValue (Json.get? fields "by")).getD ""

def timeOf (fields : Fields) : Int := (Json.intValue (Json.get? fields "at")).getD 0

@[simp] theorem issuerOf_payload (command : Command) :
    issuerOf command.payload = command.issuer := by
  simp [issuerOf, Command.payload, Json.get?, Json.strValue]

@[simp] theorem timeOf_payload (command : Command) : timeOf command.payload = command.time := by
  simp [timeOf, Command.payload, Json.get?, Json.intValue]

/-- The step does not need the memory that the controller lacks: no threshold
calls for a change while the row's last command is manual, and none for a pause
while it is automatic and younger than the cooldown. -/
def NoConflict (cfg : PauseCfg) (outputId : String) : List Op → State → Op → Prop
  | _, s, .evaluate (some bank) _ _ =>
      ∀ row ∈ findRow s.outputs outputId, ∀ fields ∈ row.lastCommandJson,
        (PyText.startsWith (issuerOf fields) "auto" = false →
          ¬ WantsOn cfg bank (rowOn row) ∧ ¬ WantsOff cfg bank (rowOn row)) ∧
        (PyText.startsWith (issuerOf fields) "auto" = true →
          s.clock < timeOf fields + cfg.cooldownMinutes * 60 → ¬ WantsOff cfg bank (rowOn row))
  | _, _, _ => True

instance (cfg : PauseCfg) (outputId : String) (before : List Op) (s : State) (op : Op) :
    Decidable (NoConflict cfg outputId before s op) :=
  match op with
  | .evaluate (some _) _ _ => by unfold NoConflict; infer_instance
  | .evaluate none _ _ => .isTrue trivial
  | .elapse _ => .isTrue trivial
  | .measured _ _ => .isTrue trivial
  | .manualToggle _ _ _ _ => .isTrue trivial

/-! ### What a step does to the commands -/

theorem ManualIssuer.text_not_auto (issuer : ManualIssuer) :
    PyText.startsWith issuer.text "auto" = false := by
  cases issuer with
  | user => decide +kernel
  | schedule id =>
      simp [text, PyText.startsWith, String.toList_append, List.isPrefixOf]

/-- A decision is carried out by one command, or only time passes. -/
theorem applyDecision_cases (s : State) (outputId : String) (on : Bool) (delay : Nat)
    (attempt : Attempt) (report : PauseReport) :
    (∃ later, s.clock ≤ later ∧
      (applyDecision s outputId on delay attempt report).2 = { s with clock := later }) ∨
    ∃ command result,
      command.outputId = outputId ∧ command.on = on ∧ command.issuer = "auto:solar_pause" ∧
        command.time = s.clock + delay ∧
        (applyDecision s outputId on delay attempt report).2 =
          applyWrite { s with clock := s.clock + delay } command result := by
  have hAfter : (applyDecision s outputId on delay attempt report).2 =
      (toggle { s with clock := s.clock + delay } outputId on "auto:solar_pause" attempt).2 := by
    unfold applyDecision
    split <;> simp_all
  rw [hAfter]
  rcases toggle_cases { s with clock := s.clock + delay } outputId on "auto:solar_pause"
      attempt with hNone | ⟨command, result, hId, hOn, hIssuer, hTime, hSome⟩
  · exact Or.inl ⟨s.clock + delay, Nat.le_add_right _ _, hNone⟩
  · exact Or.inr ⟨command, result, hId, hOn, hIssuer, hTime, hSome⟩

/-- The thresholds called for what an evaluation sends. -/
theorem evaluateSolarPause_cases {cfg : PauseCfg} (hValid : cfg.validate = none)
    {outputId : String} (hCharger : cfg.chargerOutputId = some outputId) (s : State)
    (bank : Option BankSnapshot) (delay : Nat) (attempt : Attempt) :
    (∃ later, s.clock ≤ later ∧
      (evaluateSolarPause cfg s bank delay attempt).2 = { s with clock := later }) ∨
    ∃ snapshot row command result,
      bank = some snapshot ∧ findRow s.outputs outputId = some row ∧
        command.outputId = outputId ∧ command.issuer = "auto:solar_pause" ∧
        command.time = s.clock + delay ∧
        (command.on = true → WantsOn cfg snapshot (rowOn row)) ∧
        (command.on = false → WantsOff cfg snapshot (rowOn row)) ∧
        (evaluateSolarPause cfg s bank delay attempt).2 =
          applyWrite { s with clock := s.clock + delay } command result := by
  have hSame : ∃ later, s.clock ≤ later ∧ s = { s with clock := later } :=
    ⟨s.clock, Nat.le_refl _, rfl⟩
  unfold evaluateSolarPause
  rw [hCharger]
  dsimp only
  split
  · exact Or.inl hSame
  split
  · exact Or.inl hSame
  · exact Or.inl hSame
  case h_3 snapshot charger hRead =>
    rw [readChargerSnapshot_eq] at hRead
    obtain ⟨row, hRow, rfl⟩ := Option.map_eq_some_iff.mp hRead
    split
    · exact Or.inl hSame
    case h_2 hAction =>
      have hWants := decide_forceOn hValid hAction
      rcases applyDecision_cases s outputId true delay attempt _ with
        hStay | ⟨command, result, hId, hOn, hIssuer, hTime, hAfter⟩
      · exact Or.inl hStay
      · refine Or.inr ⟨snapshot, row, command, result, rfl, hRow, hId, hIssuer, hTime,
          fun _ => hWants, fun hOff => ?_, hAfter⟩
        rw [hOn] at hOff
        cases hOff
    case h_3 hAction =>
      have hWants := decide_forceOff hAction
      rcases applyDecision_cases s outputId false delay attempt _ with
        hStay | ⟨command, result, hId, hOff, hIssuer, hTime, hAfter⟩
      · exact Or.inl hStay
      · refine Or.inr ⟨snapshot, row, command, result, rfl, hRow, hId, hIssuer, hTime,
          fun hOn => ?_, fun _ => hWants, hAfter⟩
        rw [hOff] at hOn
        cases hOn

/-! ### The invariant -/

theorem lastOn_concat (outputId : String) (issued : List Command) (command : Command) :
    lastOn outputId (issued ++ [command]) =
      if command.outputId = outputId then some command else lastOn outputId issued := by
  by_cases h : command.outputId = outputId <;> simp [lastOn, List.filter_append, h]

/-- What the newest command has to respect is all that is new. -/
theorem Respected.concat {cfg : PauseCfg} {outputId : String} {issued : List Command}
    (h : Respected cfg outputId issued) {command : Command}
    (hOverride : command.outputId = outputId → Command.automatic command = true →
      ∀ last, lastOn outputId issued = some last → Command.automatic last = true)
    (hCooldown : command.outputId = outputId → Command.automatic command = true →
      command.on = false → ∀ earlier ∈ issued, earlier.outputId = outputId →
        Command.automatic earlier = true →
          (earlier.time : Int) + cfg.cooldownMinutes * 60 ≤ command.time) :
    Respected cfg outputId (issued ++ [command]) := by
  constructor
  case cooldown =>
    intro before c after hSplit
    rcases split_concat hSplit with ⟨rfl, rfl⟩ | ⟨rest, hOld⟩
    · exact hCooldown
    · exact h.cooldown before c rest hOld
  case override =>
    intro before c after hSplit
    rcases split_concat hSplit with ⟨rfl, rfl⟩ | ⟨rest, hOld⟩
    · exact hOverride
    · exact h.override before c rest hOld

/-- The commands so far are respectful and in time order, and the row holds the
last of them. -/
structure LoopInv (cfg : PauseCfg) (outputId : String) (s : State) : Prop where
  respected : Respected cfg outputId s.issued
  ordered : s.issued.Pairwise fun a b => a.time ≤ b.time
  past : ∀ command ∈ s.issued, command.time ≤ s.clock
  recorded : ∀ row, findRow s.outputs outputId = some row →
    row.lastCommandJson = (lastOn outputId s.issued).map Command.payload

theorem LoopInv.later {cfg : PauseCfg} {outputId : String} {s : State}
    (h : LoopInv cfg outputId s) {later : Nat} (hLater : s.clock ≤ later) :
    LoopInv cfg outputId { s with clock := later } where
  respected := h.respected
  ordered := h.ordered
  past := fun command hMem => Nat.le_trans (h.past command hMem) hLater
  recorded := h.recorded

/-- A command that respects the others keeps the invariant. -/
theorem LoopInv.applyWrite {cfg : PauseCfg} {outputId : String} {s : State}
    (h : LoopInv cfg outputId s) {command : Command} (hTime : command.time = s.clock)
    (hOverride : command.outputId = outputId → Command.automatic command = true →
      ∀ last, lastOn outputId s.issued = some last → Command.automatic last = true)
    (hCooldown : command.outputId = outputId → Command.automatic command = true →
      command.on = false → ∀ earlier ∈ s.issued, earlier.outputId = outputId →
        Command.automatic earlier = true →
          (earlier.time : Int) + cfg.cooldownMinutes * 60 ≤ command.time)
    (result : WriteResult) :
    LoopInv cfg outputId (applyWrite s command result) where
  respected := h.respected.concat hOverride hCooldown
  ordered := by
    refine List.pairwise_append.mpr ⟨h.ordered, List.pairwise_singleton _ _, ?_⟩
    intro earlier hMem last hLast
    rw [List.mem_singleton.mp hLast, hTime]
    exact h.past earlier hMem
  past := by
    intro c hMem
    rcases List.mem_append.mp hMem with hOld | hNew
    · exact h.past c hOld
    · rw [List.mem_singleton.mp hNew, hTime]
      exact Nat.le_refl s.clock
  recorded := by
    intro row hRow
    have hMap := findRow_applyWrite_lastCommand s command result outputId
    rw [hRow] at hMap
    obtain ⟨old, hOld, hCommand⟩ := Option.map_eq_some_iff.mp hMap.symm
    show _ = (lastOn outputId (s.issued ++ [command])).map Command.payload
    rw [← hCommand, lastOn_concat, h.recorded old hOld]
    by_cases hId : command.outputId = outputId
    · simp [hId]
    · simp [hId, Ne.symm hId]

/-- An automatic command that the last one does not forbid is late enough after
every earlier one. -/
theorem LoopInv.cooldown_of_last {cfg : PauseCfg} {outputId : String} {s : State}
    (h : LoopInv cfg outputId s) {time : Nat}
    (hLast : ∀ last, lastOn outputId s.issued = some last →
      (last.time : Int) + cfg.cooldownMinutes * 60 ≤ time) :
    ∀ earlier ∈ s.issued, earlier.outputId = outputId →
      (earlier.time : Int) + cfg.cooldownMinutes * 60 ≤ time := by
  intro earlier hMem hId
  have hFilter : earlier ∈ s.issued.filter fun c => c.outputId = outputId := by
    simp [hMem, hId]
  obtain ⟨front, last, hSplit⟩ := (List.eq_nil_or_concat
    (s.issued.filter fun c => c.outputId = outputId)).resolve_left (List.ne_nil_of_mem hFilter)
  have hLastOn : lastOn outputId s.issued = some last := by
    simp [lastOn, hSplit]
  have hLe : earlier.time ≤ last.time := by
    have hOrdered := h.ordered.filter fun c => Decidable.decide (c.outputId = outputId)
    rw [hSplit, List.concat_eq_append] at hOrdered hFilter
    rcases List.mem_append.mp hFilter with hFront | hNew
    · exact (List.pairwise_append.mp hOrdered).2.2 earlier hFront last (List.mem_singleton_self _)
    · rw [List.mem_singleton.mp hNew]
  have hBound := hLast last hLastOn
  omega

/-- A step that needs no memory keeps the invariant. -/
theorem LoopInv.step {cfg : PauseCfg} (hValid : cfg.validate = none) {outputId : String}
    (hCharger : cfg.chargerOutputId = some outputId) {s : State} (h : LoopInv cfg outputId s)
    {before : List Op} {op : Op} (hOk : NoConflict cfg outputId before s op) :
    LoopInv cfg outputId (step cfg s op) := by
  cases op with
  | elapse seconds => exact h.later (Nat.le_add_right _ _)
  | measured other state =>
      refine ⟨h.respected, h.ordered, h.past, ?_⟩
      intro row hRow
      have hUpdate := findRow_updateOutputState s.outputs other outputId (some state) s.clock
      change findRow (updateOutputState s.outputs other (some state) s.clock) outputId =
        some row at hRow
      rw [hRow] at hUpdate
      obtain ⟨old, hOld, rfl⟩ := Option.map_eq_some_iff.mp hUpdate.symm
      rw [apply_ite OutputRow.lastCommandJson, ite_self]
      exact h.recorded old hOld
  | manualToggle other on issuer attempt =>
      rcases toggle_cases s other on issuer.text attempt with
        hNone | ⟨command, result, _, _, hIssuer, hTime, hAfter⟩
      · change LoopInv cfg outputId (toggle s other on issuer.text attempt).2
        rw [hNone]
        exact h
      · have hManual : Command.automatic command = false := by
          rw [Command.automatic, hIssuer, issuer.text_not_auto]
        change LoopInv cfg outputId (toggle s other on issuer.text attempt).2
        rw [hAfter]
        exact h.applyWrite hTime (fun _ hAuto => by rw [hManual] at hAuto; cases hAuto)
          (fun _ hAuto => by rw [hManual] at hAuto; cases hAuto) result
  | evaluate bank delay attempt =>
      change LoopInv cfg outputId (evaluateSolarPause cfg s bank delay attempt).2
      rcases evaluateSolarPause_cases hValid hCharger s bank delay attempt with
        ⟨later, hLater, hAfter⟩ |
        ⟨snapshot, row, command, result, rfl, hRow, hId, hIssuer, hTime, hOn, hOff, hAfter⟩
      · rw [hAfter]
        exact h.later hLater
      · -- The row holds the last command, so the condition speaks about it.
        have hStored := h.recorded row hRow
        have hLastAuto : ∀ last, lastOn outputId s.issued = some last →
            Command.automatic last = true := by
          intro last hLast
          rw [hLast] at hStored
          have hManual := (hOk row hRow _ hStored).1
          rw [issuerOf_payload] at hManual
          by_contra hNot
          obtain ⟨hNoOn, hNoOff⟩ := hManual (by simpa [Command.automatic] using hNot)
          cases hCommand : command.on with
          | true => exact hNoOn (hOn hCommand)
          | false => exact hNoOff (hOff hCommand)
        rw [hAfter]
        refine (h.later (Nat.le_add_right s.clock delay)).applyWrite hTime
          (fun _ _ => hLastAuto) ?_ result
        intro _ _ hCommand earlier hMem hEarlier _
        refine h.cooldown_of_last ?_ earlier hMem hEarlier
        intro last hLast
        rw [hLast] at hStored
        have hYoung := (hOk row hRow _ hStored).2
        rw [issuerOf_payload, timeOf_payload] at hYoung
        by_contra hLt
        refine hYoung (hLastAuto last hLast) ?_ (hOff hCommand)
        rw [hTime] at hLt
        push_cast at hLt
        omega

/-- Nothing was sent to the charger yet. -/
def Fresh (outputId : String) (s : State) : Prop :=
  s.issued = [] ∧ ∀ row, findRow s.outputs outputId = some row → row.lastCommandJson = none

/-- Over every run of poll cycles, hand switching and passing time in which no
threshold is crossed against a fresh command, the cooldown and the override are
respected. -/
theorem pause_respects_cooldown_and_override {cfg : PauseCfg} (hValid : cfg.validate = none)
    {outputId : String} (hCharger : cfg.chargerOutputId = some outputId) {s : State}
    (hFresh : Fresh outputId s) {ops : List Op}
    (hOps : StepsOk (step cfg) (NoConflict cfg outputId) s ops) :
    Respected cfg outputId (run (step cfg) s ops).issued := by
  have hInit : LoopInv cfg outputId s := by
    obtain ⟨hIssued, hRow⟩ := hFresh
    constructor
    case respected =>
      rw [hIssued]
      constructor <;> (intro before command after hSplit; cases before <;> cases hSplit)
    case ordered =>
      rw [hIssued]
      exact List.Pairwise.nil
    case past =>
      rw [hIssued]
      intro command hMem
      cases hMem
    case recorded =>
      intro row hFind
      rw [hRow row hFind, hIssued]
      rfl
  have hInv : LoopInv cfg outputId (run (step cfg) s ops) :=
    hOps.preserves hInit fun _ _ _ hBefore hOk => hBefore.step hValid hCharger hOk
  exact hInv.respected

/-! ### Two runs -/

/-- The default thresholds, for an output of its own. -/
def sampleCfg : PauseCfg := { enabled := true, chargerOutputId := some "plug.charger" }

/-- A charger that is on, at some time of the day. -/
def sampleState : State where
  outputs :=
    [{ id := "plug.charger", deviceLabel := "charger", name := "Charger", kind := "smart_plug"
       state := some 1, stateAt := none, lastCommandJson := none, safetyConfirmed := true
       capabilities := ["toggle"] }]
  clock := 1000000
  issued := []

def sunny : BankSnapshot := { socPct := 90, netW := 100, pvActiveW := 200 }

def low : BankSnapshot := { socPct := 20, netW := -100, pvActiveW := 0 }

def switched (state : Int) : Attempt := .wrote { ok := true, confirmedState := some state, detail := "" }

/-- The charger is paused in the sun, and comes back when the bank is low. -/
def quietDay : List Op :=
  [.evaluate (some sunny) 0 (switched 0), .elapse 60, .evaluate (some sunny) 1 (switched 0),
    .elapse 7200, .evaluate (some low) 0 (switched 1)]

theorem pause_respects_quietDay :
    (run (step sampleCfg) sampleState quietDay).issued.map Command.on = [false, true] ∧
      Respected sampleCfg "plug.charger" (run (step sampleCfg) sampleState quietDay).issued := by
  refine ⟨by decide +kernel,
    pause_respects_cooldown_and_override (by decide +kernel) rfl ⟨rfl, ?_⟩ ?_⟩
  · intro row hRow
    cases hRow
    rfl
  · simp only [quietDay, stepsOk_cons, stepsOk_nil]
    decide +kernel

/-- Pause, the user switches the charger on again, and the next poll cycle
switches it off, seconds after both. -/
def overridden : List Op :=
  [.evaluate (some sunny) 0 (switched 0), .elapse 30,
    .manualToggle "plug.charger" true .user (switched 1), .elapse 30,
    .evaluate (some sunny) 0 (switched 0)]

theorem pause_ignores_override :
    sampleCfg.validate = none ∧
      ¬ Respected sampleCfg "plug.charger" (run (step sampleCfg) sampleState overridden).issued := by
  have hIssued : (run (step sampleCfg) sampleState overridden).issued =
      [⟨"plug.charger", false, 1000000, "auto:solar_pause", "ok"⟩,
        ⟨"plug.charger", true, 1000030, "user", "ok"⟩,
        ⟨"plug.charger", false, 1000060, "auto:solar_pause", "ok"⟩] := by decide +kernel
  refine ⟨by decide +kernel, ?_⟩
  intro hRespected
  have hLast := hRespected.override [_, _] _ [] hIssued rfl (by decide +kernel) _ rfl
  exact absurd hLast (by decide +kernel)

end WattPost.Outputs.SolarPause
