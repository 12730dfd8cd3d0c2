import Mathlib.Data.Rat.Defs
import Mathlib.Algebra.Order.Ring.Rat
import Mathlib.Tactic.Linarith
import WattPost.Lib.Runs
import WattPost.Outputs.Service

/-! The controller that pauses a mains charger while the sun covers the load. Its
decision is pure; the times it decides on make a round trip through the output's
row. -/
namespace WattPost.Outputs.SolarPause

open Cloud (Json Fields)

/-! ### The decision -/

/-- `PauseCfg`; `SolarPauseCfg` has the same fields. -/
structure PauseCfg where
  enabled : Bool := false
  chargerOutputId : Option String := none
  targetSoc : ℚ := 80
  recoverSoc : ℚ := 50
  hardFloorSoc : ℚ := 30
  pvSurplusW : ℚ := 50
  cooldownMinutes : Int := 30

/-- `PauseCfg.validate`: the complaint, if there is one. -/
def PauseCfg.validate (cfg : PauseCfg) : Option String :=
  if ¬ (0 ≤ cfg.hardFloorSoc ∧ cfg.hardFloorSoc < cfg.recoverSoc ∧
      cfg.recoverSoc < cfg.targetSoc ∧ cfg.targetSoc ≤ 100) then
    some ("thresholds must satisfy " ++
      "0 <= hard_floor_soc < recover_soc < target_soc <= 100")
  else if cfg.targetSoc - cfg.recoverSoc < 10 then
    some "target_soc must be at least 10 pp above recover_soc to avoid flapping"
  else if cfg.recoverSoc - cfg.hardFloorSoc < 10 then
    some "recover_soc must be at least 10 pp above hard_floor_soc"
  else if cfg.cooldownMinutes < 5 then some "cooldown_minutes must be >= 5 to avoid relay wear"
  else if cfg.pvSurplusW < 0 then some "pv_surplus_w must be non-negative"
  else none

theorem PauseCfg.hardFloor_lt_recover {cfg : PauseCfg} (h : cfg.validate = none) :
    cfg.hardFloorSoc < cfg.recoverSoc := by
  unfold validate at h
  split at h
  · cases h
  case isFalse hThresholds => exact (not_not.mp hThresholds).2.1

structure BankSnapshot where
  socPct : ℚ
  netW : ℚ
  pvActiveW : ℚ
deriving DecidableEq

/-- The charger's last known state, and the times of the last commands; zero
when there was none. -/
structure ChargerSnapshot where
  on : Bool
  lastAutoChangeAt : Int
  lastManualToggleAt : Int

inductive Action where
  | forceOn
  | forceOff
  | unchanged
deriving DecidableEq

/-- The texts of `Decision.reason`, with the numbers they print. -/
inductive Reason where
  | ruleDisabled
  | manualOverride
  | belowHardFloor (soc floor : ℚ)
  | hardFloorSatisfied
  | belowRecover (soc recover : ℚ)
  | stillAboveRecover
  | belowTarget
  | notNetPositive
  | pvNotCovering
  | withinCooldown (minutes cooldown : Int)
  | covered (soc target pv : ℚ)
  | notConfigured
  | noBankReading
  | unknownOutput (outputId : String)

structure Decision where
  action : Action
  reason : Reason

/-- `decide`. -/
def decide (cfg : PauseCfg) (bank : BankSnapshot) (charger : ChargerSnapshot) (nowTs : Int) :
    Decision :=
  if cfg.enabled = false ∨ cfg.chargerOutputId = none then ⟨.unchanged, .ruleDisabled⟩
  else if charger.lastManualToggleAt > charger.lastAutoChangeAt then
    ⟨.unchanged, .manualOverride⟩
  else if bank.socPct < cfg.hardFloorSoc then
    if charger.on = false then ⟨.forceOn, .belowHardFloor bank.socPct cfg.hardFloorSoc⟩
    else ⟨.unchanged, .hardFloorSatisfied⟩
  else
    let cooldownS := cfg.cooldownMinutes * 60
    let sinceLast := nowTs - charger.lastAutoChangeAt
    let inCooldown := charger.lastAutoChangeAt > 0 ∧ sinceLast < cooldownS
    if charger.on = false then
      if bank.socPct < cfg.recoverSoc then
        ⟨.forceOn, .belowRecover bank.socPct cfg.recoverSoc⟩
      else ⟨.unchanged, .stillAboveRecover⟩
    else if bank.socPct < cfg.targetSoc then ⟨.unchanged, .belowTarget⟩
    else if bank.netW ≤ 0 then ⟨.unchanged, .notNetPositive⟩
    else if bank.pvActiveW < cfg.pvSurplusW then ⟨.unchanged, .pvNotCovering⟩
    else if inCooldown then ⟨.unchanged, .withinCooldown (sinceLast / 60) cfg.cooldownMinutes⟩
    else ⟨.forceOff, .covered bank.socPct cfg.targetSoc bank.pvActiveW⟩

/-- The thresholds call for the charger: it is off and the bank is low. -/
def WantsOn (cfg : PauseCfg) (bank : BankSnapshot) (on : Bool) : Prop :=
  on = false ∧ bank.socPct < cfg.recoverSoc

/-- The thresholds call for a pause: the charger is on, the bank is full enough
and charging, and the panels carry the load. -/
def WantsOff (cfg : PauseCfg) (bank : BankSnapshot) (on : Bool) : Prop :=
  on = true ∧ cfg.targetSoc ≤ bank.socPct ∧ 0 < bank.netW ∧ cfg.pvSurplusW ≤ bank.pvActiveW

instance (cfg : PauseCfg) (bank : BankSnapshot) (on : Bool) : Decidable (WantsOn cfg bank on) :=
  inferInstanceAs (Decidable (_ ∧ _))

instance (cfg : PauseCfg) (bank : BankSnapshot) (on : Bool) : Decidable (WantsOff cfg bank on) :=
  inferInstanceAs (Decidable (_ ∧ _))

theorem decide_forceOn {cfg : PauseCfg} (hValid : cfg.validate = none) {bank : BankSnapshot}
    {charger : ChargerSnapshot} {nowTs : Int}
    (h : (decide cfg bank charger nowTs).action = .forceOn) : WantsOn cfg bank charger.on := by
  have hFloor := PauseCfg.hardFloor_lt_recover hValid
  unfold decide at h
  dsimp only at h
  split_ifs at h with _ _ hHard hOff hOff hRecover
  · exact ⟨hOff, by linarith⟩
  · exact ⟨hOff, hRecover⟩

theorem decide_forceOff {cfg : PauseCfg} {bank : BankSnapshot} {charger : ChargerSnapshot}
    {nowTs : Int} (h : (decide cfg bank charger nowTs).action = .forceOff) :
    WantsOff cfg bank charger.on := by
  unfold decide at h
  dsimp only at h
  split_ifs at h with _ _ _ _ hOn _ hTarget hNet hPv
  exact ⟨by simpa using hOn, by linarith, by linarith, by linarith⟩

/-! ### The service -/

/-- `_read_charger_snapshot`. The command is looked up under the name of the
column; a text there would be parsed, and is not one the row mapper returns. -/
def readChargerSnapshot (outputs : List OutputRow) (outputId : String) :
    Option ChargerSnapshot :=
  (getOutput outputs outputId).map fun row =>
    let on := Json.truthy (Json.get? row "state")
    match Json.get? row "last_command_json" with
    | some (.obj cmd) =>
        let time := (Json.intValue (Json.get? cmd "at")).getD 0
        let issuer := (Json.strValue (Json.get? cmd "by")).getD ""
        if PyText.startsWith issuer "auto" then
          { on := on, lastAutoChangeAt := time, lastManualToggleAt := 0 }
        else { on := on, lastAutoChangeAt := 0, lastManualToggleAt := time }
    | _ => { on := on, lastAutoChangeAt := 0, lastManualToggleAt := 0 }

/-- `bool(row["state"])`. -/
def rowOn (row : OutputRow) : Bool := row.state.any (· ≠ 0)

/-- What `evaluate_solar_pause` returns. -/
structure PauseReport where
  applied : Bool
  decision : Action
  reason : Reason
  bank : Option BankSnapshot := none
  chargerOn : Option Bool := none
  writeDetail : Option String := none

/-- The toggle that follows a decision, some seconds later, and its report. -/
def applyDecision (s : State) (outputId : String) (on : Bool) (delay : Nat) (attempt : Attempt)
    (report : PauseReport) : PauseReport × State :=
  match toggle { s with clock := s.clock + delay } outputId on "auto:solar_pause" attempt with
  | (.ok result, after) =>
      ({ report with applied := result.ok, writeDetail := some result.detail }, after)
  | (.error message, after) => ({ report with applied := false, writeDetail := some message }, after)

/-- `evaluate_solar_pause`. The configuration class has no `validate`, so nothing
is checked here; `bank` is what `_read_bank_snapshot` returned. -/
def evaluateSolarPause (cfg : PauseCfg) (s : State) (bank : Option BankSnapshot) (delay : Nat)
    (attempt : Attempt) : PauseReport × State :=
  match cfg.chargerOutputId with
  | none => ({ applied := false, decision := .unchanged, reason := .notConfigured }, s)
  | some outputId =>
      if cfg.enabled = false ∨ outputId = "" then
        ({ applied := false, decision := .unchanged, reason := .notConfigured }, s)
      else
        match bank, readChargerSnapshot s.outputs outputId with
        | none, _ => ({ applied := false, decision := .unchanged, reason := .noBankReading }, s)
        | some _, none =>
            ({ applied := false, decision := .unchanged, reason := .unknownOutput outputId }, s)
        | some bank, some charger =>
            let decision := decide cfg bank charger s.clock
            let report : PauseReport :=
              { applied := false, decision := decision.action, reason := decision.reason
                bank := some bank, chargerOn := some charger.on }
            match decision.action with
            | .unchanged => (report, s)
            | .forceOn => applyDecision s outputId true delay attempt report
            | .forceOff => applyDecision s outputId false delay attempt report

/-- The row mapper has no `last_command_json`: no command is ever seen. -/
theorem readChargerSnapshot_eq (outputs : List OutputRow) (outputId : String) :
    readChargerSnapshot outputs outputId =
      (findRow outputs outputId).map fun row =>
        { on := rowOn row, lastAutoChangeAt := 0, lastManualToggleAt := 0 } := by
  unfold readChargerSnapshot getOutput
  rw [Option.map_map]
  congr 1
  funext row
  have hCommand : Json.get? (rowToOutput row) "last_command_json" = none := by
    simp [Json.get?, rowToOutput]
  have hState : Json.get? (rowToOutput row) "state" = some (intColumn row.state) := by
    simp [Json.get?, rowToOutput]
  have hOn : Json.truthy (some (intColumn row.state)) = rowOn row := by
    cases hs : row.state with
    | none => simp [intColumn, Json.truthy, rowOn, hs]
    | some n =>
        by_cases hn : n = 0 <;> simp [intColumn, Json.truthy, rowOn, hs, hn]
  simp only [Function.comp_apply, hCommand, hState, hOn]

end WattPost.Outputs.SolarPause
