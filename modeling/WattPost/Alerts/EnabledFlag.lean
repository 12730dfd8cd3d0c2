import WattPost.Alerts.QuietHours
import WattPost.Alerts.RuleStore

/-! A disabled rule through edits, commands and restarts: what writes the rules with
their flag, and what forgets it. -/
namespace WattPost.Alerts

open LocalTime Runs

variable {N : Type}

/-! ### Disabled -/

/-- A rule of this id is there, and every one is off. -/
def OffIn {ρ : Type} (key : ρ → String) (off : ρ → Prop) (id : String) (rules : List ρ) : Prop :=
  (∃ r ∈ rules, key r = id) ∧ ∀ r ∈ rules, key r = id → off r

/-- In `config.yaml`. -/
abbrev FileOff (id : String) (rules : List (RawRule N)) : Prop :=
  OffIn RawRule.id (fun r => r.enabled = some false) id rules

/-- In the loaded configuration. -/
abbrev ConfigOff (id : String) (rules : List (AlertRuleCfg N)) : Prop :=
  OffIn AlertRuleCfg.id (fun r => r.enabled = false) id rules

/-- The engine has no armed rule of this id. -/
def EngineOff (id : String) (rules : List (AlertRule N)) : Prop :=
  ∀ r ∈ rules, r.id = id → r.enabled = false

instance {ρ : Type} (key : ρ → String) (off : ρ → Prop) [DecidablePred off] (id : String)
    (rules : List ρ) : Decidable (OffIn key off id rules) :=
  inferInstanceAs (Decidable (_ ∧ _))

instance (id : String) (rules : List (AlertRule N)) : Decidable (EngineOff id rules) :=
  inferInstanceAs (Decidable (∀ r ∈ rules, r.id = id → r.enabled = false))

/-- The rule is disabled wherever rules are kept. -/
structure Disabled (id : String) (d : Daemon N) : Prop where
  file : FileOff id d.file.alerts
  config : ConfigOff id d.alerts
  engine : EngineOff id d.engine.rules

/-- The rule is off in `config.yaml` and in the engine, and does not fire. -/
structure StaysDisabled [PyNumber N] (id : String) (d : Daemon N) : Prop where
  file : ∀ r ∈ d.file.alerts, r.id = id → r.enabled = some false
  engine : EngineOff id d.engine.rules
  silent : ∀ zone now snapshot, ∀ f ∈ (evaluate zone d.engine now snapshot).fired,
    f.event.ruleId ≠ id

/-- The operation is about the rule itself: it enables, replaces or deletes it. -/
def Rewrites (id : String) : RuleOp N → Prop
  | .updateRule ruleId data _ => ruleId = id ∧ data.enabled = true
  | .deleteRule ruleId _ => ruleId = id
  | .setLocalRule (some p) _ => orText p.id "" = id
  | .deleteLocalRule rid _ => rid = id
  | _ => False

/-- The operation is no restart, and no command that gets as far as saving. -/
def KeepsFlags : RuleOp N → Prop
  | .setLocalRule (some p) true => orText p.id "" = ""
  | .deleteLocalRule rid true => rid = ""
  | .restart _ _ => False
  | _ => True

/-! ### The engine -/

theorem foldl_evaluateRule [PyNumber N] (now : Int) (inQuiet : Bool) (ctx : Value N)
    (armed : List (AlertRule N)) (pass : Pass N)
    (hFired : ∀ f ∈ pass.fired, f.rule ∈ armed ∧ f.rule.enabled = true ∧
      f.event.ruleId = f.rule.id) (rules : List (AlertRule N)) (hRules : ∀ r ∈ rules, r ∈ armed) :
    let after := rules.foldl (evaluateRule now inQuiet ctx) pass
    after.engine.rules = pass.engine.rules ∧
      ∀ f ∈ after.fired, f.rule ∈ armed ∧ f.rule.enabled = true ∧ f.event.ruleId = f.rule.id := by
  induction rules generalizing pass with
  | nil => exact ⟨rfl, hFired⟩
  | cons rule rules ih =>
      have hRest : ∀ r ∈ rules, r ∈ armed := fun r hr => hRules r (List.mem_cons_of_mem _ hr)
      rcases evaluateRule_cases now inQuiet ctx pass rule with hSame | ⟨event, hFires, hPass⟩
      · rw [List.foldl_cons, hSame]
        exact ih _ hFired hRest
      · obtain ⟨hEnabled, hId, _, _, _⟩ := AlertEngine.fires_some hFires
        rw [List.foldl_cons, hPass]
        refine ih _ ?_ hRest
        intro f hf
        rcases List.mem_append.mp hf with hOld | hNew
        · exact hFired f hOld
        · cases List.mem_singleton.mp hNew
          exact ⟨hRules rule List.mem_cons_self, hEnabled, hId⟩

/-- A call keeps the rules, and only armed rules fire. -/
theorem evaluate_rules [PyNumber N] (zone : Zone) (engine : AlertEngine N) (now : Int)
    (snapshot : Snapshot N) :
    (evaluate zone engine now snapshot).engine.rules = engine.rules ∧
      ∀ f ∈ (evaluate zone engine now snapshot).fired,
        f.rule ∈ engine.rules ∧ f.rule.enabled = true ∧ f.event.ruleId = f.rule.id := by
  have hBegin : ∀ inQuiet, (beginPass engine inQuiet).engine.rules = engine.rules ∧
      (beginPass engine inQuiet).fired = [] := by
    intro inQuiet
    unfold beginPass
    split
    · exact ⟨rfl, rfl⟩
    · exact ⟨rfl, rfl⟩
  obtain ⟨hRules, hNone⟩ := hBegin (engine.isQuietNow zone now)
  obtain ⟨hKept, hFired⟩ := foldl_evaluateRule now (engine.isQuietNow zone now)
    (buildAlertContext snapshot) engine.rules (beginPass engine (engine.isQuietNow zone now))
    (by simp [hNone]) engine.rules (fun _ hr => hr)
  exact ⟨hKept.trans hRules, hFired⟩

theorem EngineOff.silent [PyNumber N] {id : String} {engine : AlertEngine N}
    (h : EngineOff id engine.rules) (zone : Zone) (now : Int) (snapshot : Snapshot N) :
    ∀ f ∈ (evaluate zone engine now snapshot).fired, f.event.ruleId ≠ id := by
  intro f hf hId
  obtain ⟨hMem, hEnabled, hEvent⟩ := (evaluate_rules zone engine now snapshot).2 f hf
  have hOff := h f.rule hMem (hEvent.symm.trans hId)
  rw [hEnabled] at hOff
  cases hOff

theorem Disabled.stays [PyNumber N] {id : String} {d : Daemon N} (h : Disabled id d) :
    StaysDisabled id d := ⟨h.file.2, h.engine, h.engine.silent⟩

/-! ### Steps -/

theorem ConfigOff.engineOff {id : String} {rules : List (AlertRuleCfg N)}
    (h : ConfigOff id rules) : EngineOff id (rules.map AlertRuleCfg.rule) := by
  intro r hr hId
  obtain ⟨cfg, hMem, rfl⟩ := List.mem_map.mp hr
  exact h.2 cfg hMem hId

theorem Disabled.saveAndRefresh {id : String} {d : Daemon N} (h : Disabled id d) (saved : Bool)
    {mutate : List (RawRule N) → List (RawRule N)} (hMutate : FileOff id (mutate d.file.alerts))
    (reported : String) : Disabled id (d.saveAndRefresh saved mutate reported).2 := by
  cases saved with
  | false => exact h
  | true => exact ⟨hMutate, h.config, h.config.engineOff⟩

theorem mem_replaceFirst {id : String} {raw r : RawRule N} {rules : List (RawRule N)}
    (h : r ∈ replaceFirst id raw rules) : r = raw ∨ r ∈ rules := by
  induction rules with
  | nil => cases h
  | cons first rest ih =>
      unfold replaceFirst at h
      split at h
      · rcases List.mem_cons.mp h with rfl | hRest
        · exact Or.inl rfl
        · exact Or.inr (List.mem_cons_of_mem _ hRest)
      · rcases List.mem_cons.mp h with rfl | hRest
        · exact Or.inr List.mem_cons_self
        · exact (ih hRest).imp_right (List.mem_cons_of_mem _)

/-- The ids stay where they are. -/
theorem map_id_replaceFirst {id : String} {raw : RawRule N} (hId : raw.id = id)
    (rules : List (RawRule N)) :
    (replaceFirst id raw rules).map RawRule.id = rules.map RawRule.id := by
  induction rules with
  | nil => rfl
  | cons first rest ih =>
      unfold replaceFirst
      split
      case isTrue h => simp [hId, h]
      case isFalse => simp [ih]

section Off

variable {ρ : Type} {key : ρ → String} {off : ρ → Prop} {id : String} {rules : List ρ}

theorem OffIn.append (h : OffIn key off id rules) {added : ρ}
    (hAdded : key added = id → off added) : OffIn key off id (rules ++ [added]) := by
  obtain ⟨⟨r, hMem, hId⟩, hOff⟩ := h
  refine ⟨⟨r, List.mem_append_left _ hMem, hId⟩, ?_⟩
  intro r' hMem'
  rcases List.mem_append.mp hMem' with hOld | hNew
  · exact hOff r' hOld
  · cases List.mem_singleton.mp hNew
    exact hAdded

theorem OffIn.filter (h : OffIn key off id rules) {target : String} (hOther : target ≠ id) :
    OffIn key off id (rules.filter fun r => key r ≠ target) := by
  obtain ⟨⟨r, hMem, hId⟩, hOff⟩ := h
  refine ⟨⟨r, List.mem_filter.mpr ⟨hMem, ?_⟩, hId⟩, ?_⟩
  · simp [hId, hOther.symm]
  · exact fun r' hMem' => hOff r' (List.mem_of_mem_filter hMem')

end Off

theorem FileOff.replaceFirst {id target : String} {rules : List (RawRule N)}
    (h : FileOff id rules) {raw : RawRule N} (hTarget : raw.id = target)
    (hRaw : raw.id = id → raw.enabled = some false) :
    FileOff id (replaceFirst target raw rules) := by
  obtain ⟨⟨r, hMem, hId⟩, hOff⟩ := h
  constructor
  · have hIds : id ∈ (Alerts.replaceFirst target raw rules).map RawRule.id := by
      rw [map_id_replaceFirst hTarget]
      exact List.mem_map.mpr ⟨r, hMem, hId⟩
    obtain ⟨r', hMem', hId'⟩ := List.mem_map.mp hIds
    exact ⟨r', hMem', hId'⟩
  · intro r' hMem'
    rcases mem_replaceFirst hMem' with rfl | hOld
    · exact hRaw
    · exact hOff r' hOld

theorem ConfigOff.replace {id target : String} {rules : List (AlertRuleCfg N)}
    (h : ConfigOff id rules) {cfg : AlertRuleCfg N} (hTarget : cfg.id = target)
    (hCfg : cfg.id = id → cfg.enabled = false) :
    ConfigOff id (rules.map fun r => if r.id = target then cfg else r) := by
  obtain ⟨⟨r, hMem, hId⟩, hOff⟩ := h
  constructor
  · refine ⟨_, List.mem_map.mpr ⟨r, hMem, rfl⟩, ?_⟩
    split
    case isTrue hSame => exact hTarget.trans (hSame.symm.trans hId)
    case isFalse => exact hId
  · intro r' hMem' hId'
    obtain ⟨old, hOld, rfl⟩ := List.mem_map.mp hMem'
    split at hId' <;> rename_i hSame
    · rw [if_pos hSame]
      exact hCfg hId'
    · rw [if_neg hSame]
      exact hOff old hOld hId'

theorem Disabled.createRule {id : String} {d : Daemon N} (h : Disabled id d) (py : PyStr)
    (data : AlertRulePayload N) (saved : Bool) : Disabled id (d.createRule py data saved).2 := by
  unfold Daemon.createRule
  split
  · exact h
  · split
    case isTrue => exact h
    case isFalse hNew =>
      have hOther : data.id ≠ id := by
        intro hSame
        obtain ⟨r, hMem, hId⟩ := h.config.1
        exact hNew (List.any_eq_true.mpr ⟨r, hMem, by simp [hId, hSame]⟩)
      refine Disabled.saveAndRefresh ?_ saved ?_ _
      · refine ⟨h.file, h.config.append (absurd · hOther), ?_⟩
        dsimp only
        split
        · intro r hMem hId
          rcases List.mem_append.mp hMem with hOld | hAdded
          · exact h.engine r hOld hId
          · cases List.mem_singleton.mp hAdded
            exact absurd hId hOther
        · exact h.engine
      · exact h.file.append (absurd · hOther)

theorem Disabled.updateRule {id : String} {d : Daemon N} (h : Disabled id d) (py : PyStr)
    (ruleId : String) (data : AlertRulePayload N) (saved : Bool)
    (hRewrites : ¬ (ruleId = id ∧ data.enabled = true)) :
    Disabled id (d.updateRule py ruleId data saved).2 := by
  unfold Daemon.updateRule
  split_ifs with hUrl
  · exact h
  · exact h
  · have hTarget : data.id = ruleId := not_not.mp hUrl
    have hOff : data.id = id → data.enabled = false := fun hSame =>
      eq_false_of_ne_true fun hOn => hRewrites ⟨hTarget.symm.trans hSame, hOn⟩
    split
    · exact h
    · refine Disabled.saveAndRefresh ?_ saved ?_ _
      · exact ⟨h.file, h.config.replace hTarget hOff, h.engine⟩
      · exact h.file.replaceFirst hTarget fun hSame => congrArg some (hOff hSame)

theorem Disabled.deleteRule {id : String} {d : Daemon N} (h : Disabled id d) (py : PyStr)
    {ruleId : String} (saved : Bool) (hOther : ruleId ≠ id) :
    Disabled id (d.deleteRule py ruleId saved).2 := by
  unfold Daemon.deleteRule
  split
  · exact h
  · refine Disabled.saveAndRefresh ?_ saved ?_ _
    · exact ⟨h.file, h.config.filter hOther, h.engine⟩
    · exact h.file.filter hOther

/-- The rules after `set_local_rule`. -/
theorem ConfigOff.setRule {id : String} {rules : List (AlertRuleCfg N)} (h : ConfigOff id rules)
    (cfg : AlertRuleCfg N) (hOther : cfg.id ≠ id) :
    let replaced := rules.map fun r => if r.id = cfg.id then cfg else r
    ConfigOff id (if replaced.any fun r => r.id = cfg.id then replaced else replaced ++ [cfg]) := by
  have hReplaced : ConfigOff id (rules.map fun r => if r.id = cfg.id then cfg else r) :=
    h.replace rfl (absurd · hOther)
  dsimp only
  split
  · exact hReplaced
  · exact hReplaced.append (absurd · hOther)

/-- A command that names a rule forgets the flag if it is saved, and keeps it if not;
`d'` is the daemon with the rules that the command makes. -/
theorem Disabled.command {id rid : String} {d : Daemon N} (h : Disabled id d) (d' : Daemon N)
    (h' : Disabled id d') (saved : Bool) {keeps : Prop}
    (hKeeps : keeps ↔ (saved = true → rid = "")) :
    let after := (if rid = "" then ("failed", d) else d'.persistAndReload saved).2
    (keeps → Disabled id after) ∧
      (¬ keeps → ¬ ∀ r ∈ after.file.alerts, r.id = id → r.enabled = some false) := by
  rw [hKeeps]
  by_cases hRid : rid = ""
  · rw [if_pos hRid]
    exact ⟨fun _ => h, fun hForgets => absurd (fun _ => hRid) hForgets⟩
  · rw [if_neg hRid]
    cases saved with
    | false => exact ⟨fun _ => h', fun hForgets => absurd (nomatch ·) hForgets⟩
    | true =>
        refine ⟨fun hEmpty => absurd (hEmpty rfl) hRid, fun _ hFile => ?_⟩
        obtain ⟨r, hMem, hId⟩ := h'.config.1
        have hOff := hFile r.cloudRaw (List.mem_map.mpr ⟨r, hMem, rfl⟩) hId
        cases hOff

theorem Disabled.setLocalRule [PyNumber N] {id : String} {d : Daemon N} (h : Disabled id d)
    {p : LocalRulePayload N} (saved : Bool) (hOther : orText p.id "" ≠ id) :
    (KeepsFlags (.setLocalRule (some p) saved) →
        Disabled id (d.setLocalRule (some p) saved).2) ∧
      (¬ KeepsFlags (.setLocalRule (some p) saved) →
        ¬ ∀ r ∈ (d.setLocalRule (some p) saved).2.file.alerts, r.id = id →
          r.enabled = some false) := by
  refine h.command { d with alerts := _, shared := false }
    ⟨h.file, h.config.setRule (p.rule _) hOther, h.engine⟩ saved ?_
  cases saved <;> simp [KeepsFlags]

theorem Disabled.deleteLocalRule {id : String} {d : Daemon N} (h : Disabled id d)
    {rid : String} (saved : Bool) (hOther : rid ≠ id) :
    (KeepsFlags (.deleteLocalRule rid saved : RuleOp N) →
        Disabled id (d.deleteLocalRule rid saved).2) ∧
      (¬ KeepsFlags (.deleteLocalRule rid saved : RuleOp N) →
        ¬ ∀ r ∈ (d.deleteLocalRule rid saved).2.file.alerts, r.id = id →
          r.enabled = some false) := by
  refine h.command { d with alerts := _, shared := false }
    ⟨h.file, h.config.filter hOther, h.engine⟩ saved ?_
  cases saved <;> simp [KeepsFlags]

/-- A restart arms it. -/
theorem Disabled.restart [PyNumber N] {id : String} {d : Daemon N} (h : Disabled id d)
    (started : List String) (saved : Bool) :
    ¬ EngineOff id (d.restart started saved).engine.rules := by
  intro hOff
  obtain ⟨r, hMem, hId⟩ := h.file.1
  have hSeeded : (d.file.alerts.isEmpty && !d.file.alertsSeeded) = false := by
    cases hAlerts : d.file.alerts with
    | nil =>
        rw [hAlerts] at hMem
        cases hMem
    | cons first rest => rfl
  have hRule : r.convert.startRule ∈ (d.restart started saved).engine.rules := by
    simp only [Daemon.restart, loadConfig, hSeeded, Bool.false_eq_true, if_false]
    exact List.mem_map.mpr ⟨r.convert, List.mem_map.mpr ⟨r, hMem, rfl⟩, rfl⟩
  have hArmed := hOff _ hRule hId
  cases hArmed

/-- The operations that keep the flags are those after which the rule is still off. -/
theorem Disabled.step [PyNumber N] {id : String} {d : Daemon N} (h : Disabled id d) (py : PyStr)
    (zone : Zone) {op : RuleOp N} (hOp : ¬ Rewrites id op) :
    (KeepsFlags op → Disabled id (d.step py zone op)) ∧
      (¬ KeepsFlags op → ¬ StaysDisabled id (d.step py zone op)) := by
  cases op with
  | createRule data saved =>
      exact ⟨fun _ => h.createRule py data saved, fun hKeeps => absurd trivial hKeeps⟩
  | updateRule ruleId data saved =>
      exact ⟨fun _ => h.updateRule py ruleId data saved hOp, fun hKeeps => absurd trivial hKeeps⟩
  | deleteRule ruleId saved =>
      exact ⟨fun _ => h.deleteRule py saved hOp, fun hKeeps => absurd trivial hKeeps⟩
  | settings transportIds quietHours =>
      exact ⟨fun _ => ⟨h.file, h.config, h.engine⟩, fun hKeeps => absurd trivial hKeeps⟩
  | setLocalRule payload saved =>
      cases payload with
      | none => exact ⟨fun _ => h, fun hKeeps => absurd trivial hKeeps⟩
      | some p =>
          obtain ⟨hKept, hForgot⟩ := h.setLocalRule saved hOp
          exact ⟨hKept, fun hKeeps hStays => hForgot hKeeps hStays.file⟩
  | deleteLocalRule rid saved =>
      obtain ⟨hKept, hForgot⟩ := h.deleteLocalRule saved hOp
      exact ⟨hKept, fun hKeeps hStays => hForgot hKeeps hStays.file⟩
  | restart started saved =>
      exact ⟨(nomatch ·), fun _ hStays => h.restart started saved hStays.engine⟩
  | evaluate now snapshot =>
      refine ⟨fun _ => ⟨h.file, h.config, ?_⟩, fun hKeeps => absurd trivial hKeeps⟩
      intro r hMem hId
      rw [Daemon.step, (evaluate_rules zone d.engine now snapshot).1] at hMem
      exact h.engine r hMem hId

/-- A rule that is disabled everywhere stays off in `config.yaml` and in the engine,
through every run that does not touch it, exactly when the daemon is not restarted
and no command of the cloud is saved. -/
theorem stays_disabled_iff [PyNumber N] (py : PyStr) (zone : Zone) {id : String} {d : Daemon N}
    (hDisabled : Disabled id d) {ops : List (RuleOp N)} (hOps : ∀ op ∈ ops, ¬ Rewrites id op) :
    (∀ before after, ops = before ++ after →
        StaysDisabled id (run (Daemon.step py zone) d before)) ↔
      ∀ op ∈ ops, KeepsFlags op := by
  induction ops generalizing d with
  | nil =>
      constructor
      · intro _ op hMem
        cases hMem
      · intro _ before after hSplit
        obtain ⟨rfl, _⟩ := List.append_eq_nil_iff.mp hSplit.symm
        exact hDisabled.stays
  | cons op ops ih =>
      obtain ⟨hKept, hForgot⟩ := hDisabled.step py zone (hOps op List.mem_cons_self)
      have hRest : ∀ op' ∈ ops, ¬ Rewrites id op' := fun op' hMem =>
        hOps op' (List.mem_cons_of_mem _ hMem)
      constructor
      · intro hStays
        have hFirst : KeepsFlags op := by
          by_contra hKeeps
          exact hForgot hKeeps (hStays [op] ops rfl)
        have hLater := (ih (hKept hFirst) hRest).mp fun before after hSplit =>
          hStays (op :: before) after (by rw [hSplit, List.cons_append])
        exact List.forall_mem_cons.mpr ⟨hFirst, hLater⟩
      · intro hKeeps before after hSplit
        obtain ⟨hFirst, hLater⟩ := List.forall_mem_cons.mp hKeeps
        cases before with
        | nil => exact hDisabled.stays
        | cons first before =>
            obtain ⟨rfl, hSplit'⟩ := List.cons.inj hSplit
            exact (ih (hKept hFirst) hRest).mpr hLater before after hSplit'

/-! ### A small daemon -/

def plainStr : PyStr := ⟨fun s => s ≠ "", fun s => "'" ++ s ++ "'"⟩

/-- A battery below half. -/
def lowBattery : Snapshot ℚ := [⟨"bank", none, [("soc_pct", .num 40)]⟩]

def halfRule (enabled : Bool) : AlertRuleCfg ℚ :=
  { id := "half", name := "Half full", metric := "bank.soc_pct", op := "lt", threshold := 50
    transports := ["ntfy"], enabled := enabled }

def fullRule : AlertRuleCfg ℚ :=
  { id := "full", name := "Full", metric := "bank.soc_pct", op := "gte", threshold := 100
    transports := ["ntfy"] }

/-- The daemon with one rule, as it starts. -/
def startedDaemon : Daemon ℚ :=
  Daemon.restart ["ntfy"] true
    { file := ⟨[(halfRule true).raw], true⟩, alerts := [], transportIds := ["ntfy"]
      quietHours := none, engine := AlertEngine.init [] [] none, shared := false }

/-- And with that rule switched off. -/
def switchedOff : Daemon ℚ :=
  (startedDaemon.updateRule plainStr "half" (halfRule false) true).2

theorem stays_disabled_localEdits :
    StaysDisabled "half" (run (Daemon.step plainStr (Zone.fixed 0)) switchedOff
      [.createRule fullRule true, .evaluate 5000 lowBattery, .deleteRule "full" true]) := by
  refine (stays_disabled_iff plainStr (Zone.fixed 0) ?_ ?_).mpr ?_ _ [] (List.append_nil _).symm
  · exact ⟨by decide +kernel, by decide +kernel, by decide +kernel⟩
  · simp [Rewrites]
  · simp [KeepsFlags]

/-- It was switched off through the API; the daemon restarts, and the rule fires. -/
theorem restart_arms_rule :
    Disabled "half" switchedOff ∧
      ¬ ∀ before after, [RuleOp.restart ["ntfy"] true] = before ++ after →
        StaysDisabled "half" (run (Daemon.step plainStr (Zone.fixed 0)) switchedOff before) := by
  refine ⟨⟨by decide +kernel, by decide +kernel, by decide +kernel⟩, ?_⟩
  intro hStays
  have hAfter := hStays [.restart ["ntfy"] true] [] rfl
  have hFires : ∃ f ∈ (evaluate (Zone.fixed 0)
      (run (Daemon.step plainStr (Zone.fixed 0)) switchedOff [.restart ["ntfy"] true]).engine
      5000 lowBattery).fired, f.event.ruleId = "half" := by decide +kernel
  obtain ⟨f, hMem, hId⟩ := hFires
  exact hAfter.silent _ _ _ f hMem hId

end WattPost.Alerts
