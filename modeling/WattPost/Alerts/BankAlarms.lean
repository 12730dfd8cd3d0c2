import WattPost.Alerts.QuietHours
import WattPost.Alerts.RuleStore
import WattPost.Storage.BankLatest
import WattPost.Storage.BankPresence

/-! The seeded alarms of the bank: what the store makes of a poll, what the snapshot
shows of it, and which of the default rules the snapshot fires. -/
namespace WattPost.Alerts

open Keyed LocalTime PyDict Vendors Storage

/-- A stored value, as a path finds it. -/
def valueOf : PyVal → Value ℚ
  | .none => .none
  | .bool b => .num (if b then 1 else 0)
  | .num q => .num q
  | .text s => .text s
  | .list _ => .none

/-- The devices of `Scheduler.build_snapshot`: those of `list_devices`, each with what
`get_latest` has under its label. -/
def buildSnapshot (db : Db ℚ) : Snapshot ℚ :=
  db.deviceMeta.rows.map fun e =>
    { label := e.1
      kind := some e.2.kind
      latest := ((((getLatest db).get e.1).getD Dict.empty).map valueOf).entries }

/-! ### What the alarms are for -/

/-- A shunt or smart battery is there, and each reports a temperature above the limit. -/
def Hot (devices : Dict PollDict) (limit : ℚ) : Prop :=
  (∃ e ∈ devices.entries, isBankKind (Storage.kind e.2) = true) ∧
    ∀ e ∈ devices.entries, isBankKind (Storage.kind e.2) = true →
      ∃ q, numOf (e.2.get "temperature_c") = some q ∧ limit < q

/-- The bank of the poll has a SoC below the limit. -/
def SocBelow (db : Db ℚ) (p : Poll) (limit : ℚ) : Prop :=
  ∃ bank soc, bankOf p.settings db p.result.devices p.ts = some (some bank) ∧
    bank.view.socPct = some soc ∧ soc < limit

/-- The seeded rules are active, and no cooldown holds them back. The user may have
given them other transports, another severity or another cooldown. -/
def SeedsActive (engine : AlertEngine ℚ) (now : Int) : Prop :=
  ∀ seed ∈ (defaultAlertRules : List (RawRule ℚ)),
    seed.id ∈ engine.rules.map AlertRule.id ∧
      ∀ rule ∈ engine.rules, rule.id = seed.id →
        rule.enabled = true ∧ rule.metric = seed.metric ∧ rule.op = seed.op ∧
          rule.threshold = seed.threshold ∧
          rule.cooldownSeconds ≤ now - (engine.lastFired.get seed.id).getD 0

/-- A rule of this id fired. -/
def Pass.Fires {N : Type} (pass : Pass N) (id : String) : Prop :=
  ∃ firing ∈ pass.fired, firing.event.ruleId = id

/-- A hot bank and an empty one raise their alarms when the snapshot after the poll is
evaluated. -/
structure RaisesAlarms (zone : Zone) (engine : AlertEngine ℚ) (now : Int) (db : Db ℚ) (p : Poll) :
    Prop where
  criticalTemp : Hot p.result.devices 55 →
    (evaluate zone engine now (buildSnapshot (db.recordPoll p))).Fires "critical-temp"
  highTemp : Hot p.result.devices 45 →
    (evaluate zone engine now (buildSnapshot (db.recordPoll p))).Fires "high-temp"
  criticalSoc : SocBelow db p 15 →
    (evaluate zone engine now (buildSnapshot (db.recordPoll p))).Fires "critical-soc"
  lowSoc : SocBelow db p 30 →
    (evaluate zone engine now (buildSnapshot (db.recordPoll p))).Fires "low-soc"

/-! ### Which rules fire -/

section Fires

variable {N : Type} [PyNumber N]

/-- What a rule asks is so. -/
def Holds (ctx : Value N) (metric op : String) (threshold : N) : Prop :=
  ∃ compare val, ops op = some compare ∧ resolve metric ctx = .num val ∧
    compare val threshold = true

/-- A rule fires when it is enabled, holds and is past its cooldown. -/
theorem exists_fires_iff {engine : AlertEngine N} {now : Int} {ctx : Value N}
    {rule : AlertRule N} :
    (∃ event, engine.fires now ctx rule = some event) ↔
      rule.enabled = true ∧ Holds ctx rule.metric rule.op rule.threshold ∧
        rule.cooldownSeconds ≤ now - (engine.lastFired.get rule.id).getD 0 := by
  unfold AlertEngine.fires Holds
  cases rule.enabled with
  | false => simp
  | true =>
      rw [if_neg (by simp)]
      cases hOp : ops (N := N) rule.op with
      | none => simp
      | some compare =>
          cases hVal : resolve rule.metric ctx with
          | num val =>
              dsimp only
              split_ifs with hFalse hCooldown
              · simp [hFalse]
              · simp [not_le.mpr hCooldown]
              · simp [Bool.not_eq_false _ ▸ hFalse, not_lt.mp hCooldown]
          | none => simp
          | text s => simp
          | dict entries => simp

/-- What the rules have fired so far: each firing holds, and where none had the id, its
cooldown stands where it stood. -/
structure FiredSoFar (ctx : Value N) (rules : List (AlertRule N)) (start pass : Pass N) :
    Prop where
  holds : ∀ f ∈ pass.fired, ∃ rule ∈ rules, rule.id = f.event.ruleId ∧
    Holds ctx rule.metric rule.op rule.threshold
  waits : ∀ id, ¬ pass.Fires id → pass.engine.lastFired.get id = start.engine.lastFired.get id

theorem FiredSoFar.evaluateRule {ctx : Value N} {rules : List (AlertRule N)} {start pass : Pass N}
    (h : FiredSoFar ctx rules start pass) (now : Int) (inQuiet : Bool) {rule : AlertRule N}
    (hRule : rule ∈ rules) :
    FiredSoFar ctx rules start (evaluateRule now inQuiet ctx pass rule) := by
  rcases evaluateRule_cases now inQuiet ctx pass rule with hSame | ⟨event, hFires, hPass⟩
  · rw [hSame]
    exact h
  · obtain ⟨_, hId, _, hTs, _⟩ := AlertEngine.fires_some hFires
    obtain ⟨_, hHolds, _⟩ := exists_fires_iff.mp ⟨event, hFires⟩
    rw [hPass]
    constructor
    case holds =>
      intro f hf
      rcases List.mem_append.mp hf with hOld | hNew
      · exact h.holds f hOld
      · cases List.mem_singleton.mp hNew
        exact ⟨rule, hRule, hId.symm, hHolds⟩
    case waits =>
      intro id hNone
      have hOther : id ≠ event.ruleId := by
        rintro rfl
        exact hNone ⟨⟨event, rule⟩, by simp, rfl⟩
      have hBefore : ¬ pass.Fires id := by
        rintro ⟨f, hf, hEq⟩
        exact hNone ⟨f, List.mem_append_left _ hf, hEq⟩
      rw [← h.waits id hBefore]
      simp [AlertEngine.record, hOther]

theorem Pass.Fires.evaluateRule {pass : Pass N} {id : String} (h : pass.Fires id) (now : Int)
    (inQuiet : Bool) (ctx : Value N) (rule : AlertRule N) :
    (evaluateRule now inQuiet ctx pass rule).Fires id := by
  obtain ⟨f, hf, hId⟩ := h
  rcases evaluateRule_cases now inQuiet ctx pass rule with hSame | ⟨event, _, hPass⟩
  · exact ⟨f, hSame.symm ▸ hf, hId⟩
  · exact ⟨f, by rw [hPass]; exact List.mem_append_left _ hf, hId⟩

theorem fires_evaluateRule {now : Int} {ctx : Value N} {pass : Pass N} {rule : AlertRule N}
    {event : AlertEvent N} (h : pass.engine.fires now ctx rule = some event) (inQuiet : Bool) :
    (evaluateRule now inQuiet ctx pass rule).Fires rule.id := by
  obtain ⟨_, hId, _⟩ := AlertEngine.fires_some h
  refine ⟨⟨event, rule⟩, ?_, hId⟩
  unfold evaluateRule
  rw [h]
  dsimp only
  split <;> simp

/-- Over the rules of a pass: a rule that holds and is past its cooldown has an event of
its id when the loop is through. -/
theorem FiredSoFar.foldl {ctx : Value N} {all : List (AlertRule N)} {start pass : Pass N}
    (h : FiredSoFar ctx all start pass) (now : Int) (inQuiet : Bool) {rules : List (AlertRule N)}
    (hRules : ∀ rule ∈ rules, rule ∈ all) :
    let after := rules.foldl (Alerts.evaluateRule now inQuiet ctx) pass
    FiredSoFar ctx all start after ∧ (∀ id, pass.Fires id → after.Fires id) ∧
      ∀ rule ∈ rules, rule.enabled = true → Holds ctx rule.metric rule.op rule.threshold →
        rule.cooldownSeconds ≤ now - (start.engine.lastFired.get rule.id).getD 0 →
        after.Fires rule.id := by
  induction rules generalizing pass with
  | nil => exact ⟨h, fun _ hFired => hFired, fun _ hMem => absurd hMem List.not_mem_nil⟩
  | cons rule rules ih =>
      obtain ⟨hRule, hRest⟩ := List.forall_mem_cons.mp hRules
      obtain ⟨hAfter, hKept, hFired⟩ := ih (h.evaluateRule now inQuiet hRule) hRest
      refine ⟨hAfter, fun id hId => hKept id (hId.evaluateRule now inQuiet ctx rule), ?_⟩
      intro r hr hEnabled hHolds hCooldown
      rcases List.mem_cons.mp hr with rfl | hr
      · apply hKept
        by_cases hAlready : pass.Fires r.id
        · exact hAlready.evaluateRule now inQuiet ctx r
        · -- the cooldown still stands where the pass found it, so the rule fires here
          rw [← h.waits r.id hAlready] at hCooldown
          obtain ⟨event, hFires⟩ := exists_fires_iff.mpr ⟨hEnabled, hHolds, hCooldown⟩
          exact fires_evaluateRule hFires inQuiet
      · exact hFired r hr hEnabled hHolds hCooldown

end Fires

/-- An active seed fires just when what it asks is so. -/
theorem fires_seed_iff (zone : Zone) {engine : AlertEngine ℚ} {now : Int} (snapshot : Snapshot ℚ)
    (hActive : SeedsActive engine now) {seed : RawRule ℚ}
    (hSeed : seed ∈ (defaultAlertRules : List (RawRule ℚ))) :
    (evaluate zone engine now snapshot).Fires seed.id ↔
      Holds (buildAlertContext snapshot) seed.metric seed.op seed.threshold := by
  obtain ⟨hPresent, hSame⟩ := hActive seed hSeed
  let start := beginPass engine (engine.isQuietNow zone now)
  have hStart : start.fired = [] ∧ start.engine.lastFired = engine.lastFired := by
    unfold start beginPass
    split <;> exact ⟨rfl, rfl⟩
  have hNothing : FiredSoFar (buildAlertContext snapshot) engine.rules start start :=
    ⟨by simp [hStart.1], fun _ _ => rfl⟩
  obtain ⟨hAfter, _, hFired⟩ := hNothing.foldl now (engine.isQuietNow zone now)
    fun _ hRule => hRule
  constructor
  · rintro ⟨f, hf, hId⟩
    obtain ⟨rule, hRule, hRuleId, hHolds⟩ := hAfter.holds f hf
    obtain ⟨_, hMetric, hOp, hThreshold, _⟩ := hSame rule hRule (hRuleId.trans hId)
    rw [← hMetric, ← hOp, ← hThreshold]
    exact hHolds
  · intro hHolds
    obtain ⟨rule, hRule, hId⟩ := List.mem_map.mp hPresent
    obtain ⟨hEnabled, hMetric, hOp, hThreshold, hCooldown⟩ := hSame rule hRule hId
    rw [← hMetric, ← hOp, ← hThreshold] at hHolds
    rw [← hId, ← hStart.2] at hCooldown
    rw [← hId]
    exact hFired rule hRule hEnabled hHolds hCooldown

/-! ### What the snapshot says of the bank -/

/-- Of devices that agree on a label, the context has what they say. -/
theorem lookup_byLabel {label : String} {latest : List (String × Value ℚ)}
    {devices : Snapshot ℚ} (hSame : ∀ d ∈ devices, d.label = label → d.latest = latest)
    (entries : List (String × Value ℚ)) :
    (devices.foldl (fun entries d => setEntry d.label (Value.dict d.latest) entries)
        entries).lookup label =
      if label ∈ devices.map Device.label then some (.dict latest) else entries.lookup label := by
  induction devices generalizing entries with
  | nil => rfl
  | cons d devices ih =>
      obtain ⟨hHead, hRest⟩ := List.forall_mem_cons.mp hSame
      rw [List.foldl_cons, ih hRest, lookup_setEntry]
      by_cases hLabel : label = d.label
      · simp [hLabel, hHead hLabel.symm]
      · simp [hLabel]

/-- The context has no temperature of the bank, whatever the snapshot says. -/
theorem resolve_temperature (snapshot : Snapshot ℚ) :
    resolve "bank.temperature_c" (buildAlertContext snapshot) = .none := by
  have hSplit : PyText.split "bank.temperature_c" '.' = ["bank", "temperature_c"] := by decide
  rw [resolve, hSplit]
  rfl

/-- The SoC of the bank in the context of a snapshot is the one that `get_latest` shows,
if the bank is a device of the store. -/
theorem resolve_soc {db : Db ℚ} {row : DeviceMeta}
    (hBank : db.deviceMeta.lookup "bank" = some row) :
    resolve "bank.soc_pct" (buildAlertContext (buildSnapshot db)) =
      ((shown (getLatest db) "bank" "soc_pct").map valueOf).getD .none := by
  have hSplit : PyText.split "bank.soc_pct" '.' = ["bank", "soc_pct"] := by decide
  have hLabel : "bank" ∈ (buildSnapshot db).map Device.label := by
    rw [buildSnapshot, List.map_map]
    exact List.mem_map_of_mem (f := Prod.fst) (Table.lookup_eq_some_iff.mp hBank)
  have hSame : ∀ d ∈ buildSnapshot db, d.label = "bank" →
      d.latest = ((((getLatest db).get "bank").getD Dict.empty).map valueOf).entries := by
    intro d hd hd'
    obtain ⟨e, _, rfl⟩ := List.mem_map.mp hd
    rw [← hd']
  have hLookup := lookup_byLabel hSame []
  rw [if_pos hLabel] at hLookup
  have hEntry : Value.entry ((buildSnapshot db).foldl
      (fun entries d => setEntry d.label (Value.dict d.latest) entries) []) "bank" =
        .dict ((((getLatest db).get "bank").getD Dict.empty).map valueOf).entries := by
    rw [Value.entry, hLookup, Option.getD_some]
  rw [resolve, hSplit, buildAlertContext, hEntry]
  change Value.entry
    ((((getLatest db).get "bank").getD Dict.empty).map valueOf).entries "soc_pct" = _
  have hGet := Dict.get_map valueOf (((getLatest db).get "bank").getD Dict.empty) "soc_pct"
  rw [Dict.get] at hGet
  rw [Value.entry, hGet, shown]
  cases (getLatest db).get "bank" <;> rfl

/-- A poll with an aggregate leaves the bank among the devices. -/
theorem lookup_bank_recordPoll {db : Db ℚ} {p : Poll} {rows : PollRows ℚ}
    (hRows : pollRows p.settings db p.result p.ts = some rows) {bank : BankAggregate}
    (hBank : bankOf p.settings db p.result.devices p.ts = some (some bank)) :
    ∃ row, (db.recordPoll p).deviceMeta.lookup "bank" = some row := by
  have hMeta : ("bank", "internal", "bank", none) ∈ rows.deviceMeta := by
    simp only [pollRows, Option.bind_eq_bind, Option.bind_eq_some_iff] at hRows
    obtain ⟨derived, _, bank', hBank', hEq⟩ := hRows
    rw [hBank] at hBank'
    cases hBank'
    cases hEq
    simp
  have hLookup := lookup_touchDevices rows.ts db.deviceMeta rows.deviceMeta "bank"
  cases hFind : rows.deviceMeta.find? fun row => row.1 = "bank" with
  | none => exact absurd (decide_eq_true rfl) (List.find?_eq_none.mp hFind _ hMeta)
  | some row =>
      rw [hFind] at hLookup
      rw [Db.recordPoll, hRows]
      exact ⟨_, hLookup⟩

/-- No device of the poll that is called "bank" has a text for its SoC. -/
def NoSocText (devices : Dict PollDict) : Prop :=
  ∀ d, devices.get "bank" = some d → strOf (d.get "soc_pct") = none

theorem noSocText_iff {devices : Dict PollDict} :
    NoSocText devices ↔ lastReading "bank" "soc_pct" (deviceStr devices) = none := by
  have hKey : "soc_pct" ∉ metaKeys := by decide
  constructor
  · intro h
    refine lastReading_eq_none.mpr fun s hMem => ?_
    rw [deviceStr, List.mem_flatMap] at hMem
    obtain ⟨e, he, hRow⟩ := hMem
    obtain ⟨hLabel, _, hText⟩ := mem_strReadings.mp hRow
    have hGet := Dict.mem_iff_get.mp (List.mem_of_mem_filter he)
    rw [← hLabel] at hGet
    rw [h e.2 hGet] at hText
    cases hText
  · intro h d hd
    by_cases hEntries : d.entries = []
    · rw [Dict.get, hEntries]
      rfl
    · rw [← lastReading_deviceStr hd hEntries hKey]
      exact h

/-- After a poll with a SoC of the bank, the path leads to it, unless a text hides it. -/
theorem resolve_soc_recordPoll {db : Db ℚ} {p : Poll} {bank : BankAggregate} {soc : ℚ}
    (hBank : bankOf p.settings db p.result.devices p.ts = some (some bank))
    (hSoc : bank.view.socPct = some soc) :
    (NoSocText p.result.devices ∧
      resolve "bank.soc_pct" (buildAlertContext (buildSnapshot (db.recordPoll p))) = .num soc) ∨
    (¬ NoSocText p.result.devices ∧ ∃ s,
      resolve "bank.soc_pct" (buildAlertContext (buildSnapshot (db.recordPoll p))) = .text s) := by
  obtain ⟨rows, hRows⟩ := exists_rows_of_bank hBank
  obtain ⟨num, _, hReading⟩ := reading_bank hRows hBank
  obtain ⟨row, hRow⟩ := lookup_bank_recordPoll hRows hBank
  have hKey : "soc_pct" ∉ latestMetaKeys := by decide
  have hStr : bank.strFields.lookup "soc_pct" = none := by
    rw [BankAggregate.strFields]
    cases bank.disagreement <;> simp [lookup_cons_ite]
  have hNum : bank.numFields.lookup "soc_pct" = some soc :=
    (lookup_soc_numFields bank).trans hSoc
  rw [resolve_soc hRow, shown_getLatest hKey, Db.recordPoll, hRows, Option.elim_some,
    reading_recordPoll, hReading, hStr, hNum, Option.none_or, Option.some_or, noSocText_iff]
  cases lastReading "bank" "soc_pct" (deviceStr p.result.devices) with
  | none => exact Or.inl ⟨rfl, rfl⟩
  | some s => exact Or.inr ⟨by simp, s, rfl⟩

/-! ### The seeded rules -/

section Seeds

variable {zone : Zone} {engine : AlertEngine ℚ} {now : Int}

/-- No temperature fires a rule of the bank's temperature. -/
theorem not_fires_temperature (hActive : SeedsActive engine now) (snapshot : Snapshot ℚ)
    {seed : RawRule ℚ} (hSeed : seed ∈ (defaultAlertRules : List (RawRule ℚ)))
    (hMetric : seed.metric = "bank.temperature_c") :
    ¬ (evaluate zone engine now snapshot).Fires seed.id := by
  rw [fires_seed_iff zone snapshot hActive hSeed, hMetric]
  rintro ⟨compare, val, _, hVal, _⟩
  rw [resolve_temperature] at hVal
  cases hVal

/-- A SoC below the threshold fires its rule, unless a text hides it. -/
theorem fires_soc_iff (hActive : SeedsActive engine now) {db : Db ℚ} {p : Poll}
    {seed : RawRule ℚ} (hSeed : seed ∈ (defaultAlertRules : List (RawRule ℚ)))
    (hMetric : seed.metric = "bank.soc_pct") (hOp : seed.op = "lt")
    (hSoc : SocBelow db p seed.threshold) :
    (evaluate zone engine now (buildSnapshot (db.recordPoll p))).Fires seed.id ↔
      NoSocText p.result.devices := by
  obtain ⟨bank, soc, hBank, hView, hBelow⟩ := hSoc
  rw [fires_seed_iff zone _ hActive hSeed, hMetric, hOp]
  rcases resolve_soc_recordPoll hBank hView with ⟨hNone, hNum⟩ | ⟨hText, s, hStr⟩
  · refine iff_of_true ⟨fun a b => PyNumber.lt a b, soc, rfl, hNum, ?_⟩ hNone
    exact decide_eq_true hBelow
  · refine iff_of_false ?_ hText
    rintro ⟨compare, val, _, hVal, _⟩
    rw [hStr] at hVal
    cases hVal

end Seeds

theorem Hot.mono {devices : Dict PollDict} {low high : ℚ} (hLe : low ≤ high)
    (h : Hot devices high) : Hot devices low := by
  refine ⟨h.1, fun e he hKind => ?_⟩
  obtain ⟨q, hq, hHigh⟩ := h.2 e he hKind
  exact ⟨q, hq, hLe.trans_lt hHigh⟩

theorem SocBelow.mono {db : Db ℚ} {p : Poll} {low high : ℚ} (hLe : low ≤ high)
    (h : SocBelow db p low) : SocBelow db p high := by
  obtain ⟨bank, soc, hBank, hView, hBelow⟩ := h
  exact ⟨bank, soc, hBank, hView, hBelow.trans_le hLe⟩

/-- The temperature alarms never fire, since the aggregate and the context know no
temperature; so the alarms are raised just when none of them is called for, and no text
hides a low SoC. -/
theorem raises_alarms_iff (zone : Zone) (engine : AlertEngine ℚ) (now : Int) (db : Db ℚ)
    (p : Poll) (hActive : SeedsActive engine now) :
    RaisesAlarms zone engine now db p ↔
      ¬ Hot p.result.devices 45 ∧ (SocBelow db p 30 → NoSocText p.result.devices) := by
  have hMem : ∀ i (h : i < (defaultAlertRules : List (RawRule ℚ)).length),
      (defaultAlertRules : List (RawRule ℚ))[i] ∈ defaultAlertRules := fun _ h =>
    List.getElem_mem h
  let pass := evaluate zone engine now (buildSnapshot (db.recordPoll p))
  have hLow : SocBelow db p 30 → (pass.Fires "low-soc" ↔ NoSocText p.result.devices) := fun h =>
    fires_soc_iff hActive (hMem 0 (by decide)) rfl rfl h
  have hCritical : SocBelow db p 15 → (pass.Fires "critical-soc" ↔ NoSocText p.result.devices) :=
    fun h => fires_soc_iff hActive (hMem 1 (by decide)) rfl rfl h
  have hTemp : ¬ pass.Fires "high-temp" :=
    not_fires_temperature hActive _ (hMem 2 (by decide)) rfl
  constructor
  · intro h
    exact ⟨fun hHot => hTemp (h.highTemp hHot), fun hSoc => (hLow hSoc).mp (h.lowSoc hSoc)⟩
  · rintro ⟨hCool, hShown⟩
    constructor
    case criticalTemp => exact fun hHot => absurd (hHot.mono (by decide)) hCool
    case highTemp => exact fun hHot => absurd hHot hCool
    case criticalSoc => exact fun hSoc => (hCritical hSoc).mpr (hShown (hSoc.mono (by decide)))
    case lowSoc => exact fun hSoc => (hLow hSoc).mpr (hShown hSoc)

/-! ### A van with one shunt -/

/-- The engine of a first start. -/
def seededEngine : AlertEngine ℚ :=
  AlertEngine.init (((defaultAlertRules : List (RawRule ℚ)).map RawRule.convert).map
    AlertRuleCfg.startRule) [] none

/-- A poll of one shunt with a temperature and a SoC. -/
def shuntPoll (temperatureC socPct : ℚ) : Poll where
  settings := .default
  result :=
    { devices := Dict.ofList [("shunt", Dict.ofList [("_vendor", .text "renogy"),
        ("_kind", .text "shunt"), ("voltage_v", .num 13), ("current_a", .num (-5)),
        ("temperature_c", .num temperatureC), ("soc_pct", .num socPct),
        ("bank_capacity_ah", .num 200)])]
      elapsedSeconds := 0
      errorsCount := 0
      errorsRepr := none }
  ts := 60

theorem seedsActive_seededEngine : SeedsActive seededEngine 5000 := by
  unfold SeedsActive
  decide +kernel

/-- A cool bank at ten percent raises both of its alarms. -/
theorem raises_alarms_low :
    SocBelow Db.empty (shuntPoll 20 10) 15 ∧
      RaisesAlarms (Zone.fixed 0) seededEngine 5000 Db.empty (shuntPoll 20 10) := by
  have hCool : ¬ Hot (shuntPoll 20 10).result.devices 45 := by
    rintro ⟨_, hAll⟩
    obtain ⟨q, hq, hHot⟩ := hAll _ List.mem_cons_self (by decide +kernel)
    obtain rfl : 20 = q := Option.some.inj hq
    exact absurd hHot (by decide)
  refine ⟨⟨⟨⟨13, -5, -65, some 10, some 20, some 200, none⟩, 0, .shunt, none, ⟨none, none⟩, none⟩,
    10, by decide +kernel, rfl, by decide⟩, ?_⟩
  refine (raises_alarms_iff _ _ _ _ _ seedsActive_seededEngine).mpr ⟨hCool, fun _ d hd => ?_⟩
  cases hd

/-- The only shunt reports 60 °C, and no alarm fires. -/
theorem hot_bank_raises_no_alarm :
    ¬ ∀ (zone : Zone) (engine : AlertEngine ℚ) (now : Int) (db : Db ℚ) (p : Poll),
      SeedsActive engine now → RaisesAlarms zone engine now db p := by
  intro h
  have hRaised := h (Zone.fixed 0) seededEngine 5000 Db.empty (shuntPoll 60 80)
    seedsActive_seededEngine
  have hHot : Hot (shuntPoll 60 80).result.devices 55 := by
    refine ⟨⟨_, List.mem_cons_self, by decide +kernel⟩, fun e he _ => ?_⟩
    obtain rfl := List.mem_singleton.mp he
    exact ⟨60, rfl, by decide⟩
  have hSilent : ∀ f ∈ (evaluate (Zone.fixed 0) seededEngine 5000
      (buildSnapshot (Db.empty.recordPoll (shuntPoll 60 80)))).fired,
      f.event.ruleId ≠ "critical-temp" := by
    decide +kernel
  obtain ⟨f, hf, hId⟩ := hRaised.criticalTemp hHot
  exact hSilent f hf hId

end WattPost.Alerts
