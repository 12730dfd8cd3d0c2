import WattPost.Storage.RecordPoll
import WattPost.Vendors.Victron

/-! Whole runs of the store, and what a device without a measurement does to the
bank in them. -/
namespace WattPost.Storage

open Keyed PyDict Vendors Runs

/-- The store and its policy. When a device last delivered a measurement is
bookkeeping; the code has `last_seen` for it. -/
structure BankStore where
  db : Db ℚ
  settings : BankSettings
  measured : String → Option Nat

def BankStore.initial (settings : BankSettings) : BankStore := ⟨Db.empty, settings, fun _ => none⟩

/-- `Store.purge_device`. -/
def RollupTable.purgeDevice {w : Nat} {V : Type} (t : RollupTable w V) (label : String) :
    RollupTable w V where
  table := t.table.filterKeys fun k => k.device ≠ label
  aligned k h := t.aligned k (Table.has_filterKeys.mp h).1

def purgeDevice (label : String) (db : Db ℚ) : Db ℚ :=
  { db with
    samples := db.samples.filterKeys fun k => k.device ≠ label
    samplesStr := db.samplesStr.filterKeys fun k => k.device ≠ label
    samples1min := db.samples1min.purgeDevice label
    samples1hour := db.samples1hour.purgeDevice label
    samples1day := db.samples1day.purgeDevice label
    latest := db.latest.filterKeys fun k => (ofLex k).1 ≠ label
    deviceMeta := db.deviceMeta.filterKeys fun k => k ≠ label }

/-- What happens to the store: a poll is recorded, a device is purged, the
maintenance pass runs, or the user changes the bank policy. -/
inductive BankOp where
  | recordPoll (result : PollResult) (ts : Nat)
  | purgeDevice (label : String)
  | rollupAndPurge (ret : Retention) (now : Int)
  | setBankPolicy (settings : BankSettings)

/-- The devices of a poll that delivered something, with the time of the poll. -/
def markMeasured (measured : String → Option Nat) (devices : Dict PollDict) (ts : Nat)
    (label : String) : Option Nat :=
  match devices.get label with
  | some d => if NoMeasurement d then measured label else some ts
  | none => measured label

def bankStep (s : BankStore) : BankOp → BankStore
  | .recordPoll result ts =>
      match pollRows s.settings s.db result ts with
      | none => s
      | some rows =>
          { s with
            db := recordPoll rows s.db
            measured := markMeasured s.measured result.devices ts }
  | .purgeDevice label =>
      { s with
        db := purgeDevice label s.db
        measured := fun l => if l = label then none else s.measured l }
  | .rollupAndPurge ret now => { s with db := rollupAndPurge ret now s.db }
  | .setBankPolicy settings => { s with settings := settings }

/-- A device without a measurement does not move the bank: the poll gives the
bank it gives without such devices, and a shunt or smart battery that delivered
nothing counts with its snapshot for 300 s after its last measurement. -/
structure BankIgnoresEmpty (s : BankStore) (result : PollResult) (ts : Nat) : Prop where
  same : ∀ empties : List String,
    (∀ label ∈ empties, ∀ d, result.devices.get label = some d → NoMeasurement d) →
    bankOf s.settings s.db (result.devices.filter fun l => !(empties.contains l)) ts =
      bankOf s.settings s.db result.devices ts
  represented : ∀ label row, s.db.deviceMeta.lookup label = some row →
    isBankKind row.kind = true → (∀ d, result.devices.get label = some d → NoMeasurement d) →
    ∀ d, (label, d) ∈ augmentForBank s.db result.devices ts ↔
      d = snapshot s.db label row ∧
        ∃ t, s.measured label = some t ∧ (ts : Int) - t ≤ bankAggregateStaleS

/-- No shunt or smart battery of the poll is without a measurement, neither by
its own kind nor by the kind its label has in `device_meta`; and no device has
the label of the store's own pseudo-device. -/
def MonitorsMeasured (_before : List BankOp) (s : BankStore) : BankOp → Prop
  | .recordPoll result _ =>
      (∀ e ∈ result.devices.entries, NoMeasurement e.2 → isBankKind (kind e.2) = false ∧
        ∀ row, s.db.deviceMeta.lookup e.1 = some row → isBankKind row.kind = false) ∧
      "bank" ∉ result.devices.keys
  | _ => True

/-! ### One poll -/

section Poll

/-- Leaving out what a selection does not take leaves the selection alone. -/
theorem filter_filter_of_imp {α : Type} {xs : List α} {keep q : α → Bool}
    (h : ∀ x ∈ xs, q x = true → keep x = true) : (xs.filter keep).filter q = xs.filter q := by
  rw [List.filter_filter]
  apply List.filter_congr
  intro x hx
  by_cases hq : q x = true
  · simp [hq, h x hx hq]
  · simp [hq]

/-- The aggregate only looks at the shunts, batteries, inverters and controllers. -/
theorem selectBank_eq {xs ys : List PollDict}
    (h : ∀ q ∈ [isShunt, isBattery, isInverter, isController], xs.filter q = ys.filter q) :
    selectBank xs = selectBank ys := by
  have hFind : ∀ q ∈ [isShunt, isBattery, isInverter, isController], xs.find? q = ys.find? q := by
    intro q hq
    rw [← List.head?_filter, ← List.head?_filter, h q hq]
  unfold selectBank
  rw [hFind isShunt (by simp), hFind isInverter (by simp), hFind isController (by simp),
    h isBattery (by simp)]

/-- A device that delivered nothing only takes part as a shunt or a battery. -/
theorem not_selected_of_noMeasurement {d : PollDict} (h : NoMeasurement d)
    (hKind : isBankKind (kind d) = false) :
    ∀ q ∈ [isShunt, isBattery, isInverter, isController], q d = false := by
  have hVoltage : d.get "battery_voltage_v" = none := h.get (by decide) (by decide)
  simp only [isBankKind, Bool.or_eq_false_iff, decide_eq_false_iff_not] at hKind
  simp [isShunt, isBattery, isInverter, isController, hVoltage, PyVal.isSome, hKind.1, hKind.2]

variable {db : Db ℚ} {devices : Dict PollDict} {now : Nat}

/-- Leaving devices out of the poll brings in no snapshot when their labels are
not those of shunts or batteries. -/
theorem fillsIn_filter {empties : List String}
    (hMeta : ∀ label ∈ empties, label ∈ devices.keys → ∀ row, db.deviceMeta.lookup label = some row →
      isBankKind row.kind = false) {e : String × DeviceMeta} (he : e ∈ db.deviceMeta.rows) :
    fillsIn (devices.filter fun l => !(empties.contains l)).keys now e =
      fillsIn devices.keys now e := by
  by_cases hKind : isBankKind e.2.kind = true
  · have hLabel : (devices.filter fun l => !(empties.contains l)).keys.contains e.1 =
        devices.keys.contains e.1 := by
      rw [Bool.eq_iff_iff, List.contains_iff_mem, List.contains_iff_mem, Dict.mem_keys_filter]
      constructor
      · exact fun h => h.1
      · intro h
        refine ⟨h, ?_⟩
        rw [Bool.not_eq_true', ← Bool.not_eq_true, List.contains_iff_mem]
        intro hEmpty
        have hRow : db.deviceMeta.lookup e.1 = some e.2 := Table.lookup_eq_some_iff.mpr he
        rw [hMeta e.1 hEmpty h e.2 hRow] at hKind
        cases hKind
    unfold fillsIn
    rw [hLabel]
  · have hFalse : isBankKind e.2.kind = false := Bool.not_eq_true _ ▸ hKind
    simp [fillsIn, hFalse]

/-- The bank is the same without devices that delivered nothing and are not, by
kind or by label, shunts or batteries. -/
theorem bankOf_filter (settings : BankSettings) {empties : List String}
    (hEmpty : ∀ label ∈ empties, ∀ d, devices.get label = some d → NoMeasurement d ∧
      isBankKind (kind d) = false ∧
      ∀ row, db.deviceMeta.lookup label = some row → isBankKind row.kind = false) :
    bankOf settings db (devices.filter fun l => !(empties.contains l)) now =
      bankOf settings db devices now := by
  have hMeta : ∀ label ∈ empties, label ∈ devices.keys → ∀ row,
      db.deviceMeta.lookup label = some row → isBankKind row.kind = false := by
    intro label hLabel hKey
    obtain ⟨e, he, rfl⟩ := List.mem_map.mp hKey
    exact (hEmpty e.1 hLabel e.2 (Dict.mem_iff_get.mp he)).2.2
  have hCached : db.deviceMeta.rows.filter
      (fillsIn (devices.filter fun l => !(empties.contains l)).keys now) =
      db.deviceMeta.rows.filter (fillsIn devices.keys now) :=
    List.filter_congr fun e he => fillsIn_filter hMeta he
  unfold bankOf computeBankAggregate augmentForBank
  rw [hCached]
  congr 1
  apply selectBank_eq
  intro q hq
  rw [List.filter_map, List.filter_map, List.filter_append, List.filter_append]
  congr 2
  apply filter_filter_of_imp
  intro e he hSelected
  rw [Bool.not_eq_true', ← Bool.not_eq_true, List.contains_iff_mem]
  intro hMem
  obtain ⟨hNone, hKind, _⟩ := hEmpty e.1 hMem e.2 (Dict.mem_iff_get.mp he)
  have hNot := not_selected_of_noMeasurement hNone hKind q hq
  rw [Function.comp_apply, hNot] at hSelected
  cases hSelected

end Poll

/-! ### Runs -/

section Runs

/-- What a list of rows does to one row of `device_meta`: the first row of its
label may create it, and then it is only touched. -/
theorem lookup_touchDevices (ts : Nat) (t : Table String DeviceMeta)
    (rows : List (String × String × String × Option Int)) (label : String) :
    (rows.foldl (touchDevice ts) t).lookup label =
      match rows.find? (fun row => row.1 = label) with
      | none => t.lookup label
      | some row =>
          some ((t.lookup label).elim ⟨row.2.1, row.2.2.1, row.2.2.2, ts, ts⟩
            fun old => { old with lastSeen := ts }) := by
  induction rows generalizing t with
  | nil => rfl
  | cons first rows ih =>
      have hTouch : (touchDevice ts t first).lookup label =
          if label = first.1 then
            some ((t.lookup label).elim ⟨first.2.1, first.2.2.1, first.2.2.2, ts, ts⟩
              fun old => { old with lastSeen := ts })
          else t.lookup label := by
        unfold touchDevice
        split
        case h_1 old hOld =>
          rw [Table.lookup_insert]
          split
          case isTrue hEq => rw [hEq, hOld]; rfl
          case isFalse => rfl
        case h_2 hNone =>
          rw [Table.lookup_insert]
          split
          case isTrue hEq => rw [hEq, hNone]; rfl
          case isFalse => rfl
      rw [List.foldl_cons, ih, hTouch, List.find?_cons]
      by_cases hEq : label = first.1
      · rw [if_pos hEq, decide_eq_true hEq.symm]
        -- a later row of the same label finds the row that the first one left
        split
        · rfl
        · cases t.lookup label <;> rfl
      · rw [if_neg hEq, decide_eq_false (Ne.symm hEq)]

variable {s : BankStore}

/-- The rows of `device_meta` that a recorded poll writes. -/
theorem pollRows_deviceMeta {settings : BankSettings} {db : Db ℚ} {result : PollResult} {ts : Nat}
    {rows : PollRows ℚ} (h : pollRows settings db result ts = some rows) :
    rows.ts = ts ∧ ∃ bankRow, (bankRow = [] ∨ bankRow = [("bank", "internal", "bank", none)]) ∧
      rows.deviceMeta = (answered result.devices).map metaRow ++ bankRow := by
  simp only [pollRows, Option.bind_eq_bind, Option.bind_eq_some_iff] at h
  obtain ⟨derived, _, bank, _, hRows⟩ := h
  cases hRows
  refine ⟨rfl, _, ?_, rfl⟩
  cases bank with
  | none => exact Or.inl rfl
  | some b => exact Or.inr rfl

/-- `last_seen` of a shunt or battery is the time of its last measurement, and
the label of the pseudo-device is not that of a shunt or battery. -/
structure MeasuredInv (s : BankStore) : Prop where
  seen : ∀ label row, s.db.deviceMeta.lookup label = some row → isBankKind row.kind = true →
    s.measured label = some row.lastSeen
  pseudo : ∀ row, s.db.deviceMeta.lookup "bank" = some row → isBankKind row.kind = false

theorem measuredInv_initial (settings : BankSettings) :
    MeasuredInv (BankStore.initial settings) := by
  constructor
  · intro label row hRow
    cases hRow
  · intro row hRow
    cases hRow

/-- What a recorded poll does to one label of `device_meta`: nothing when the
label did not answer, else it is touched by the device or by the pseudo-device. -/
theorem lookup_deviceMeta_recordPoll {settings : BankSettings} {db : Db ℚ} {result : PollResult}
    {ts : Nat} {rows : PollRows ℚ} (h : pollRows settings db result ts = some rows)
    (label : String) :
    ((∀ d, result.devices.get label = some d → NoMeasurement d) ∧
        (recordPoll rows db).deviceMeta.lookup label = db.deviceMeta.lookup label) ∨
      ∃ newKind row, (recordPoll rows db).deviceMeta.lookup label = some row ∧
        row.lastSeen = ts ∧ row.kind = ((db.deviceMeta.lookup label).map DeviceMeta.kind).getD newKind ∧
        ((∃ d, result.devices.get label = some d ∧ newKind = kind d) ∨
          label = "bank" ∧ newKind = "bank") := by
  obtain ⟨hTs, bankRow, hBank, hMeta⟩ := pollRows_deviceMeta h
  have hLookup := lookup_touchDevices rows.ts db.deviceMeta rows.deviceMeta label
  change (recordPoll rows db).deviceMeta.lookup label = _ at hLookup
  rw [hMeta, hTs] at hLookup
  match hFind : ((answered result.devices).map metaRow ++ bankRow).find? fun row =>
      decide (row.1 = label) with
  | none =>
      rw [hFind] at hLookup
      refine Or.inl ⟨?_, hLookup⟩
      intro d hd
      -- the device did not answer, so its dictionary has no entries
      by_contra hMeasured
      have hLive : (label, d) ∈ answered result.devices := by
        refine List.mem_filter.mpr ⟨Dict.mem_iff_get.mpr hd, ?_⟩
        by_contra hNil
        simp only [Bool.not_eq_true, Bool.not_eq_false', List.isEmpty_iff] at hNil
        exact hMeasured (by simp [NoMeasurement, Dict.keys, hNil])
      have hNe := List.find?_eq_none.mp hFind (metaRow (label, d))
        (List.mem_append_left _ (List.mem_map_of_mem hLive))
      exact hNe (decide_eq_true rfl)
  | some first =>
      rw [hFind] at hLookup
      have hLabel : first.1 = label := by simpa using List.find?_some hFind
      refine Or.inr ⟨first.2.2.1, _, hLookup, ?_, ?_, ?_⟩
      · cases db.deviceMeta.lookup label <;> rfl
      · cases db.deviceMeta.lookup label <;> rfl
      · rcases List.mem_append.mp (List.mem_of_find?_eq_some hFind) with hDevice | hPseudo
        · obtain ⟨e, he, rfl⟩ := List.mem_map.mp hDevice
          refine Or.inl ⟨e.2, ?_, rfl⟩
          rw [← hLabel]
          exact Dict.mem_iff_get.mp (List.mem_of_mem_filter he)
        · rcases hBank with rfl | rfl
          · cases hPseudo
          · rw [List.mem_singleton] at hPseudo
            subst hPseudo
            exact Or.inr ⟨hLabel.symm, rfl⟩

/-- A row keeps the kind it was created with. -/
theorem isBankKind_getD {old : Option DeviceMeta} {newKind : String}
    (hNew : isBankKind newKind = false)
    (hOld : ∀ row, old = some row → isBankKind row.kind = false) :
    isBankKind ((old.map DeviceMeta.kind).getD newKind) = false := by
  cases old with
  | none => exact hNew
  | some row => exact hOld row rfl

theorem MeasuredInv.recordPoll {before : List BankOp} (h : MeasuredInv s) {result : PollResult}
    {ts : Nat} (hOk : MonitorsMeasured before s (.recordPoll result ts)) {rows : PollRows ℚ}
    (hRows : pollRows s.settings s.db result ts = some rows) :
    MeasuredInv
      { s with
        db := Storage.recordPoll rows s.db
        measured := markMeasured s.measured result.devices ts } := by
  obtain ⟨hEmpty, hLabel⟩ := hOk
  have hPseudo : isBankKind "bank" = false := by decide
  constructor
  · intro label row hRow hKind
    dsimp only at hRow ⊢
    rcases lookup_deviceMeta_recordPoll hRows label with
      ⟨hNone, hSame⟩ | ⟨newKind, new, hNew, hSeen, hNewKind, hFrom⟩
    · have hOld := h.seen label row (hSame ▸ hRow) hKind
      unfold markMeasured
      split
      case h_1 d hd => rw [if_pos (hNone d hd), hOld]
      case h_2 => exact hOld
    · obtain rfl : new = row := Option.some.inj (hNew.symm.trans hRow)
      rcases hFrom with ⟨d, hd, rfl⟩ | ⟨rfl, rfl⟩
      · by_cases hMeasured : NoMeasurement d
        · -- an empty device has no bank kind, and neither has its label
          obtain ⟨hOwn, hStored⟩ := hEmpty (label, d) (Dict.mem_iff_get.mpr hd) hMeasured
          rw [hNewKind, isBankKind_getD hOwn hStored] at hKind
          cases hKind
        · simp only [markMeasured, hd, if_neg hMeasured, hSeen]
      · rw [hNewKind, isBankKind_getD hPseudo h.pseudo] at hKind
        cases hKind
  · intro row hRow
    dsimp only at hRow
    rcases lookup_deviceMeta_recordPoll hRows "bank" with
      ⟨_, hSame⟩ | ⟨newKind, new, hNew, _, hNewKind, hFrom⟩
    · exact h.pseudo row (hSame ▸ hRow)
    · obtain rfl : new = row := Option.some.inj (hNew.symm.trans hRow)
      rcases hFrom with ⟨d, hd, _⟩ | ⟨_, rfl⟩
      · exact absurd (List.mem_map_of_mem (Dict.mem_iff_get.mpr hd)) hLabel
      · rw [hNewKind]
        exact isBankKind_getD hPseudo h.pseudo

theorem MeasuredInv.purgeDevice (h : MeasuredInv s) (label : String) :
    MeasuredInv (bankStep s (.purgeDevice label)) := by
  have hKept : ∀ l row, (Storage.purgeDevice label s.db).deviceMeta.lookup l = some row →
      l ≠ label ∧ s.db.deviceMeta.lookup l = some row := by
    intro l row hRow
    have hFilter : (s.db.deviceMeta.filterKeys fun k => k ≠ label).lookup l = some row := hRow
    rw [Table.lookup_filterKeys] at hFilter
    split at hFilter
    case isTrue hNe => exact ⟨of_decide_eq_true hNe, hFilter⟩
    case isFalse => cases hFilter
  constructor
  · intro l row hRow hKind
    obtain ⟨hNe, hOld⟩ := hKept l row hRow
    exact (if_neg hNe).trans (h.seen l row hOld hKind)
  · intro row hRow
    exact h.pseudo row (hKept "bank" row hRow).2

theorem MeasuredInv.step {before : List BankOp} (h : MeasuredInv s) {op : BankOp}
    (hOk : MonitorsMeasured before s op) : MeasuredInv (bankStep s op) := by
  cases op with
  | recordPoll result ts =>
      simp only [bankStep]
      split
      case h_1 => exact h
      case h_2 rows hRows => exact h.recordPoll hOk hRows
  | purgeDevice label => exact h.purgeDevice label
  | rollupAndPurge ret now => exact ⟨h.seen, h.pseudo⟩
  | setBankPolicy settings => exact ⟨h.seen, h.pseudo⟩

/-- At a poll that meets the condition, the invariant gives the law. -/
theorem MeasuredInv.bankIgnoresEmpty {before : List BankOp} (h : MeasuredInv s)
    {result : PollResult} {ts : Nat} (hOk : MonitorsMeasured before s (.recordPoll result ts)) :
    BankIgnoresEmpty s result ts := by
  obtain ⟨hEmpty, _⟩ := hOk
  constructor
  · intro empties hEmpties
    apply bankOf_filter
    intro label hLabel d hd
    have hNone := hEmpties label hLabel d hd
    exact ⟨hNone, hEmpty (label, d) (Dict.mem_iff_get.mpr hd) hNone⟩
  · intro label row hRow hKind hNone d
    have hAbsent : result.devices.get label = none := by
      match hd : result.devices.get label with
      | none => rfl
      | some d =>
          have hStored := (hEmpty (label, d) (Dict.mem_iff_get.mpr hd) (hNone d hd)).2
          rw [hStored row hRow] at hKind
          cases hKind
    have hSeen := h.seen label row hRow hKind
    rw [augmentForBank, List.mem_append, Dict.mem_iff_get, hAbsent, List.mem_map]
    constructor
    · rintro (hLive | ⟨e, he, hEq⟩)
      · cases hLive
      · obtain ⟨hMem, hFills⟩ := List.mem_filter.mp he
        obtain ⟨rfl, rfl⟩ := Prod.mk.inj hEq
        have hLookup := Table.lookup_eq_some_iff.mpr (show (e.1, e.2) ∈ s.db.deviceMeta.rows from hMem)
        obtain rfl : e.2 = row := Option.some.inj (hLookup.symm.trans hRow)
        simp only [fillsIn, Bool.and_eq_true, decide_eq_true_eq] at hFills
        exact ⟨rfl, e.2.lastSeen, hSeen, hFills.2⟩
    · rintro ⟨rfl, t, hMeasured, hFresh⟩
      obtain rfl : row.lastSeen = t := Option.some.inj (hSeen.symm.trans hMeasured)
      refine Or.inr ⟨(label, row), List.mem_filter.mpr ⟨Table.lookup_eq_some_iff.mp hRow, ?_⟩, rfl⟩
      have hNotLive : result.devices.keys.contains label = false := by
        rw [← Bool.not_eq_true, List.contains_iff_mem]
        exact Dict.get_eq_none_iff.mp hAbsent
      simp only [fillsIn, hKind, hNotLive, Bool.not_false, Bool.and_true, Bool.true_and,
        decide_eq_true_eq]
      exact hFresh

/-- In every run of the store in which no shunt or smart battery is polled
without a measurement, no poll lets a device without one move the bank. -/
theorem bank_ignores_empty_devices {settings : BankSettings} {ops : List BankOp}
    (hOk : StepsOk bankStep MonitorsMeasured (BankStore.initial settings) ops)
    {before after : List BankOp} {result : PollResult} {ts : Nat}
    (hOps : ops = before ++ .recordPoll result ts :: after) :
    BankIgnoresEmpty (run bankStep (BankStore.initial settings) before) result ts := by
  have hInit : MeasuredInv (run bankStep (BankStore.initial settings) []) :=
    measuredInv_initial settings
  have hStep : ∀ before op, MeasuredInv (run bankStep (BankStore.initial settings) before) →
      MonitorsMeasured before (run bankStep (BankStore.initial settings) before) op →
      MeasuredInv (run bankStep (BankStore.initial settings) (before ++ [op])) := by
    intro before op h hStepOk
    rw [run_concat]
    exact h.step hStepOk
  have hPoll := hOk before (.recordPoll result ts) after hOps
  rw [hOps] at hOk
  exact (invariant hInit hStep hOk.of_append).bankIgnoresEmpty hPoll

end Runs

section Silence

/-- A SmartShunt at 13.2 V, 2.5 A and 80 %, heard a second ago. -/
def heardShunt : PollDict :=
  Victron.SmartShunt.poll "shunt" 0
    (some ⟨some ⟨some (132 / 10), some (5 / 2), some 80, none, none, none, none, none, none, none,
      none⟩, some "BatteryMonitor", .seconds 1, some 1⟩)

/-- The same shunt when nothing fresh has come in. -/
def silentShunt : PollDict :=
  Victron.SmartShunt.poll "shunt" 0 (some ⟨none, none, .seconds 90, none⟩)

/-- A SmartSolar that has gone silent. -/
def silentController : PollDict :=
  markSilent (header "victron" "charge_controller" "mppt" 0) (.seconds 90)

def pollOf (label : String) (d : PollDict) : PollResult := ⟨Dict.ofList [(label, d)], 1, 0, none⟩

theorem entries_pollOf (label : String) (d : PollDict) :
    (pollOf label d).devices.entries = [(label, d)] := rfl

/-- A silent controller, and a shunt that did not answer. -/
theorem bank_ignores_silent_controller :
    StepsOk bankStep MonitorsMeasured (BankStore.initial .default)
        [.recordPoll (pollOf "shunt" heardShunt) 0, .recordPoll (pollOf "mppt" silentController) 60] ∧
      BankIgnoresEmpty (run bankStep (BankStore.initial .default)
        [.recordPoll (pollOf "shunt" heardShunt) 0]) (pollOf "mppt" silentController) 60 := by
  have hOk : StepsOk bankStep MonitorsMeasured (BankStore.initial .default)
      [.recordPoll (pollOf "shunt" heardShunt) 0,
        .recordPoll (pollOf "mppt" silentController) 60] := by
    simp only [stepsOk_cons, stepsOk_nil, and_true]
    constructor
    · have hMeasured : ¬ NoMeasurement heardShunt := by decide +kernel
      refine ⟨?_, by decide +kernel⟩
      intro e he hNone
      rw [entries_pollOf, List.mem_singleton] at he
      subst he
      exact absurd hNone hMeasured
    · have hMeta : (bankStep (BankStore.initial .default)
          (.recordPoll (pollOf "shunt" heardShunt) 0)).db.deviceMeta.lookup "mppt" = none := by
        decide +kernel
      refine ⟨?_, by decide +kernel⟩
      intro e he _
      rw [entries_pollOf, List.mem_singleton] at he
      subst he
      refine ⟨by decide +kernel, ?_⟩
      intro row hRow
      rw [hMeta] at hRow
      cases hRow
  have hSplit : [BankOp.recordPoll (pollOf "shunt" heardShunt) 0,
      .recordPoll (pollOf "mppt" silentController) 60] =
      [.recordPoll (pollOf "shunt" heardShunt) 0] ++
        .recordPoll (pollOf "mppt" silentController) 60 :: [] := rfl
  exact ⟨hOk, bank_ignores_empty_devices hOk hSplit⟩

/-- One silent minute after a good poll, the bank reads zero instead of what the
shunt last reported. -/
theorem silent_shunt_moves_bank :
    ¬ BankIgnoresEmpty (run bankStep (BankStore.initial .default)
      [.recordPoll (pollOf "shunt" heardShunt) 0]) (pollOf "shunt" silentShunt) 60 := by
  intro h
  have hSilent : ∀ label ∈ ["shunt"], ∀ d,
      (pollOf "shunt" silentShunt).devices.get label = some d → NoMeasurement d := by
    intro label hLabel d hd
    rw [List.mem_singleton.mp hLabel] at hd
    cases hd
    exact (noMeasurement_header "victron" "shunt" "shunt" 0).markSilent _
  have hSame := h.same ["shunt"] hSilent
  revert hSame
  decide +kernel

end Silence

end WattPost.Storage
