import WattPost.Storage.Latest

/-! The bank that `get_latest` shows. The aggregate has other keys with another
source, and its time to go and its disagreement come and go; `latest` keeps every
key it was ever given. The dashboard takes the presence of `source_disagreement`
for news, so a key that was left over is read as one. -/
namespace WattPost.Storage

open Keyed PyDict Vendors Runs

/-- What the aggregate has under a key, as `record_poll` stores it. -/
def BankAggregate.value (bank : BankAggregate) (metric : String) : Option PyVal :=
  ((bank.strFields.lookup metric).map .text).or ((bank.numFields.lookup metric).map .num)

/-- The metrics of `get_latest()["bank"]` are those of the aggregate. -/
def BankShown (db : Db ℚ) (bank : BankAggregate) : Prop :=
  ∀ metric, PyText.startsWith metric "_" = false →
    shown (getLatest db) "bank" metric = bank.value metric

/-- Nothing but the aggregate is recorded under the name of the bank: what was
there before the poll the aggregate overwrites, and so it does with a device of the
poll that is called "bank". A text of such a device it does not overwrite with a
number, since the texts are written last. -/
structure KeepsClear (db : Db ℚ) (before : List Poll) (devices : Dict PollDict)
    (bank : BankAggregate) : Prop where
  stored : ∀ metric, PyText.startsWith metric "_" = false →
    (db.reading "bank" metric).isSome = true ∨ Recorded db before "bank" metric →
      (bank.value metric).isSome = true
  numbers : ∀ metric, PyText.startsWith metric "_" = false →
    ∀ num, deviceNum devices = some num → ∀ q, ("bank", metric, q) ∈ num →
      (bank.value metric).isSome = true
  texts : ∀ metric, PyText.startsWith metric "_" = false →
    ∀ s, ("bank", metric, s) ∈ deviceStr devices → (bank.strFields.lookup metric).isSome = true

theorem notMem_latestMetaKeys {metric : String} (h : PyText.startsWith metric "_" = false) :
    metric ∉ latestMetaKeys := by
  have hAll : ∀ key ∈ latestMetaKeys, PyText.startsWith key "_" = true := by decide
  intro hMem
  rw [hAll metric hMem] at h
  cases h

theorem lookup_numField (key k : String) (value : Option ℚ) :
    (numField key value).lookup k = if k = key then value else none := by
  cases value with
  | none => simp [numField]
  | some v => exact lookup_cons_ite (key, v) [] k

theorem lookup_soc_numFields (bank : BankAggregate) :
    bank.numFields.lookup "soc_pct" = bank.view.socPct := by
  obtain ⟨view, packCount, source, cells, ⟨cycleCount, throughput⟩, dis⟩ := bank
  cases cells <;> cases throughput <;>
    simp [BankAggregate.numFields, List.lookup_append, lookup_numField, lookup_cons_ite]

theorem sublist_numField (key : String) (value : Option ℚ) :
    List.Sublist ((numField key value).map Prod.fst) [key] := by
  cases value with
  | none => exact List.nil_sublist _
  | some v => exact List.Sublist.refl _

/-- No metric is written twice. -/
theorem nodup_numFields (bank : BankAggregate) : (bank.numFields.map Prod.fst).Nodup := by
  have hCells : List.Sublist ((bank.cells.elim [] fun cells => numField "cell_min_v" cells.minV ++
      numField "cell_max_v" cells.maxV ++ [("worst_pack_drift_v", cells.worstPackDriftV)]).map
        Prod.fst) ["cell_min_v", "cell_max_v", "worst_pack_drift_v"] := by
    cases bank.cells with
    | none => exact List.nil_sublist _
    | some cells =>
        simp only [Option.elim_some, List.map_append]
        exact ((sublist_numField _ _).append (sublist_numField _ _)).append (List.Sublist.refl _)
  have hThroughput : List.Sublist ((bank.health.throughput.elim [] fun t =>
      [("lifetime_throughput_ah", t.1), ("lifetime_throughput_kwh", t.2)]).map Prod.fst)
        ["lifetime_throughput_ah", "lifetime_throughput_kwh"] := by
    cases bank.health.throughput with
    | none => exact List.nil_sublist _
    | some t => exact List.Sublist.refl _
  have hSublist : List.Sublist (bank.numFields.map Prod.fst)
      (["voltage_v", "current_a", "power_w"] ++ ["soc_pct"] ++ ["remaining_ah"] ++
        ["capacity_ah"] ++ ["time_to_go_minutes"] ++ ["pack_count"] ++
        ["cell_min_v", "cell_max_v", "worst_pack_drift_v"] ++ ["cycle_count"] ++
        ["lifetime_throughput_ah", "lifetime_throughput_kwh"]) := by
    simp only [BankAggregate.numFields, List.map_append]
    exact (((((((List.Sublist.refl _).append (sublist_numField _ _)).append
      (sublist_numField _ _)).append (sublist_numField _ _)).append
        (sublist_numField _ _)).append (List.Sublist.refl _)).append hCells).append
          (sublist_numField _ _) |>.append hThroughput
  exact hSublist.nodup (by decide)

theorem nodup_strFields (bank : BankAggregate) : (bank.strFields.map Prod.fst).Nodup := by
  obtain ⟨view, packCount, source, cells, health, dis⟩ := bank
  cases dis <;> simp [BankAggregate.strFields]

/-- An aggregate that was computed has read the cells of every battery. -/
theorem exists_cells {settings : BankSettings} {devices : List PollDict}
    {bank : Option BankAggregate} (h : computeBankAggregate settings devices = some bank)
    {d : PollDict} (hMem : d ∈ devices) (hBattery : isBattery d = true) :
    ∃ cells, cellVolts d = some cells := by
  have hBatts : d ∈ devices.filter isBattery := List.mem_filter.mpr ⟨hMem, hBattery⟩
  have hSome : (devices.filter isBattery).isEmpty = false := by simpa using ⟨d, hMem, hBattery⟩
  cases hInfo : cellInfo (devices.filter isBattery) with
  | none =>
      rw [computeBankAggregate, aggregateBank, selectBank] at h
      simp [hSome, hInfo] at h
  | some info =>
      simp only [cellInfo, Option.bind_eq_bind, Option.bind_eq_some_iff] at hInfo
      obtain ⟨_, hPacks, _⟩ := hInfo
      exact mem_of_mapM hPacks hBatts

/-- A poll whose aggregate was computed is recorded. -/
theorem exists_rows_of_bank {settings : BankSettings} {db : Db ℚ} {result : PollResult} {ts : Nat}
    {bank : Option BankAggregate} (hBank : bankOf settings db result.devices ts = some bank) :
    ∃ rows, pollRows settings db result ts = some rows := by
  have hDerived : ∀ e ∈ answered result.devices, ∃ r, derivedReadings e.1 e.2 = some r := by
    intro e he
    unfold derivedReadings
    split
    case isFalse => exact ⟨[], rfl⟩
    case isTrue hBattery =>
      have hMem : e.2 ∈ (augmentForBank db result.devices ts).map Prod.snd :=
        List.mem_map_of_mem (List.mem_append_left _ (List.mem_of_mem_filter he))
      obtain ⟨cells, hCells⟩ := exists_cells hBank hMem hBattery
      exact ⟨_, by rw [hCells, Option.map_some]⟩
  obtain ⟨derived, hMap⟩ := exists_mapM hDerived
  exact ⟨_, by simp only [pollRows, hMap, hBank]; rfl⟩

/-- What a poll with an aggregate has to say about the bank. -/
theorem reading_bank {settings : BankSettings} {db : Db ℚ} {result : PollResult} {ts : Nat}
    {rows : PollRows ℚ} {bank : BankAggregate}
    (hRows : pollRows settings db result ts = some rows)
    (hBank : bankOf settings db result.devices ts = some (some bank)) :
    ∃ num, deviceNum result.devices = some num ∧ ∀ metric, rows.reading "bank" metric =
      (((bank.strFields.lookup metric).or
        (lastReading "bank" metric (deviceStr result.devices))).map .text).or
      (((bank.numFields.lookup metric).or (lastReading "bank" metric num)).map .num) := by
  obtain ⟨num, bank', hNum, hBank', hRowsNum, hRowsStr⟩ := pollRows_readings hRows
  obtain rfl : bank' = some bank := Option.some.inj (hBank'.symm.trans hBank)
  refine ⟨num, hNum, fun metric => ?_⟩
  rw [PollRows.reading, hRowsNum, hRowsStr, lastReading_append, lastReading_append,
    Option.elim_some, Option.elim_some, lastReading_fields (nodup_numFields bank),
    lastReading_fields (nodup_strFields bank)]

/-- `get_latest` shows the last aggregate and nothing else just when nothing else
was ever recorded under its name, or the aggregate overwrites it. -/
theorem bank_shown_iff (db : Db ℚ) (before : List Poll) (last : Poll) (bank : BankAggregate)
    (hBank : bankOf last.settings (run Db.recordPoll db before) last.result.devices last.ts =
      some (some bank)) :
    BankShown (run Db.recordPoll db (before ++ [last])) bank ↔
      KeepsClear db before last.result.devices bank := by
  obtain ⟨rows, hRows⟩ := exists_rows_of_bank hBank
  obtain ⟨num, hNum, hReading⟩ := reading_bank hRows hBank
  have hShown : ∀ metric, PyText.startsWith metric "_" = false →
      shown (getLatest (run Db.recordPoll db (before ++ [last]))) "bank" metric =
        (rows.reading "bank" metric).or
          ((run Db.recordPoll db before).reading "bank" metric) := by
    intro metric hMetric
    rw [shown_getLatest (notMem_latestMetaKeys hMetric), run_concat, Db.recordPoll, hRows,
      Option.elim_some, reading_recordPoll]
  constructor
  · intro h
    have hValue : ∀ metric, PyText.startsWith metric "_" = false →
        (rows.reading "bank" metric).or ((run Db.recordPoll db before).reading "bank" metric) =
          bank.value metric := fun metric hMetric =>
      (hShown metric hMetric).symm.trans (h metric hMetric)
    refine ⟨fun metric hMetric hStored => ?_, fun metric hMetric num' hNum' q hMem => ?_,
      fun metric hMetric s hMem => ?_⟩
    · rw [← hValue metric hMetric, Option.isSome_or,
        (reading_run_isSome db before "bank" metric).mpr hStored, Bool.or_true]
    · obtain rfl : num' = num := Option.some.inj (hNum'.symm.trans hNum)
      have hLast : lastReading "bank" metric num' ≠ none := fun hNone =>
        lastReading_eq_none.mp hNone q hMem
      rw [← hValue metric hMetric, hReading]
      simp [Option.isSome_or, Option.isSome_iff_ne_none.mpr hLast]
    · have hLast : lastReading "bank" metric (deviceStr last.result.devices) ≠ none := fun hNone =>
        lastReading_eq_none.mp hNone s hMem
      have hText := hValue metric hMetric
      obtain ⟨text, hText'⟩ := Option.ne_none_iff_exists'.mp hLast
      rw [hReading, hText', BankAggregate.value] at hText
      cases hStr : bank.strFields.lookup metric with
      | some _ => rfl
      | none =>
          rw [hStr] at hText
          cases hNumber : bank.numFields.lookup metric <;> rw [hNumber] at hText <;> cases hText
  · intro h metric hMetric
    rw [hShown metric hMetric, hReading]
    cases hStr : bank.strFields.lookup metric with
    | some s => simp [BankAggregate.value, hStr]
    | none =>
        have hText : lastReading "bank" metric (deviceStr last.result.devices) = none :=
          lastReading_eq_none.mpr fun s hMem => by
            have := h.texts metric hMetric s hMem
            rw [hStr] at this
            cases this
        rw [hText]
        cases hNumber : bank.numFields.lookup metric with
        | some q => simp [BankAggregate.value, hStr, hNumber]
        | none =>
            have hValue : bank.value metric = none := by
              rw [BankAggregate.value, hStr, hNumber]
              rfl
            have hLast : lastReading "bank" metric num = none :=
              lastReading_eq_none.mpr fun q hMem => by
                have := h.numbers metric hMetric num hNum q hMem
                rw [hValue] at this
                cases this
            have hOld : (run Db.recordPoll db before).reading "bank" metric = none := by
              rw [← Option.not_isSome_iff_eq_none, reading_run_isSome]
              intro hStored
              have := h.stored metric hMetric hStored
              rw [hValue] at this
              cases this
            rw [hLast, hOld, hValue]
            rfl

/-! ### A shunt that is discharged, and then charged -/

/-- A poll of one shunt, which gives a time to go only while it is discharged. -/
def shuntCall (currentA : ℚ) (timeToGoMinutes : Option ℚ) (ts : Nat) : Poll where
  settings := .default
  result :=
    { devices := Dict.ofList [("shunt", (Dict.ofList [("_vendor", .text "victron"),
        ("_kind", .text "shunt"), ("voltage_v", .num 13), ("current_a", .num currentA),
        ("soc_pct", .num 50), ("remaining_ah", .num 100), ("bank_capacity_ah", .num 200)]).setSome
          "time_to_go_minutes" (timeToGoMinutes.map .num))]
      elapsedSeconds := 0
      errorsCount := 0
      errorsRepr := none }
  ts := ts

def shuntBank (currentA : ℚ) (timeToGoMinutes : Option ℚ) : BankAggregate where
  view := ⟨13, currentA, 13 * currentA, some 50, some 100, some 200, timeToGoMinutes⟩
  packCount := 0
  source := .shunt
  cells := none
  health := ⟨none, none⟩
  disagreement := none

/-- While the shunt is discharged each poll overwrites the bank of the one before. -/
theorem bank_shown_first :
    BankShown (run Db.recordPoll Db.empty
      ([shuntCall (-10) (some 600) 60] ++ [shuntCall (-12) (some 500) 660]))
      (shuntBank (-12) (some 500)) := by
  refine (bank_shown_iff Db.empty [shuntCall (-10) (some 600) 60] (shuntCall (-12) (some 500) 660) _
    (by decide +kernel)).mpr
    ⟨fun metric _ hStored => ?_, fun metric _ num hNum q hMem => ?_, fun metric _ s hMem => ?_⟩
  · obtain ⟨v, hReading⟩ := Option.isSome_iff_exists.mp ((reading_run_isSome ..).mpr hStored)
    obtain ⟨row, hRow, _⟩ := Option.map_eq_some_iff.mp hReading
    have hHas : ∀ e ∈ (run Db.recordPoll Db.empty [shuntCall (-10) (some 600) 60]).latest.rows,
        (ofLex e.1).1 = "bank" →
          ((shuntBank (-12) (some 500)).value (ofLex e.1).2).isSome = true := by
      decide +kernel
    exact hHas _ (Table.lookup_eq_some_iff.mp hRow) rfl
  · have hOther : ∀ num, deviceNum (shuntCall (-12) (some 500) 660).result.devices = some num →
        ∀ x ∈ num, x.1 ≠ "bank" := by
      rintro num ⟨⟩
      decide +kernel
    exact absurd rfl (hOther num hNum _ hMem)
  · have hOther : ∀ x ∈ deviceStr (shuntCall (-12) (some 500) 660).result.devices,
        x.1 ≠ "bank" := by
      decide +kernel
    exact absurd rfl (hOther _ hMem)

/-- Ten minutes later the shunt is charged and has no time to go, but the bank
still shows the old one. -/
theorem charged_bank_shows_time_to_go :
    ¬ ∀ (before : List Poll) (last : Poll) (bank : BankAggregate),
      bankOf last.settings (run Db.recordPoll Db.empty before) last.result.devices last.ts =
        some (some bank) →
      BankShown (run Db.recordPoll Db.empty (before ++ [last])) bank := by
  intro h
  have hShown := h [shuntCall (-10) (some 600) 60] (shuntCall 10 none 660) (shuntBank 10 none)
    (by decide +kernel) "time_to_go_minutes" (by decide)
  have hStale : shown (getLatest (run Db.recordPoll Db.empty
      ([shuntCall (-10) (some 600) 60] ++ [shuntCall 10 none 660]))) "bank" "time_to_go_minutes" =
        some (.num 600) := by
    decide +kernel
  rw [hStale] at hShown
  cases hShown

end WattPost.Storage
