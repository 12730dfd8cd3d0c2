import WattPost.Lib.MapM
import WattPost.Storage.RecordPoll

/-! `latest` over runs of `Store.record_poll`, and `Store.get_latest`. A poll only
adds and overwrites rows of `latest`. A run therefore leaves a row for every
metric that one of its polls recorded, and `get_latest` shows them all. -/
namespace WattPost.Storage

open Keyed PyDict Vendors Runs

/-- A call of `record_poll` with the bank settings of its moment. -/
structure Poll where
  settings : BankSettings
  result : PollResult
  ts : Nat

/-- `Store.record_poll`. A call that raises while it gathers its rows writes nothing. -/
def Db.recordPoll (db : Db ℚ) (p : Poll) : Db ℚ :=
  (pollRows p.settings db p.result p.ts).elim db fun rows => Storage.recordPoll rows db

/-! ### The rows of a poll -/

/-- The numeric rows of the devices, without the bank's. -/
def deviceNum (devices : Dict PollDict) : Option (List (String × String × ℚ)) := do
  let derived ← (answered devices).mapM fun e => derivedReadings e.1 e.2
  some (List.zipWith (fun e cells => numReadings e.1 e.2 ++ cells)
    (answered devices) derived).flatten

/-- The text rows of the devices. -/
def deviceStr (devices : Dict PollDict) : List (String × String × String) :=
  (answered devices).flatMap fun e => strReadings e.1 e.2

/-- The rows of a poll are those of the devices, and then the bank's. -/
theorem pollRows_readings {settings : BankSettings} {db : Db ℚ} {result : PollResult} {ts : Nat}
    {rows : PollRows ℚ} (hRows : pollRows settings db result ts = some rows) :
    ∃ num bank, deviceNum result.devices = some num ∧
      bankOf settings db result.devices ts = some bank ∧
      rows.num = num ++ bank.elim [] (fun b => b.numFields.map fun f => ("bank", f.1, f.2)) ∧
      rows.str = deviceStr result.devices ++
        bank.elim [] (fun b => b.strFields.map fun f => ("bank", f.1, f.2)) := by
  simp only [pollRows, Option.bind_eq_bind, Option.bind_eq_some_iff] at hRows
  obtain ⟨derived, hDerived, bank, hBank, hEq⟩ := hRows
  cases hEq
  refine ⟨_, bank, ?_, hBank, rfl, rfl⟩
  rw [deviceNum, hDerived]
  rfl

/-- What a list of rows says last about a metric of a device. -/
def lastReading {α : Type} (device metric : String) (rows : List (String × String × α)) :
    Option α :=
  Table.lastRow (toLex (device, metric)) (rows.map fun x => (toLex (x.1, x.2.1), x.2.2))

/-- Rows of one timestamp under their primary keys. -/
theorem lastRow_key {α : Type} (ts : Nat) (device metric : String)
    (rows : List (String × String × α)) :
    Table.lastRow (⟨ts, device, metric⟩ : Key)
        (rows.map fun x => ((⟨ts, x.1, x.2.1⟩ : Key), x.2.2)) =
      lastReading device metric rows := by
  have hInjective : Function.Injective fun p : String ×ₗ String =>
      (⟨ts, (ofLex p).1, (ofLex p).2⟩ : Key) := by
    intro p q h
    simp only [Key.mk.injEq, true_and] at h
    exact ofLex.injective (Prod.ext h.1 h.2)
  have h := Table.lastRow_map hInjective id (toLex (device, metric))
    (rows.map fun x => (toLex (x.1, x.2.1), x.2.2))
  rw [List.map_map, Option.map_id] at h
  exact h

section LastReading

variable {α : Type} {device metric : String} {rows : List (String × String × α)}

theorem lastReading_append (xs ys : List (String × String × α)) :
    lastReading device metric (xs ++ ys) =
      (lastReading device metric ys).or (lastReading device metric xs) := by
  rw [lastReading, List.map_append, Table.lastRow_append]
  rfl

theorem lastReading_eq_some {v : α} (h : lastReading device metric rows = some v) :
    (device, metric, v) ∈ rows := by
  obtain ⟨x, hMem, hEq⟩ := List.mem_map.mp (Table.lastRow_eq_some h)
  obtain ⟨hKey, rfl⟩ := Prod.mk.inj hEq
  obtain ⟨rfl, rfl⟩ := Prod.mk.inj (toLex.injective hKey)
  exact hMem

theorem lastReading_eq_none :
    lastReading device metric rows = none ↔ ∀ v, (device, metric, v) ∉ rows := by
  rw [lastReading, Table.lastRow_eq_none]
  constructor
  · exact fun h v hMem => h v (List.mem_map_of_mem
      (f := fun x : String × String × α => (toLex (x.1, x.2.1), x.2.2)) hMem)
  · intro h v hMem
    obtain ⟨x, hx, hEq⟩ := List.mem_map.mp hMem
    obtain ⟨hKey, rfl⟩ := Prod.mk.inj hEq
    obtain ⟨rfl, rfl⟩ := Prod.mk.inj (toLex.injective hKey)
    exact h _ hx

/-- What is said last about a converted value. -/
theorem lastReading_map {β : Type} (f : α → β) :
    lastReading device metric (rows.map fun x => (x.1, x.2.1, f x.2.2)) =
      (lastReading device metric rows).map f := by
  rw [lastReading, lastReading, ← Table.lastRow_map Function.injective_id, List.map_map,
    List.map_map]
  rfl

/-- Where the rows of a metric have one value, that is the last one. -/
theorem lastReading_eq {value : Option α}
    (h : ∀ v, (device, metric, v) ∈ rows ↔ value = some v) :
    lastReading device metric rows = value := by
  cases hLast : lastReading device metric rows with
  | some v => exact ((h v).mp (lastReading_eq_some hLast)).symm
  | none =>
      cases hValue : value with
      | none => rfl
      | some v => exact absurd ((h v).mpr hValue) (lastReading_eq_none.mp hLast v)

/-- Fields that are all recorded under one device are read by their names. -/
theorem lastReading_fields {fields : List (String × α)} (h : (fields.map Prod.fst).Nodup) :
    lastReading device metric (fields.map fun f => (device, f.1, f.2)) = fields.lookup metric := by
  induction fields with
  | nil => rfl
  | cons f fields ih =>
      obtain ⟨hNotMem, hRest⟩ := List.nodup_cons.mp h
      have hStep : lastReading device metric ((f :: fields).map fun f => (device, f.1, f.2)) =
          (fields.lookup metric).or (if metric = f.1 then some f.2 else none) := by
        rw [← ih hRest]
        simp [lastReading, Table.lastRow, eq_comm]
      rw [hStep, lookup_cons_ite]
      by_cases hMetric : metric = f.1
      · have hNone : fields.lookup metric = none := by
          rw [List.lookup_eq_none_iff]
          intro g hg
          have hNe : g.1 ≠ f.1 := fun hEq => hNotMem (hEq ▸ List.mem_map_of_mem hg)
          simpa [hMetric] using Ne.symm hNe
        rw [hNone, if_pos hMetric, Option.none_or]
      · rw [if_neg hMetric, if_neg hMetric, Option.or_none]

end LastReading

/-- What a poll says last about a metric is in the history at its time. -/
theorem lookup_samples {V : Type} (rows : PollRows V) (db : Db V) (device metric : String) :
    (Storage.recordPoll rows db).samples.lookup ⟨rows.ts, device, metric⟩ =
      (lastReading device metric rows.num).or (db.samples.lookup ⟨rows.ts, device, metric⟩) := by
  rw [Storage.recordPoll, Table.lookup_insertAll, PollRows.sampleRows,
    lastRow_key rows.ts device metric rows.num]

theorem lookup_samplesStr {V : Type} (rows : PollRows V) (db : Db V) (device metric : String) :
    (Storage.recordPoll rows db).samplesStr.lookup ⟨rows.ts, device, metric⟩ =
      (lastReading device metric rows.str).or
        (db.samplesStr.lookup ⟨rows.ts, device, metric⟩) := by
  rw [Storage.recordPoll, Table.lookup_insertAll, lastRow_key rows.ts device metric rows.str]

/-! ### The rows of one device -/

/-- `isinstance(v, (int, float)) and not isinstance(v, bool)`, and then the value. -/
def numOf (v : Option PyVal) : Option ℚ :=
  match v with
  | some (.num q) => some q
  | _ => none

/-- `isinstance(v, str)`, and then the value. -/
def strOf (v : Option PyVal) : Option String :=
  match v with
  | some (.text s) => some s
  | _ => none

theorem mem_numReadings {label metric label' : String} {data : PollDict} {q : ℚ} :
    (label', metric, q) ∈ numReadings label data ↔
      label' = label ∧ metric ∉ metaKeys ∧ numOf (data.get metric) = some q := by
  simp only [numReadings, List.mem_filterMap]
  constructor
  · rintro ⟨⟨k, v⟩, hMem, hEq⟩
    split at hEq
    · next hKey hNum =>
        cases hEq
        dsimp only at hKey hNum
        rw [Dict.mem_iff_get.mp hMem, hNum]
        exact ⟨rfl, by simpa using hKey, rfl⟩
    · cases hEq
  · rintro ⟨rfl, hKey, hNum⟩
    unfold numOf at hNum
    split at hNum
    · next hGet =>
        cases hNum
        exact ⟨_, Dict.mem_iff_get.mpr hGet, by simp [hKey]⟩
    · cases hNum

theorem mem_strReadings {label metric label' : String} {data : PollDict} {s : String} :
    (label', metric, s) ∈ strReadings label data ↔
      label' = label ∧ metric ∉ metaKeys ∧ strOf (data.get metric) = some s := by
  simp only [strReadings, List.mem_filterMap]
  constructor
  · rintro ⟨⟨k, v⟩, hMem, hEq⟩
    split at hEq
    · next hKey hText =>
        cases hEq
        dsimp only at hKey hText
        rw [Dict.mem_iff_get.mp hMem, hText]
        exact ⟨rfl, by simpa using hKey, rfl⟩
    · cases hEq
  · rintro ⟨rfl, hKey, hText⟩
    unfold strOf at hText
    split at hText
    · next hGet =>
        cases hText
        exact ⟨_, Dict.mem_iff_get.mpr hGet, by simp [hKey]⟩
    · cases hText

/-- The row of a metric of a device that is no battery is the entry of its result. -/
theorem lastReading_deviceNum {devices : Dict PollDict} {num : List (String × String × ℚ)}
    (hNum : deviceNum devices = some num) {label metric : String} {data : PollDict}
    (hData : devices.get label = some data) (hEntries : data.entries ≠ [])
    (hKind : isBattery data = false) (hMetric : metric ∉ metaKeys) :
    lastReading label metric num = numOf (data.get metric) := by
  have hMem : ∀ q, (label, metric, q) ∈ num ↔ numOf (data.get metric) = some q := by
    intro q
    simp only [deviceNum, Option.bind_eq_bind, Option.bind_eq_some_iff] at hNum
    obtain ⟨derived, hDerived, hEq⟩ := hNum
    cases hEq
    rw [mem_zipWith_flatten hDerived]
    constructor
    · rintro ⟨e, he, cells, hCells, hRow⟩
      have hEntry := Dict.mem_iff_get.mp (List.mem_of_mem_filter he)
      rcases List.mem_append.mp hRow with hRow | hRow
      · obtain ⟨rfl, _, hValue⟩ := mem_numReadings.mp hRow
        obtain rfl : data = e.2 := Option.some.inj (hData.symm.trans hEntry)
        exact hValue
      · -- a derived row carries the label of a battery
        unfold derivedReadings at hCells
        split at hCells
        case isFalse =>
          cases hCells
          cases hRow
        case isTrue hBattery =>
          obtain ⟨volts, _, rfl⟩ := Option.map_eq_some_iff.mp hCells
          have hLabel : e.1 = label := by
            split at hRow
            · simp only [List.mem_cons, List.not_mem_nil, or_false, Prod.mk.injEq] at hRow
              rcases hRow with ⟨rfl, _⟩ | ⟨rfl, _⟩ | ⟨rfl, _⟩ <;> rfl
            · cases hRow
          rw [hLabel, hData] at hEntry
          cases hEntry
          rw [hKind] at hBattery
          cases hBattery
    · intro hValue
      refine ⟨(label, data), List.mem_filter.mpr ⟨Dict.mem_iff_get.mpr hData, ?_⟩, [], ?_, ?_⟩
      · simpa using hEntries
      · simp [derivedReadings, hKind]
      · exact List.mem_append_left _ (mem_numReadings.mpr ⟨rfl, hMetric, hValue⟩)
  exact lastReading_eq hMem

theorem lastReading_deviceStr {devices : Dict PollDict} {label metric : String} {data : PollDict}
    (hData : devices.get label = some data) (hEntries : data.entries ≠ [])
    (hMetric : metric ∉ metaKeys) :
    lastReading label metric (deviceStr devices) = strOf (data.get metric) := by
  have hMem : ∀ s, (label, metric, s) ∈ deviceStr devices ↔ strOf (data.get metric) = some s := by
    intro s
    rw [deviceStr, List.mem_flatMap]
    constructor
    · rintro ⟨e, he, hRow⟩
      obtain ⟨rfl, _, hValue⟩ := mem_strReadings.mp hRow
      have hEntry := Dict.mem_iff_get.mp (List.mem_of_mem_filter he)
      obtain rfl : data = e.2 := Option.some.inj (hData.symm.trans hEntry)
      exact hValue
    · intro hValue
      refine ⟨(label, data), List.mem_filter.mpr ⟨Dict.mem_iff_get.mpr hData, ?_⟩, ?_⟩
      · simpa using hEntries
      · exact mem_strReadings.mpr ⟨rfl, hMetric, hValue⟩
  exact lastReading_eq hMem

/-! ### The table -/

/-- What `latest` holds for a metric of a device. -/
def Db.reading (db : Db ℚ) (device metric : String) : Option PyVal :=
  (db.latest.lookup (toLex (device, metric))).map latestValue

/-- What a poll has to say about a metric: its texts are written after its numbers. -/
def PollRows.reading (rows : PollRows ℚ) (device metric : String) : Option PyVal :=
  ((lastReading device metric rows.str).map .text).or
    ((lastReading device metric rows.num).map .num)

/-- A poll replaces what it has something to say about, and nothing else. -/
theorem reading_recordPoll (rows : PollRows ℚ) (db : Db ℚ) (device metric : String) :
    (Storage.recordPoll rows db).reading device metric =
      (rows.reading device metric).or (db.reading device metric) := by
  have hMap : ∀ {α : Type} (f : α → LatestRow ℚ) (xs : List (String × String × α)),
      Table.lastRow (toLex (device, metric))
        (xs.map fun x => (toLex (x.1, x.2.1), f x.2.2)) = (lastReading device metric xs).map f := by
    intro α f xs
    rw [lastReading, ← Table.lastRow_map Function.injective_id, List.map_map]
    rfl
  rw [Db.reading, Storage.recordPoll, Table.lookup_insertAll, Table.lookup_insertAll,
    hMap fun s => ⟨rows.ts, none, some s⟩, hMap fun q => ⟨rows.ts, some q, none⟩,
    PollRows.reading, Option.or_assoc, Option.map_or, Option.map_or, Option.map_map,
    Option.map_map]
  rfl

/-- What the snapshot of a device says about a metric is what `latest` holds. -/
theorem get_snapshot {db : Db ℚ} {label metric : String} {row : DeviceMeta} :
    (snapshot db label row).get metric =
      (db.reading label metric).or ((Dict.ofList
        [("_vendor", .text row.vendor), ("_kind", .text row.kind),
          ("_slave_id", row.slaveId.elim .none fun id => .num id),
          ("_last_seen", .num row.lastSeen)]).get metric) := by
  have hMem : ∀ v, (metric, v) ∈ (db.latest.rows.filter fun e => (ofLex e.1).1 = label).map
      (fun e => ((ofLex e.1).2, latestValue e.2)) ↔ db.reading label metric = some v := by
    intro v
    simp only [List.mem_map, List.mem_filter, decide_eq_true_eq, Prod.mk.injEq, Db.reading,
      Option.map_eq_some_iff]
    constructor
    · rintro ⟨e, ⟨hRow, rfl⟩, rfl, rfl⟩
      exact ⟨e.2, Table.lookup_eq_some_iff.mpr hRow, rfl⟩
    · rintro ⟨r, hRow, rfl⟩
      exact ⟨_, ⟨Table.lookup_eq_some_iff.mp hRow, rfl⟩, rfl, rfl⟩
  have hNodup : (((db.latest.rows.filter fun e => (ofLex e.1).1 = label).map
      fun e => ((ofLex e.1).2, latestValue e.2)).map Prod.fst).Nodup := by
    rw [List.map_map]
    refine List.pairwise_map.mpr ((db.latest.sorted.filter _).imp_of_mem ?_)
    intro a b ha hb hLt hMetric
    have hDevice : (ofLex a.1).1 = (ofLex b.1).1 :=
      (of_decide_eq_true (List.mem_filter.mp ha).2).trans
        (of_decide_eq_true (List.mem_filter.mp hb).2).symm
    exact hLt.ne (ofLex.injective (Prod.ext hDevice hMetric))
  rw [snapshot, Dict.get_setAll hNodup]
  congr 1
  exact Option.ext fun v => (Dict.mem_iff_get (d := ⟨_, hNodup⟩)).symm.trans (hMem v)

/-- A poll of the run recorded the metric under the device. -/
def Recorded (db : Db ℚ) (polls : List Poll) (device metric : String) : Prop :=
  ∃ before p after rows, polls = before ++ p :: after ∧
    pollRows p.settings (run Db.recordPoll db before) p.result p.ts = some rows ∧
      ∃ v, rows.reading device metric = some v

/-- Nothing that a run recorded is ever forgotten. -/
theorem reading_run_isSome (db : Db ℚ) (polls : List Poll) (device metric : String) :
    ((run Db.recordPoll db polls).reading device metric).isSome = true ↔
      (db.reading device metric).isSome = true ∨ Recorded db polls device metric := by
  induction polls using List.reverseRecOn with
  | nil =>
      refine ⟨Or.inl, fun h => h.elim id ?_⟩
      rintro ⟨before, p, after, _, hSplit, _⟩
      cases before <;> cases hSplit
  | append_singleton before p ih =>
      have hEarlier : Recorded db before device metric →
          Recorded db (before ++ [p]) device metric := by
        rintro ⟨front, q, rest, rows, rfl, hRows⟩
        exact ⟨front, q, rest ++ [p], rows, by simp, hRows⟩
      rw [run_concat, Db.recordPoll]
      cases hRows : pollRows p.settings (run Db.recordPoll db before) p.result p.ts with
      | none =>
          refine ih.trans (or_congr_right ⟨hEarlier, ?_⟩)
          rintro ⟨front, q, rest, rows, hSplit, hRows', hv⟩
          rcases split_concat hSplit with ⟨rfl, rfl⟩ | ⟨rest', rfl⟩
          · rw [hRows] at hRows'
            cases hRows'
          · exact ⟨front, q, rest', rows, rfl, hRows', hv⟩
      | some rows =>
          rw [Option.elim_some, reading_recordPoll, Option.isSome_or, Bool.or_eq_true, ih]
          constructor
          · rintro (hNow | hOld | hRecorded)
            · exact Or.inr ⟨before, p, [], rows, rfl, hRows, Option.isSome_iff_exists.mp hNow⟩
            · exact Or.inl hOld
            · exact Or.inr (hEarlier hRecorded)
          · rintro (hOld | ⟨front, q, rest, rows', hSplit, hRows', hv⟩)
            · exact Or.inr (Or.inl hOld)
            · rcases split_concat hSplit with ⟨rfl, rfl⟩ | ⟨rest', rfl⟩
              · rw [hRows] at hRows'
                cases hRows'
                exact Or.inl (Option.isSome_iff_exists.mpr hv)
              · exact Or.inr (Or.inr ⟨front, q, rest', rows', rfl, hRows', hv⟩)

/-! ### `get_latest` -/

/-- The loop over `latest`. A text under `_updated_at`, at which `max` would raise,
counts as zero here. -/
def takeRow (out : Dict PollDict) (e : (String ×ₗ String) × LatestRow ℚ) : Dict PollDict :=
  let d := (out.get (ofLex e.1).1).getD (Dict.ofList [("_updated_at", .num e.2.ts)])
  let updatedAt := max ((PyVal.number (d.get "_updated_at")).getD 0) e.2.ts
  out.set (ofLex e.1).1
    ((d.set "_updated_at" (.num updatedAt)).set (ofLex e.1).2 (latestValue e.2))

/-- The loop over `device_meta`. -/
def attachMeta (out : Dict PollDict) (e : String × DeviceMeta) : Dict PollDict :=
  out.set e.1 (((out.get e.1).getD Dict.empty).setAll
    [("_vendor", .text e.2.vendor), ("_kind", .text e.2.kind),
      ("_slave_id", e.2.slaveId.elim .none fun id => .num id), ("_first_seen", .num e.2.firstSeen),
      ("_last_seen", .num e.2.lastSeen)])

/-- `Store.get_latest`. -/
def getLatest (db : Db ℚ) : Dict PollDict :=
  db.deviceMeta.rows.foldl attachMeta (db.latest.rows.foldl takeRow Dict.empty)

/-- The keys that `get_latest` adds of its own. -/
def latestMetaKeys : List String :=
  ["_updated_at", "_vendor", "_kind", "_slave_id", "_first_seen", "_last_seen"]

/-- What an answer of `get_latest` says about a metric of a device. -/
def shown (out : Dict PollDict) (device metric : String) : Option PyVal :=
  (out.get device).bind fun d => d.get metric

theorem shown_takeRow {metric : String} (hUpdated : metric ≠ "_updated_at") (out : Dict PollDict)
    (e : (String ×ₗ String) × LatestRow ℚ) (device : String) :
    shown (takeRow out e) device metric =
      (if e.1 = toLex (device, metric) then some (latestValue e.2) else none).or
        (shown out device metric) := by
  obtain ⟨key, row⟩ := e
  obtain ⟨⟨device', metric'⟩, rfl⟩ := toLex.surjective key
  simp only [shown, takeRow, Dict.get_set, ofLex_toLex]
  by_cases hDevice : device = device'
  · subst hDevice
    by_cases hKey : metric = metric'
    · subst hKey
      simp
    · have hFresh : (Dict.ofList [("_updated_at", PyVal.num row.ts)]).get metric = none :=
        Dict.get_setAll_of_notMem (by simpa using hUpdated) _
      cases out.get device with
      | none => simp [hKey, hUpdated, hFresh, Ne.symm hKey]
      | some d => simp [hKey, hUpdated, Ne.symm hKey]
  · simp [hDevice, Ne.symm hDevice]

theorem shown_rows {metric : String} (hUpdated : metric ≠ "_updated_at") (out : Dict PollDict)
    (rows : List ((String ×ₗ String) × LatestRow ℚ)) (device : String) :
    shown (rows.foldl takeRow out) device metric =
      ((Table.lastRow (toLex (device, metric)) rows).map latestValue).or
        (shown out device metric) := by
  induction rows generalizing out with
  | nil => rfl
  | cons e rows ih =>
      rw [List.foldl_cons, ih, shown_takeRow hUpdated, Table.lastRow, Option.map_or,
        Option.or_assoc]
      split_ifs <;> rfl

theorem shown_attachMeta {metric : String} (hMetric : metric ∉ latestMetaKeys)
    (out : Dict PollDict) (e : String × DeviceMeta) (device : String) :
    shown (attachMeta out e) device metric = shown out device metric := by
  have hNotMem : metric ∉ ["_vendor", "_kind", "_slave_id", "_first_seen", "_last_seen"] :=
    fun hMem => hMetric (List.mem_cons_of_mem _ hMem)
  simp only [shown, attachMeta, Dict.get_set]
  split_ifs with hDevice
  · rw [Option.bind_some, Dict.get_setAll_of_notMem hNotMem, hDevice]
    cases out.get e.1 <;> rfl
  · rfl

/-- Beside its own keys `get_latest` shows what `latest` holds. -/
theorem shown_getLatest {metric : String} (hMetric : metric ∉ latestMetaKeys) (db : Db ℚ)
    (device : String) : shown (getLatest db) device metric = db.reading device metric := by
  have hMeta : ∀ (rows : List (String × DeviceMeta)) (out : Dict PollDict),
      shown (rows.foldl attachMeta out) device metric = shown out device metric := by
    intro rows
    induction rows with
    | nil => exact fun _ => rfl
    | cons e rows ih => exact fun out => (ih _).trans (shown_attachMeta hMetric out e device)
  have hUpdated : metric ≠ "_updated_at" := by
    rintro rfl
    exact hMetric (by decide)
  rw [getLatest, hMeta, shown_rows hUpdated, Table.lastRow_rows]
  exact Option.or_none

/-- The kind of a device is the one in `device_meta`. -/
theorem shown_kind (db : Db ℚ) (device : String) :
    shown (getLatest db) device "_kind" =
      ((db.deviceMeta.lookup device).map fun row => .text row.kind).or
        (db.reading device "_kind") := by
  have hAttach : ∀ (out : Dict PollDict) (e : String × DeviceMeta),
      shown (attachMeta out e) device "_kind" =
        (if e.1 = device then some (.text e.2.kind) else none).or (shown out device "_kind") := by
    intro out e
    simp only [shown, attachMeta, Dict.get_set]
    by_cases hDevice : e.1 = device
    · subst hDevice
      simp [Dict.get_setAll, lookup_cons_ite]
    · simp [hDevice, Ne.symm hDevice]
  have hMeta : ∀ (rows : List (String × DeviceMeta)) (out : Dict PollDict),
      shown (rows.foldl attachMeta out) device "_kind" =
        ((Table.lastRow device rows).map fun row => .text row.kind).or
          (shown out device "_kind") := by
    intro rows
    induction rows with
    | nil => exact fun _ => rfl
    | cons e rows ih =>
        intro out
        rw [List.foldl_cons, ih, hAttach, Table.lastRow, Option.map_or, Option.or_assoc]
        split_ifs <;> rfl
  rw [getLatest, hMeta, shown_rows (by decide), Table.lastRow_rows, Table.lastRow_rows]
  exact congrArg _ Option.or_none

/-! ### The order of the devices -/

/-- The loop over `latest` takes the devices in the order of their names. -/
theorem keys_rows {rows : List ((String ×ₗ String) × LatestRow ℚ)} (hSorted : rows.Pairwise KeyLt)
    {out : Dict PollDict} (hOut : out.keys.Pairwise (· < ·))
    (hBefore : ∀ k ∈ out.keys, ∀ e ∈ rows, k ≤ (ofLex e.1).1) :
    (rows.foldl takeRow out).keys.Pairwise (· < ·) ∧
      ∀ k, k ∈ (rows.foldl takeRow out).keys ↔
        k ∈ out.keys ∨ ∃ e ∈ rows, (ofLex e.1).1 = k := by
  induction rows generalizing out with
  | nil => exact ⟨hOut, fun k => by simp⟩
  | cons e rows ih =>
      obtain ⟨hFirst, hRest⟩ := List.pairwise_cons.mp hSorted
      have hKeys : (takeRow out e).keys =
          if (ofLex e.1).1 ∈ out.keys then out.keys else out.keys ++ [(ofLex e.1).1] :=
        Dict.keys_set _ _ _
      have hMem : ∀ k, k ∈ (takeRow out e).keys ↔ k ∈ out.keys ∨ k = (ofLex e.1).1 := by
        intro k
        rw [hKeys]
        split_ifs with hOld
        · exact ⟨Or.inl, fun h => h.elim id fun hEq => hEq ▸ hOld⟩
        · rw [List.mem_append, List.mem_singleton]
      have hNext : (takeRow out e).keys.Pairwise (· < ·) := by
        rw [hKeys]
        split_ifs with hOld
        · exact hOut
        · refine List.pairwise_append.mpr ⟨hOut, List.pairwise_singleton _ _, fun k hk k' hk' => ?_⟩
          rw [List.mem_singleton.mp hk']
          exact lt_of_le_of_ne (hBefore k hk e List.mem_cons_self) fun hEq => hOld (hEq ▸ hk)
      have hLater : ∀ k ∈ (takeRow out e).keys, ∀ e' ∈ rows, k ≤ (ofLex e'.1).1 := by
        intro k hk e' he'
        rcases (hMem k).mp hk with hOld | rfl
        · exact hBefore k hOld e' (List.mem_cons_of_mem _ he')
        · rcases Prod.Lex.toLex_lt_toLex.mp (hFirst e' he') with hLt | ⟨hEq, -⟩
          · exact hLt.le
          · exact hEq.le
      obtain ⟨hAll, hIff⟩ := ih hRest hNext hLater
      refine ⟨hAll, fun k => (hIff k).trans ?_⟩
      rw [hMem, or_assoc, List.exists_mem_cons_iff, @eq_comm _ k]

/-- A device with a reading. -/
def Listed (db : Db ℚ) (label : String) : Prop :=
  ∃ metric, (db.reading label metric).isSome = true

theorem listed_iff {db : Db ℚ} {label : String} :
    Listed db label ↔ ∃ e ∈ db.latest.rows, (ofLex e.1).1 = label := by
  constructor
  · rintro ⟨metric, hReading⟩
    rw [Db.reading, Option.isSome_map] at hReading
    obtain ⟨row, hRow⟩ := Option.isSome_iff_exists.mp hReading
    exact ⟨_, Table.lookup_eq_some_iff.mp hRow, rfl⟩
  · rintro ⟨⟨key, row⟩, hRow, rfl⟩
    refine ⟨(ofLex key).2, ?_⟩
    rw [Db.reading, Option.isSome_map, Prod.mk.eta, toLex_ofLex, Table.lookup_eq_some_iff.mpr hRow]
    rfl

/-- The loop over `device_meta` adds the devices that are not there yet. -/
theorem keys_attachMeta (rows : List (String × DeviceMeta)) (out : Dict PollDict) :
    ∃ rest, (rows.foldl attachMeta out).keys = out.keys ++ rest ∧
      ∀ k, k ∈ out.keys ++ rest ↔ k ∈ out.keys ∨ ∃ row, (k, row) ∈ rows := by
  induction rows generalizing out with
  | nil => exact ⟨[], (List.append_nil _).symm, fun k => by simp⟩
  | cons e rows ih =>
      obtain ⟨rest, hKeys, hMem⟩ := ih (attachMeta out e)
      have hFirst : (attachMeta out e).keys =
          out.keys ++ if e.1 ∈ out.keys then [] else [e.1] := by
        rw [attachMeta, Dict.keys_set]
        split_ifs
        · exact (List.append_nil _).symm
        · rfl
      rw [List.foldl_cons, hKeys, hFirst, List.append_assoc]
      refine ⟨_, rfl, fun k => ?_⟩
      rw [← List.append_assoc, ← hFirst, hMem, hFirst, List.mem_append]
      have hHead : (∃ row, (k, row) ∈ e :: rows) ↔ k = e.1 ∨ ∃ row, (k, row) ∈ rows := by
        simp only [List.mem_cons, exists_or]
        refine or_congr_left ⟨fun h => ?_, fun h => ⟨e.2, Prod.ext h rfl⟩⟩
        obtain ⟨row, hEq⟩ := h
        exact congrArg Prod.fst hEq
      rw [hHead]
      split_ifs with hOld
      · simp only [List.not_mem_nil, or_false]
        exact ⟨fun h => h.imp_right Or.inr, fun h => h.elim Or.inl fun h =>
          h.elim (fun hEq => Or.inl (hEq ▸ hOld)) Or.inr⟩
      · rw [List.mem_singleton, or_assoc]

/-- `get_latest` lists the devices with readings by their names, and then the others that
`device_meta` has. -/
theorem keys_getLatest (db : Db ℚ) :
    ∃ listed rest, (getLatest db).keys = listed ++ rest ∧ listed.Pairwise (· < ·) ∧
      (∀ label, label ∈ listed ↔ Listed db label) ∧
      ∀ label, label ∈ listed ++ rest ↔ Listed db label ∨ db.deviceMeta.Has label := by
  have hNothing : (Dict.empty : Dict PollDict).keys = [] := rfl
  have hStart : (Dict.empty : Dict PollDict).keys.Pairwise (· < ·) := List.Pairwise.nil
  obtain ⟨hSorted, hRows⟩ := keys_rows db.latest.sorted hStart fun k hk => by cases hk
  obtain ⟨rest, hKeys, hMem⟩ := keys_attachMeta db.deviceMeta.rows
    (db.latest.rows.foldl takeRow Dict.empty)
  have hListed : ∀ label, label ∈ (db.latest.rows.foldl takeRow Dict.empty).keys ↔
      Listed db label := by
    intro label
    rw [hRows, listed_iff, hNothing]
    simp only [List.not_mem_nil, false_or]
  refine ⟨_, rest, hKeys, hSorted, hListed, fun label => ?_⟩
  rw [hMem, hListed]
  exact Iff.rfl

end WattPost.Storage
