import WattPost.MqttIn.Service
import WattPost.Storage.FloatPoll

/-! One bad reading among good ones. The rows of all devices share their batches and
one transaction, so what a single value makes of them decides over the whole poll. -/
namespace WattPost.Storage

open Keyed PyDict Vendors

/-! ### What a poll persists -/

/-- Every finite number and every text of the devices is stored under its metric. -/
def PersistsAll (devices : Dict FloatDict) (ts : Nat) (db : Db SqlFloat) : Prop :=
  ∀ label data, devices.get label = some data → ∀ k v, data.get k = some v → k ∉ metaKeys →
    (∀ q, v.finiteValue = some q →
      (db.samples.lookup ⟨ts, label, k⟩).map Subtype.val = some (.finite q)) ∧
    ∀ s, v = .text (.utf8 s) → db.samplesStr.lookup ⟨ts, label, k⟩ = some s

/-- A value that neither `float` nor SQLite refuses. -/
def Storable (v : PyScalar) : Prop :=
  match v with
  | .int n => n.natAbs < PyFloat.overflow
  | .float x => x ≠ .nan
  | .text s => s ≠ .surrogates
  | _ => True

/-- No value of the poll is refused: not of a device, nor of its cells, nor of the
aggregate. -/
structure Clean (settings : BankSettings) (db : Db SqlFloat) (devices : Dict FloatDict)
    (ts : Nat) : Prop where
  values : ∀ label data, devices.get label = some data → ∀ k v, data.get k = some v →
    k ∉ metaKeys → Storable v
  cells : ∀ label data, devices.get label = some data →
    ∃ rows, derivedRows label data = some rows ∧ ∀ x ∈ rows, x.2.2 ≠ .nan
  bank : ∃ bank, floatBankOf settings db devices ts = some bank ∧
    ∀ b, bank = some b → ∀ k v, b.get k = some v → Storable v

/-- The numeric rows that `record_poll` adds under the label of a device. -/
def addedNum (settings : BankSettings) (db : Db SqlFloat) (devices : Dict FloatDict) (ts : Nat)
    (label : String) (data : FloatDict) : List (String × String × PyFloat) :=
  (derivedRows label data).getD [] ++
    ((floatBankOf settings db devices ts).join.bind fun b => numRows "bank" b.entries).getD []

/-- The text rows that it adds. -/
def addedStr (settings : BankSettings) (db : Db SqlFloat) (devices : Dict FloatDict) (ts : Nat) :
    List (String × String × PyStr) :=
  (floatBankOf settings db devices ts).join.elim [] fun b => strRows "bank" b.entries

/-- What is added under the name of a metric says what the device says. -/
structure NotOverridden (settings : BankSettings) (db : Db SqlFloat) (devices : Dict FloatDict)
    (ts : Nat) : Prop where
  numbers : ∀ label data, devices.get label = some data → ∀ k v, data.get k = some v →
    k ∉ metaKeys → ∀ q, v.finiteValue = some q →
      ∀ x, lastReading label k (addedNum settings db devices ts label data) = some x →
        x = .finite q
  texts : ∀ label data, devices.get label = some data → ∀ k v, data.get k = some v →
    k ∉ metaKeys → ∀ s, v = .text (.utf8 s) →
      ∀ t, lastReading label k (addedStr settings db devices ts) = some t → t = .utf8 s

/-! ### Rows that can be gathered and bound -/

theorem numRows_isSome_iff (label : String) {entries : List (String × PyScalar)} :
    (numRows label entries).isSome = true ↔ ∀ e ∈ entries, e.2.number.isSome = true := by
  rw [numRows, Option.isSome_map, mapM_isSome_iff]
  simp [numRow]

theorem mem_numRows {label : String} {entries : List (String × PyScalar)}
    {rows : List (String × String × PyFloat)} (h : numRows label entries = some rows)
    {label' k : String} {x : PyFloat} :
    (label', k, x) ∈ rows ↔
      label' = label ∧ ∃ v, (k, v) ∈ entries ∧ v.number = some (some x) := by
  obtain ⟨found, hFound, rfl⟩ := Option.map_eq_some_iff.mp h
  rw [List.reduceOption_mem_iff, mem_mapM hFound]
  constructor
  · rintro ⟨⟨k', v⟩, hMem, hRow⟩
    simp only [numRow, Option.map_eq_some_iff, Prod.mk.injEq] at hRow
    obtain ⟨_, hNumber, y, rfl, rfl, rfl, rfl⟩ := hRow
    exact ⟨rfl, v, hMem, hNumber⟩
  · rintro ⟨rfl, v, hMem, hNumber⟩
    exact ⟨(k, v), hMem, by simp [numRow, hNumber]⟩

theorem mem_strRows {label : String} {entries : List (String × PyScalar)} {label' k : String}
    {s : PyStr} :
    (label', k, s) ∈ strRows label entries ↔ label' = label ∧ (k, .text s) ∈ entries := by
  rw [strRows, List.mem_filterMap]
  constructor
  · rintro ⟨⟨k', v⟩, hMem, hRow⟩
    unfold strRow at hRow
    split at hRow
    · next hText =>
        cases hRow
        dsimp only at hText
        exact ⟨rfl, hText ▸ hMem⟩
    · cases hRow
  · rintro ⟨rfl, hMem⟩
    exact ⟨_, hMem, rfl⟩

theorem storable_iff {v : PyScalar} :
    Storable v ↔
      v.number.isSome = true ∧ v.number ≠ some (some .nan) ∧ v ≠ .text .surrogates := by
  cases v with
  | int n => by_cases h : n.natAbs < PyFloat.overflow <;>
      simp [Storable, PyScalar.number, PyFloat.ofInt, h]
  | _ => simp [Storable, PyScalar.number]

/-- The rows of some entries are gathered and bound just when each value is storable. -/
theorem entries_storable_iff (label : String) {entries : List (String × PyScalar)} :
    (∀ e ∈ entries, Storable e.2) ↔
      (∃ rows, numRows label entries = some rows ∧ ∀ x ∈ rows, x.2.2 ≠ .nan) ∧
        ∀ x ∈ strRows label entries, x.2.2 ≠ .surrogates := by
  constructor
  · intro h
    obtain ⟨rows, hRows⟩ := Option.isSome_iff_exists.mp
      ((numRows_isSome_iff label).mpr fun e he => (storable_iff.mp (h e he)).1)
    refine ⟨⟨rows, hRows, ?_⟩, ?_⟩
    · rintro ⟨label', k, x⟩ hMem rfl
      obtain ⟨_, v, hEntry, hNumber⟩ := (mem_numRows hRows).mp hMem
      exact (storable_iff.mp (h _ hEntry)).2.1 hNumber
    · rintro ⟨label', k, s⟩ hMem rfl
      obtain ⟨_, hEntry⟩ := mem_strRows.mp hMem
      exact (storable_iff.mp (h _ hEntry)).2.2 rfl
  · rintro ⟨⟨rows, hRows, hNum⟩, hStr⟩ e he
    refine storable_iff.mpr ⟨?_, ?_, ?_⟩
    · exact (numRows_isSome_iff label).mp (Option.isSome_iff_exists.mpr ⟨rows, hRows⟩) e he
    · exact fun hNan => hNum (label, e.1, .nan) ((mem_numRows hRows).mpr ⟨rfl, e.2, he, hNan⟩) rfl
    · intro hText
      exact hStr (label, e.1, .surrogates) (mem_strRows.mpr ⟨rfl, hText ▸ he⟩) rfl

theorem bindNum_isSome_iff {x : String × String × PyFloat} :
    (bindNum x).isSome = true ↔ x.2.2 ≠ .nan := by
  unfold bindNum
  split <;> simp_all

theorem bindStr_isSome_iff {x : String × String × PyStr} :
    (bindStr x).isSome = true ↔ x.2.2 ≠ .surrogates := by
  unfold bindStr
  split <;> simp_all

theorem bindRows_isSome_iff {rows : GatheredRows} :
    (bindRows rows).isSome = true ↔
      (∀ x ∈ rows.num, x.2.2 ≠ .nan) ∧ ∀ x ∈ rows.str, x.2.2 ≠ .surrogates := by
  have hNum : (rows.num.mapM bindNum).isSome = true ↔ ∀ x ∈ rows.num, x.2.2 ≠ .nan :=
    mapM_isSome_iff.trans (forall₂_congr fun _ _ => bindNum_isSome_iff)
  have hStr : (rows.str.mapM bindStr).isSome = true ↔ ∀ x ∈ rows.str, x.2.2 ≠ .surrogates :=
    mapM_isSome_iff.trans (forall₂_congr fun _ _ => bindStr_isSome_iff)
  rw [← hNum, ← hStr, bindRows]
  cases rows.num.mapM bindNum <;> cases rows.str.mapM bindStr <;> simp

section Poll

variable {settings : BankSettings} {db : Db SqlFloat} {result : FloatResult} {ts : Nat}

theorem mem_answeredFloat {devices : Dict FloatDict} {label : String} {data : FloatDict} :
    (label, data) ∈ answeredFloat devices ↔
      devices.get label = some data ∧ data.entries ≠ [] := by
  simp [answeredFloat, Dict.mem_iff_get]

theorem mem_metricEntries {data : FloatDict} {k : String} {v : PyScalar} :
    (k, v) ∈ metricEntries data ↔ data.get k = some v ∧ k ∉ metaKeys := by
  simp [metricEntries, Dict.mem_iff_get]

/-- The rows of a device are gathered and bound just when its values and its cells
are storable. -/
theorem deviceRows_bound_iff {label : String} {data : FloatDict} :
    ((∃ rows, deviceRows (label, data) = some rows ∧ ∀ x ∈ rows, x.2.2 ≠ .nan) ∧
        ∀ x ∈ strRows label (metricEntries data), x.2.2 ≠ .surrogates) ↔
      (∀ e ∈ metricEntries data, Storable e.2) ∧
        ∃ rows, derivedRows label data = some rows ∧ ∀ x ∈ rows, x.2.2 ≠ .nan := by
  rw [entries_storable_iff label]
  constructor
  · rintro ⟨⟨rows, hRows, hNum⟩, hStr⟩
    simp only [deviceRows, Option.bind_eq_bind, Option.bind_eq_some_iff] at hRows
    obtain ⟨own, hOwn, derived, hDerived, hEq⟩ := hRows
    cases hEq
    exact ⟨⟨⟨own, hOwn, fun x hx => hNum x (List.mem_append_left _ hx)⟩, hStr⟩, derived,
      hDerived, fun x hx => hNum x (List.mem_append_right _ hx)⟩
  · rintro ⟨⟨⟨own, hOwn, hNum⟩, hStr⟩, derived, hDerived, hCells⟩
    refine ⟨⟨own ++ derived, by simp [deviceRows, hOwn, hDerived], ?_⟩, hStr⟩
    intro x hx
    exact (List.mem_append.mp hx).elim (hNum x) (hCells x)

/-- The bank's rows likewise. -/
theorem bankRows_bound_iff {bank : Option FloatDict} :
    ((∃ rows, bank.elim (some []) (fun b => numRows "bank" b.entries) = some rows ∧
        ∀ x ∈ rows, x.2.2 ≠ .nan) ∧
      ∀ x ∈ bank.elim [] (fun b => strRows "bank" b.entries), x.2.2 ≠ .surrogates) ↔
      ∀ b, bank = some b → ∀ k v, b.get k = some v → Storable v := by
  cases bank with
  | none => simp
  | some b =>
      rw [Option.elim_some, Option.elim_some, ← entries_storable_iff]
      simp [← Dict.mem_iff_get]

theorem exists_gatherRows_iff {g : GatheredRows} (h : gatherRows settings db result ts = some g) :
    ∃ num bank bankNum, (answeredFloat result.devices).mapM deviceRows = some num ∧
      floatBankOf settings db result.devices ts = some bank ∧
      bank.elim (some []) (fun b => numRows "bank" b.entries) = some bankNum ∧
      g.ts = ts ∧ g.num = num.flatten ++ bankNum ∧
      g.str = (answeredFloat result.devices).flatMap (fun e => strRows e.1 (metricEntries e.2)) ++
        bank.elim [] fun b => strRows "bank" b.entries := by
  simp only [gatherRows, Option.bind_eq_bind, Option.bind_eq_some_iff] at h
  obtain ⟨num, hNum, bank, hBank, bankNum, hBankNum, hEq⟩ := h
  cases hEq
  exact ⟨num, bank, bankNum, hNum, hBank, hBankNum, rfl, rfl, rfl⟩

/-- Nothing of a poll that is written is refused. -/
theorem clean_of_bound
    (h : ((gatherRows settings db result ts).bind bindRows).isSome = true) :
    Clean settings db result.devices ts := by
  obtain ⟨rows, hRows⟩ := Option.isSome_iff_exists.mp h
  obtain ⟨g, hGather, hBind⟩ := Option.bind_eq_some_iff.mp hRows
  obtain ⟨hNum, hStr⟩ := bindRows_isSome_iff.mp (Option.isSome_iff_exists.mpr ⟨rows, hBind⟩)
  obtain ⟨num, bank, bankNum, hDevices, hBank, hBankNum, _, hGNum, hGStr⟩ :=
    exists_gatherRows_iff hGather
  rw [hGNum] at hNum
  rw [hGStr] at hStr
  have hDevice : ∀ label data, (label, data) ∈ answeredFloat result.devices →
      (∀ e ∈ metricEntries data, Storable e.2) ∧
        ∃ rows, derivedRows label data = some rows ∧ ∀ x ∈ rows, x.2.2 ≠ .nan := by
    intro label data hMem
    obtain ⟨chunk, hChunk⟩ := mem_of_mapM hDevices hMem
    refine deviceRows_bound_iff.mp ⟨⟨chunk, hChunk, fun x hx => hNum x ?_⟩,
      fun x hx => hStr x ?_⟩
    · exact List.mem_append_left _
        (List.mem_flatten.mpr ⟨chunk, (mem_mapM hDevices).mpr ⟨_, hMem, hChunk⟩, hx⟩)
    · exact List.mem_append_left _ (List.mem_flatMap.mpr ⟨_, hMem, hx⟩)
  refine ⟨fun label data hData k v hv hk => ?_, fun label data hData => ?_, bank, hBank,
    bankRows_bound_iff.mp ⟨⟨bankNum, hBankNum, fun x hx => ?_⟩, fun x hx => ?_⟩⟩
  · have hEntries : data.entries ≠ [] := by
      intro hNil
      rw [Dict.get, hNil] at hv
      cases hv
    exact (hDevice label data (mem_answeredFloat.mpr ⟨hData, hEntries⟩)).1 (k, v)
      (mem_metricEntries.mpr ⟨hv, hk⟩)
  · by_cases hEntries : data.entries = []
    · have hKind : floatKind data ≠ "smart_battery" := by
        rw [floatKind, Dict.get, hEntries]
        decide
      exact ⟨[], by rw [derivedRows, if_neg hKind], by simp⟩
    · exact (hDevice label data (mem_answeredFloat.mpr ⟨hData, hEntries⟩)).2
  · exact hNum x (List.mem_append_right _ hx)
  · exact hStr x (List.mem_append_right _ hx)

/-- A poll of which nothing is refused is written. -/
theorem bound_of_clean (h : Clean settings db result.devices ts) :
    ((gatherRows settings db result ts).bind bindRows).isSome = true := by
  have hDevice : ∀ e ∈ answeredFloat result.devices,
      (∃ rows, deviceRows e = some rows ∧ ∀ x ∈ rows, x.2.2 ≠ .nan) ∧
        ∀ x ∈ strRows e.1 (metricEntries e.2), x.2.2 ≠ .surrogates := by
    rintro ⟨label, data⟩ hMem
    obtain ⟨hData, _⟩ := mem_answeredFloat.mp hMem
    refine deviceRows_bound_iff.mpr ⟨?_, h.cells label data hData⟩
    rintro ⟨k, v⟩ hEntry
    obtain ⟨hv, hk⟩ := mem_metricEntries.mp hEntry
    exact h.values label data hData k v hv hk
  obtain ⟨num, hNum⟩ := exists_mapM fun e he =>
    (hDevice e he).1.imp fun rows hRows => hRows.1
  obtain ⟨bank, hBank, hStorable⟩ := h.bank
  obtain ⟨⟨bankNum, hBankNum, hBankClean⟩, hBankStr⟩ := bankRows_bound_iff.mpr hStorable
  have hGather : ∃ g, gatherRows settings db result ts = some g := by
    simp [gatherRows, hNum, hBank, hBankNum]
  obtain ⟨g, hGather⟩ := hGather
  rw [hGather, Option.bind_some, bindRows_isSome_iff]
  obtain ⟨num', bank', bankNum', hNum', hBank', hBankNum', _, hGNum, hGStr⟩ :=
    exists_gatherRows_iff hGather
  obtain rfl : num = num' := Option.some.inj (hNum.symm.trans hNum')
  obtain rfl : bank = bank' := Option.some.inj (hBank.symm.trans hBank')
  obtain rfl : bankNum = bankNum' := Option.some.inj (hBankNum.symm.trans hBankNum')
  rw [hGNum, hGStr]
  refine ⟨fun x hx => ?_, fun x hx => ?_⟩
  · rcases List.mem_append.mp hx with hx | hx
    · obtain ⟨chunk, hChunk, hx⟩ := List.mem_flatten.mp hx
      obtain ⟨e, he, hRows⟩ := (mem_mapM hNum).mp hChunk
      obtain ⟨⟨rows, hRows', hClean⟩, _⟩ := hDevice e he
      obtain rfl : chunk = rows := Option.some.inj (hRows.symm.trans hRows')
      exact hClean x hx
    · exact hBankClean x hx
  · rcases List.mem_append.mp hx with hx | hx
    · obtain ⟨e, he, hx⟩ := List.mem_flatMap.mp hx
      exact (hDevice e he).2 x hx
    · exact hBankStr x hx

/-- A poll is written just when nothing of it is refused. -/
theorem gathered_bound_iff :
    ((gatherRows settings db result ts).bind bindRows).isSome = true ↔
      Clean settings db result.devices ts :=
  ⟨clean_of_bound, bound_of_clean⟩

/-! ### What is stored -/

/-- Binding changes no value. -/
theorem lastReading_bound {g : GatheredRows} {rows : PollRows SqlFloat}
    (h : bindRows g = some rows) (label k : String) :
    (lastReading label k rows.num).map Subtype.val = lastReading label k g.num ∧
      (lastReading label k rows.str).map PyStr.utf8 = lastReading label k g.str ∧
        rows.ts = g.ts := by
  simp only [bindRows, Option.bind_eq_bind, Option.bind_eq_some_iff] at h
  obtain ⟨num, hNum, str, hStr, hEq⟩ := h
  cases hEq
  have hNumBack := map_of_mapM (g := fun x => (x.1, x.2.1, x.2.2.val)) (fun a b hb => by
    unfold bindNum at hb
    split at hb <;> cases hb
    rfl) hNum
  have hStrBack := map_of_mapM (g := fun x => (x.1, x.2.1, PyStr.utf8 x.2.2)) (fun a b hb => by
    unfold bindStr at hb
    split at hb
    · next s hs =>
        cases hb
        rw [← hs]
    · cases hb) hStr
  rw [← hNumBack, ← hStrBack, ← lastReading_map, ← lastReading_map]
  exact ⟨rfl, rfl, rfl⟩

/-- Of the rows of several devices a device's own metrics are its own rows. -/
theorem lastReading_flatten {α β : Type} {f : String × β → Option (List (String × String × α))}
    (hLabel : ∀ e rows, f e = some rows → ∀ x ∈ rows, x.1 = e.1) {l : List (String × β)}
    (hNodup : (l.map Prod.fst).Nodup) {ls : List (List (String × String × α))}
    (h : l.mapM f = some ls) {e : String × β} (he : e ∈ l) {rows : List (String × String × α)}
    (hRows : f e = some rows) (k : String) :
    lastReading e.1 k ls.flatten = lastReading e.1 k rows := by
  induction l generalizing ls with
  | nil => cases he
  | cons a l ih =>
      obtain ⟨hNotMem, hRest⟩ := List.nodup_cons.mp hNodup
      obtain ⟨chunk, hChunk, rest, hRest', rfl⟩ := mapM_cons_eq_some.mp h
      rw [List.flatten_cons, lastReading_append]
      rcases List.mem_cons.mp he with rfl | he
      · obtain rfl : chunk = rows := Option.some.inj (hChunk.symm.trans hRows)
        have hNone : lastReading e.1 k rest.flatten = none := by
          rw [lastReading_eq_none]
          intro v hMem
          obtain ⟨other, hOther, hMem⟩ := List.mem_flatten.mp hMem
          obtain ⟨e', he', hf⟩ := (mem_mapM hRest').mp hOther
          exact hNotMem ((hLabel e' other hf _ hMem) ▸ List.mem_map_of_mem he')
        rw [hNone, Option.none_or]
      · have hNone : lastReading e.1 k chunk = none := by
          rw [lastReading_eq_none]
          intro v hMem
          exact hNotMem ((hLabel a chunk hChunk _ hMem) ▸ List.mem_map_of_mem he)
        rw [ih hRest hRest' he, hNone, Option.or_none]

theorem deviceRows_label {e : String × FloatDict} {rows : List (String × String × PyFloat)}
    (h : deviceRows e = some rows) : ∀ x ∈ rows, x.1 = e.1 := by
  simp only [deviceRows, Option.bind_eq_bind, Option.bind_eq_some_iff] at h
  obtain ⟨own, hOwn, derived, hDerived, hEq⟩ := h
  cases hEq
  rintro ⟨label, k, x⟩ hx
  rcases List.mem_append.mp hx with hx | hx
  · exact ((mem_numRows hOwn).mp hx).1
  · unfold derivedRows at hDerived
    split at hDerived
    · obtain ⟨cells, _, rfl⟩ := Option.map_eq_some_iff.mp hDerived
      split at hx
      · simp only [List.mem_cons, List.not_mem_nil, or_false, Prod.mk.injEq] at hx
        rcases hx with ⟨rfl, _⟩ | ⟨rfl, _⟩ | ⟨rfl, _⟩ <;> rfl
      · cases hx
    · cases hDerived
      cases hx

/-- The number that a device reports under a metric. -/
theorem lastReading_numRows {label k : String} {data : FloatDict} {v : PyScalar}
    {rows : List (String × String × PyFloat)}
    (hRows : numRows label (metricEntries data) = some rows) (hv : data.get k = some v)
    (hk : k ∉ metaKeys) : lastReading label k rows = v.number.join := by
  apply lastReading_eq
  intro x
  rw [mem_numRows hRows]
  constructor
  · rintro ⟨_, w, hEntry, hNumber⟩
    obtain rfl : v = w := Option.some.inj (hv.symm.trans (mem_metricEntries.mp hEntry).1)
    rw [hNumber]
    rfl
  · intro hJoin
    exact ⟨rfl, v, mem_metricEntries.mpr ⟨hv, hk⟩, Option.join_eq_some_iff.mp hJoin⟩

theorem lastReading_strRows {devices : Dict FloatDict} {label k : String} {data : FloatDict}
    {s : PyStr} (hData : devices.get label = some data) (hs : data.get k = some (.text s))
    (hk : k ∉ metaKeys) :
    lastReading label k
      ((answeredFloat devices).flatMap fun e => strRows e.1 (metricEntries e.2)) = some s := by
  apply lastReading_eq
  intro t
  rw [List.mem_flatMap]
  constructor
  · rintro ⟨⟨label', data'⟩, he, hRow⟩
    obtain ⟨rfl, hEntry⟩ := mem_strRows.mp hRow
    obtain rfl : data = data' := Option.some.inj (hData.symm.trans (mem_answeredFloat.mp he).1)
    have hText := hs.symm.trans (mem_metricEntries.mp hEntry).1
    cases hText
    rfl
  · rintro ⟨⟩
    have hEntries : data.entries ≠ [] := by
      intro hNil
      rw [Dict.get, hNil] at hs
      cases hs
    exact ⟨(label, data), mem_answeredFloat.mpr ⟨hData, hEntries⟩,
      mem_strRows.mpr ⟨rfl, mem_metricEntries.mpr ⟨hs, hk⟩⟩⟩

theorem number_of_finiteValue {v : PyScalar} {q : ℚ} (h : v.finiteValue = some q) :
    v.number.join = some (.finite q) := by
  unfold PyScalar.finiteValue at h
  split at h
  · next n =>
      split_ifs at h with hFits
      cases h
      simp [PyScalar.number, PyFloat.ofInt, hFits]
  · cases h
    rfl
  · cases h

/-- What a poll that is written stores of a device: what was added under the name of
the metric, or else what the device says. -/
theorem stored_of_bound {g : GatheredRows} {rows : PollRows SqlFloat}
    (hGather : gatherRows settings db result ts = some g) (hBind : bindRows g = some rows)
    {label k : String} {data : FloatDict} (hData : result.devices.get label = some data)
    {v : PyScalar} (hv : data.get k = some v) (hk : k ∉ metaKeys) :
    (∀ q, v.finiteValue = some q →
      ((Storage.recordPoll rows db).samples.lookup ⟨ts, label, k⟩).map Subtype.val =
        (lastReading label k (addedNum settings db result.devices ts label data)).or
          (some (.finite q))) ∧
      ∀ s, v = .text (.utf8 s) →
        ((Storage.recordPoll rows db).samplesStr.lookup ⟨ts, label, k⟩).map PyStr.utf8 =
          (lastReading label k (addedStr settings db result.devices ts)).or (some (.utf8 s)) := by
  obtain ⟨num, bank, bankNum, hNum, hBank, hBankNum, hTs, hGNum, hGStr⟩ :=
    exists_gatherRows_iff hGather
  obtain ⟨hBoundNum, hBoundStr, hBoundTs⟩ := lastReading_bound hBind label k
  have hTs : rows.ts = ts := hBoundTs.trans hTs
  subst hTs
  rw [lookup_samples, lookup_samplesStr, Option.map_or, Option.map_or, hBoundNum, hBoundStr,
    hGNum, hGStr, lastReading_append, lastReading_append]
  constructor
  · intro q hq
    have hEntries : data.entries ≠ [] := by
      intro hNil
      rw [Dict.get, hNil] at hv
      cases hv
    have hMem := mem_answeredFloat.mpr ⟨hData, hEntries⟩
    obtain ⟨chunk, hChunk⟩ := mem_of_mapM hNum hMem
    have hNodup : ((answeredFloat result.devices).map Prod.fst).Nodup :=
      result.devices.nodup.sublist (List.filter_sublist.map Prod.fst)
    rw [lastReading_flatten (fun _ _ => deviceRows_label) hNodup hNum hMem hChunk k]
    simp only [deviceRows, Option.bind_eq_bind, Option.bind_eq_some_iff] at hChunk
    obtain ⟨own, hOwn, derived, hDerived, hEq⟩ := hChunk
    cases hEq
    have hBankRows : ((floatBankOf settings db result.devices rows.ts).join.bind fun b =>
        numRows "bank" b.entries).getD [] = bankNum := by
      rw [hBank]
      cases bank with
      | none => exact Option.some.inj hBankNum
      | some b => exact congrArg (Option.getD · []) hBankNum
    rw [addedNum, hDerived, Option.getD_some, hBankRows, lastReading_append, lastReading_append,
      lastReading_numRows hOwn hv hk, number_of_finiteValue hq]
    cases lastReading label k bankNum <;> cases lastReading label k derived <;> rfl
  · rintro s rfl
    rw [lastReading_strRows hData hv hk, addedStr, hBank]
    cases bank with
    | none => rfl
    | some b =>
        rw [Option.elim_some, Option.join_some, Option.elim_some]
        cases lastReading label k (strRows "bank" b.entries) <;> rfl

end Poll

/-- `record_poll` keeps every finite number and every text just when nothing of the
poll is refused and nothing that it adds says otherwise. Of a poll that is refused it
keeps what the store has already. -/
theorem persists_all_iff (settings : BankSettings) (db : Db SqlFloat) (result : FloatResult)
    (ts : Nat) :
    PersistsAll result.devices ts (recordFloatPoll settings db result ts) ↔
      (Clean settings db result.devices ts ∧ NotOverridden settings db result.devices ts) ∨
        (¬ Clean settings db result.devices ts ∧ PersistsAll result.devices ts db) := by
  by_cases hClean : Clean settings db result.devices ts
  · obtain ⟨rows, hRows⟩ := Option.isSome_iff_exists.mp (gathered_bound_iff.mpr hClean)
    obtain ⟨g, hGather, hBind⟩ := Option.bind_eq_some_iff.mp hRows
    rw [recordFloatPoll, hRows, Option.elim_some]
    simp only [hClean, true_and, not_true_eq_false, false_and, or_false]
    constructor
    · intro h
      refine ⟨fun label data hData k v hv hk q hq x hx => ?_,
        fun label data hData k v hv hk s hs t ht => ?_⟩
      · have hStored := (stored_of_bound hGather hBind hData hv hk).1 q hq
        rw [(h label data hData k v hv hk).1 q hq, hx] at hStored
        exact (Option.some.inj hStored).symm
      · have hStored := (stored_of_bound hGather hBind hData hv hk).2 s hs
        rw [(h label data hData k v hv hk).2 s hs, ht] at hStored
        exact (Option.some.inj hStored).symm
    · intro h label data hData k v hv hk
      refine ⟨fun q hq => ?_, fun s hs => ?_⟩
      · rw [(stored_of_bound hGather hBind hData hv hk).1 q hq]
        cases hAdded : lastReading label k
            (addedNum settings db result.devices ts label data) with
        | none => rfl
        | some x => rw [h.numbers label data hData k v hv hk q hq x hAdded, Option.some_or]
      · have hStored := (stored_of_bound hGather hBind hData hv hk).2 s hs
        have hText : ((Storage.recordPoll rows db).samplesStr.lookup ⟨ts, label, k⟩).map
            PyStr.utf8 = some (.utf8 s) := by
          rw [hStored]
          cases hAdded : lastReading label k (addedStr settings db result.devices ts) with
          | none => rfl
          | some t => rw [h.texts label data hData k v hv hk s hs t hAdded, Option.some_or]
        obtain ⟨s', hLookup, hEq⟩ := Option.map_eq_some_iff.mp hText
        cases hEq
        exact hLookup
  · have hNone : (gatherRows settings db result ts).bind bindRows = none :=
      Option.not_isSome_iff_eq_none.mp fun h => hClean (gathered_bound_iff.mp h)
    rw [recordFloatPoll, hNone, Option.elim_none]
    simp only [hClean, false_and, not_false_eq_true, true_and, false_or]

/-! ### A `nan` on the broker -/

/-- A tank sensor that publishes `NaN` as JSON, and a room sensor that publishes
21.5, twenty seconds before a poll. -/
def brokerResult : FloatResult where
  devices := MqttIn.currentSnapshots
    (MqttIn.handleStateMessage
      (MqttIn.handleStateMessage Dict.empty ⟨"tank", "level", "json", "value"⟩
        ⟨"\x7b\"value\": NaN\x7d",
          some (.dict "\x7b'value': nan\x7d" [("value", .float .nan)])⟩ 100)
      ⟨"room", "temperature", "raw", ""⟩ ⟨"21.5", some (.float (.finite (43 / 2)))⟩ 100)
    300 120
  elapsedSeconds := 1
  errorsCount := 0
  errorsRepr := none

/-- The `nan` of the tank costs the temperature of the room, whatever the settings. -/
theorem nan_costs_the_room :
    ¬ ∃ settings : BankSettings, PersistsAll brokerResult.devices 120
      (recordFloatPoll settings Db.empty brokerResult 120) := by
  rintro ⟨settings, h⟩
  have hTank : (brokerResult.devices.get "tank").bind (fun data => data.get "level") =
      some (.float .nan) := by decide +kernel
  have hRoom : (brokerResult.devices.get "room").bind (fun data => data.get "temperature") =
      some (.float (.finite (43 / 2))) := by decide +kernel
  obtain ⟨tank, hTank, hLevel⟩ := Option.bind_eq_some_iff.mp hTank
  obtain ⟨room, hRoom, hTemperature⟩ := Option.bind_eq_some_iff.mp hRoom
  have hRefused : (gatherRows settings Db.empty brokerResult 120).bind bindRows = none :=
    Option.not_isSome_iff_eq_none.mp fun hBound =>
      (gathered_bound_iff.mp hBound).values "tank" tank hTank "level" _ hLevel (by decide) rfl
  rw [recordFloatPoll, hRefused, Option.elim_none] at h
  have hStored := (h "room" room hRoom "temperature" _ hTemperature (by decide)).1 _ rfl
  cases hStored

end WattPost.Storage
