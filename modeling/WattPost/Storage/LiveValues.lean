import WattPost.Storage.BankLatest
import WattPost.Vendors.Inverters

/-! The live values of a device whose driver leaves out what is zero. Two histories
of register images that end in the same image ought to show the same; but a field
that the last image leaves out is still in `latest` as some earlier image had it. -/
namespace WattPost.Storage

open Keyed PyDict Vendors Runs

/-- A call of `record_poll` with a device that answered every section. -/
structure ImagePoll (driver : SparseDriver) (label : String) (slaveId : UInt8) where
  image : RegisterImage
  call : Poll
  polled : call.result.devices.get label = some (driver.poll label slaveId image)

/-- The calls of a history raise nothing, so that each is recorded. -/
def AllRecorded (db : Db ℚ) (calls : List Poll) : Prop :=
  StepsOk Db.recordPoll (fun _ db p => ∃ rows, pollRows p.settings db p.result p.ts = some rows)
    db calls

/-- `get_latest` shows the same metrics of a device. -/
def SameLive (label : String) (db db' : Db ℚ) : Prop :=
  ∀ metric, PyText.startsWith metric "_" = false →
    shown (getLatest db) label metric = shown (getLatest db') label metric

section Histories

variable {driver : SparseDriver} {label : String} {slaveId : UInt8}

/-- The field of a device's result that is recorded: a number or a text. -/
def liveField (driver : SparseDriver) (label : String) (slaveId : UInt8) (image : RegisterImage)
    (metric : String) : Option PyVal :=
  let v := (driver.poll label slaveId image).get metric
  ((strOf v).map .text).or ((numOf v).map .num)

/-- The value of a field in the last of the images that has it. -/
def lastReported (driver : SparseDriver) (label : String) (slaveId : UInt8) (metric : String) :
    List RegisterImage → Option PyVal
  | [] => none
  | image :: images =>
      (lastReported driver label slaveId metric images).or
        (liveField driver label slaveId image metric)

theorem lastReported_concat (metric : String) (images : List RegisterImage)
    (image : RegisterImage) :
    lastReported driver label slaveId metric (images ++ [image]) =
      (liveField driver label slaveId image metric).or
        (lastReported driver label slaveId metric images) := by
  induction images with
  | nil => exact Option.or_none.symm
  | cons first images ih => rw [List.cons_append, lastReported, ih, Option.or_assoc, lastReported]

/-- The field under the label of the bank, where the aggregate is written too. -/
def ImagePoll.bankField (p : ImagePoll driver label slaveId) (db : Db ℚ) (metric : String) :
    Option PyVal :=
  let v := (driver.poll label slaveId p.image).get metric
  let bank := (bankOf p.call.settings db p.call.result.devices p.call.ts).join
  (((bank.bind fun b => b.strFields.lookup metric).or (strOf v)).map .text).or
    (((bank.bind fun b => b.numFields.lookup metric).or (numOf v)).map .num)

def lastBankField (metric : String) : Db ℚ → List (ImagePoll driver label slaveId) → Option PyVal
  | _, [] => none
  | db, p :: ps =>
      (lastBankField metric (db.recordPoll p.call) ps).or (p.bankField db metric)

/-- What the last image leaves out was last reported with one value in both
histories, or in neither. A device that is called "bank" shares its metrics with
the aggregate. -/
def AgreeOnDropped (rs ss : List (ImagePoll driver label slaveId))
    (lastR lastS : ImagePoll driver label slaveId) : Prop :=
  ∀ metric, PyText.startsWith metric "_" = false →
    if label = "bank" then
      lastBankField metric Db.empty (rs ++ [lastR]) = lastBankField metric Db.empty (ss ++ [lastS])
    else
      liveField driver label slaveId lastR.image metric = none →
        lastReported driver label slaveId metric (rs.map ImagePoll.image) =
          lastReported driver label slaveId metric (ss.map ImagePoll.image)

theorem notMem_metaKeys {metric : String} (h : PyText.startsWith metric "_" = false) :
    metric ∉ metaKeys := by
  have hAll : ∀ key ∈ metaKeys, PyText.startsWith key "_" = true := by decide
  intro hMem
  rw [hAll metric hMem] at h
  cases h

/-- What one call has to say about the device. -/
theorem ImagePoll.reading_rows (p : ImagePoll driver label slaveId) {db : Db ℚ}
    {rows : PollRows ℚ} (hRows : pollRows p.call.settings db p.call.result p.call.ts = some rows)
    {metric : String} (hMetric : PyText.startsWith metric "_" = false) :
    rows.reading label metric =
      if label = "bank" then p.bankField db metric
      else liveField driver label slaveId p.image metric := by
  obtain ⟨num, bank, hNum, hBank, hRowsNum, hRowsStr⟩ := pollRows_readings hRows
  have hKind := driver.get_kind_poll label slaveId p.image
  have hBattery : isBattery (driver.poll label slaveId p.image) = false := by
    rw [isBattery, kind, hKind]
    cases driver <;> decide
  have hEntries : (driver.poll label slaveId p.image).entries ≠ [] := by
    intro hNil
    rw [Dict.get, hNil] at hKind
    cases hKind
  rw [PollRows.reading, hRowsNum, hRowsStr, lastReading_append, lastReading_append,
    lastReading_deviceNum hNum p.polled hEntries hBattery (notMem_metaKeys hMetric),
    lastReading_deviceStr p.polled hEntries (notMem_metaKeys hMetric)]
  split_ifs with hLabel
  · subst hLabel
    rw [bankField, hBank]
    cases bank with
    | none => rfl
    | some b =>
        rw [Option.elim_some, Option.elim_some, lastReading_fields (nodup_numFields b),
          lastReading_fields (nodup_strFields b)]
        rfl
  · have hOther : ∀ {α : Type} (fields : BankAggregate → List (String × α)),
        lastReading label metric
          (bank.elim [] fun b => (fields b).map fun f => ("bank", f.1, f.2)) = none := by
      intro α fields
      rw [lastReading_eq_none]
      intro v hMem
      cases bank with
      | none => cases hMem
      | some b =>
          obtain ⟨f, _, hEq⟩ := List.mem_map.mp hMem
          exact hLabel (congrArg Prod.fst hEq).symm
    rw [hOther BankAggregate.numFields, hOther BankAggregate.strFields]
    rfl

/-- What a history leaves in `latest`. -/
theorem reading_history {metric : String} (hMetric : PyText.startsWith metric "_" = false)
    (ps : List (ImagePoll driver label slaveId)) {db : Db ℚ}
    (hRecorded : AllRecorded db (ps.map ImagePoll.call)) :
    (run Db.recordPoll db (ps.map ImagePoll.call)).reading label metric =
      (if label = "bank" then lastBankField metric db ps
        else lastReported driver label slaveId metric (ps.map ImagePoll.image)).or
          (db.reading label metric) := by
  induction ps generalizing db with
  | nil => split_ifs <;> rfl
  | cons p ps ih =>
      obtain ⟨⟨rows, hRows⟩, hRest⟩ := stepsOk_cons.mp hRecorded
      have hStep : (db.recordPoll p.call).reading label metric =
          (if label = "bank" then p.bankField db metric
            else liveField driver label slaveId p.image metric).or (db.reading label metric) := by
        rw [Db.recordPoll, hRows, Option.elim_some, reading_recordPoll,
          p.reading_rows hRows hMetric]
      refine (ih hRest).trans ?_
      rw [hStep, ← Option.or_assoc]
      split_ifs <;> rfl

end Histories

/-- Two histories that end in the same image show the same live values just when
what that image leaves out was last reported alike. -/
theorem same_live_iff (driver : SparseDriver) (label : String) (slaveId : UInt8)
    (rs ss : List (ImagePoll driver label slaveId)) (lastR lastS : ImagePoll driver label slaveId)
    (hImage : lastR.image = lastS.image)
    (hR : AllRecorded Db.empty ((rs ++ [lastR]).map ImagePoll.call))
    (hS : AllRecorded Db.empty ((ss ++ [lastS]).map ImagePoll.call)) :
    SameLive label (run Db.recordPoll Db.empty ((rs ++ [lastR]).map ImagePoll.call))
        (run Db.recordPoll Db.empty ((ss ++ [lastS]).map ImagePoll.call)) ↔
      AgreeOnDropped rs ss lastR lastS := by
  have hEach : ∀ metric, PyText.startsWith metric "_" = false →
      (shown (getLatest (run Db.recordPoll Db.empty ((rs ++ [lastR]).map ImagePoll.call))) label
          metric =
        shown (getLatest (run Db.recordPoll Db.empty ((ss ++ [lastS]).map ImagePoll.call))) label
          metric ↔
      if label = "bank" then
        lastBankField metric Db.empty (rs ++ [lastR]) =
          lastBankField metric Db.empty (ss ++ [lastS])
      else
        liveField driver label slaveId lastR.image metric = none →
          lastReported driver label slaveId metric (rs.map ImagePoll.image) =
            lastReported driver label slaveId metric (ss.map ImagePoll.image)) := by
    intro metric hMetric
    have hEmpty : (Db.empty : Db ℚ).reading label metric = none := rfl
    rw [shown_getLatest (notMem_latestMetaKeys hMetric),
      shown_getLatest (notMem_latestMetaKeys hMetric), reading_history hMetric _ hR,
      reading_history hMetric _ hS, hEmpty, Option.or_none, Option.or_none]
    by_cases hLabel : label = "bank"
    · rw [if_pos hLabel, if_pos hLabel, if_pos hLabel]
    · rw [if_neg hLabel, if_neg hLabel, if_neg hLabel, List.map_append, List.map_append,
        List.map_singleton, List.map_singleton, lastReported_concat, lastReported_concat, hImage]
      -- what the image reports, both histories show
      cases liveField driver label slaveId lastS.image metric <;> simp
  exact forall_congr' fun metric => forall_congr' fun hMetric => hEach metric hMetric

/-! ### A load that is switched off -/

/-- A single-phase Deye at half charge, with a load on the wire and nothing else. -/
def loadImage (word : UInt16) : RegisterImage := fun register =>
  if register = 167 then word
  else if register = 183 then 5200
  else if register = 184 then 50
  else 0

def loadPoll (word : UInt16) (ts : Nat) : ImagePoll .deyeInverter1p "inverter" 1 where
  image := loadImage word
  call :=
    { settings := .default
      result :=
        { devices := Dict.ofList
            [("inverter", SparseDriver.deyeInverter1p.poll "inverter" 1 (loadImage word))]
          elapsedSeconds := 0
          errorsCount := 0
          errorsRepr := none }
      ts := ts }
  polled := by simp [Dict.ofList, Dict.setAll]

theorem allRecorded_pair {db : Db ℚ} {p q : Poll}
    (hFirst : (pollRows p.settings db p.result p.ts).isSome = true)
    (hSecond : (pollRows q.settings (db.recordPoll p) q.result q.ts).isSome = true) :
    AllRecorded db [p, q] :=
  stepsOk_cons.mpr ⟨Option.isSome_iff_exists.mp hFirst,
    stepsOk_cons.mpr ⟨Option.isSome_iff_exists.mp hSecond, stepsOk_nil⟩⟩

theorem allRecorded_single {db : Db ℚ} {p : Poll}
    (hRows : (pollRows p.settings db p.result p.ts).isSome = true) : AllRecorded db [p] :=
  stepsOk_cons.mpr ⟨Option.isSome_iff_exists.mp hRows, stepsOk_nil⟩

/-- A load that was never on is shown alike after one poll and after two. -/
theorem same_live_idle :
    SameLive "inverter"
      (run Db.recordPoll Db.empty (([] ++ [loadPoll 0 60]).map ImagePoll.call))
      (run Db.recordPoll Db.empty (([loadPoll 0 60] ++ [loadPoll 0 120]).map ImagePoll.call)) := by
  refine (same_live_iff .deyeInverter1p "inverter" 1 [] [loadPoll 0 60] (loadPoll 0 60)
    (loadPoll 0 120) rfl (allRecorded_single (by decide +kernel))
    (allRecorded_pair (by decide +kernel) (by decide +kernel))).mpr ?_
  intro metric _
  rw [if_neg (by decide)]
  intro hDropped
  exact (Option.or_eq_none_iff.mpr ⟨rfl, hDropped⟩).symm

/-- A load of 500 W that is switched off is still shown, after a history that ends
in the same image as one without it. -/
theorem dropped_load_is_shown :
    ¬ ∀ (driver : SparseDriver) (label : String) (slaveId : UInt8)
      (rs ss : List (ImagePoll driver label slaveId))
      (lastR lastS : ImagePoll driver label slaveId), lastR.image = lastS.image →
      AllRecorded Db.empty ((rs ++ [lastR]).map ImagePoll.call) →
      AllRecorded Db.empty ((ss ++ [lastS]).map ImagePoll.call) →
      SameLive label (run Db.recordPoll Db.empty ((rs ++ [lastR]).map ImagePoll.call))
        (run Db.recordPoll Db.empty ((ss ++ [lastS]).map ImagePoll.call)) := by
  intro h
  have hSame := h .deyeInverter1p "inverter" 1 [loadPoll 65036 60] [] (loadPoll 0 120)
    (loadPoll 0 120) rfl (allRecorded_pair (by decide +kernel) (by decide +kernel))
    (allRecorded_single (by decide +kernel)) "load_power_w" (by decide)
  have hStale : shown (getLatest (run Db.recordPoll Db.empty
      (([loadPoll 65036 60] ++ [loadPoll 0 120]).map ImagePoll.call))) "inverter" "load_power_w" =
        some (.num 500) := by
    decide +kernel
  have hFresh : shown (getLatest (run Db.recordPoll Db.empty
      (([] ++ [loadPoll 0 120]).map ImagePoll.call))) "inverter" "load_power_w" = none := by
    decide +kernel
  rw [hStale, hFresh] at hSame
  cases hSame

end WattPost.Storage
