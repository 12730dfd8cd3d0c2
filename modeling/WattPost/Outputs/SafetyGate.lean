import WattPost.Outputs.Api

/-! The safety gate: an output may be switched once its owner has confirmed it.
The gate is in the toggle route alone; the engines go past it. -/
namespace WattPost.Outputs

open Schedules (Schedule WeatherCache)
open SolarPause (BankSnapshot)

section Gate

variable (zone : LocalTime.Zone)

/-- The row of the output carries the flag. -/
def Flagged (a : Appliance) (outputId : String) : Prop :=
  (findRow a.service.outputs outputId).map OutputRow.safetyConfirmed = some true

/-- The happening is a confirm request that is answered for this output. -/
def Confirms (a : Appliance) (e : Happening) (outputId : String) : Prop :=
  ∃ c, e = .request (.confirmOutputSafety outputId) c ∧
    (findRow a.service.outputs outputId).isSome = true

/-- The output was confirmed by an earlier request of the run, or before it. -/
def Confirmed (a : Appliance) (before : List Happening) (outputId : String) : Prop :=
  Flagged a outputId ∨ ∃ earlier e later, before = earlier ++ e :: later ∧
    Confirms (Runs.run (happen zone) a earlier) e outputId

/-- The commands that a happening sends to the adapters. -/
def newCommands (a : Appliance) (e : Happening) : List Command :=
  (happen zone a e).service.issued.drop a.service.issued.length

/-- Every command of the run goes to an output that was confirmed before. -/
def GateHolds (a : Appliance) (happenings : List Happening) : Prop :=
  ∀ before e after, happenings = before ++ e :: after →
    ∀ command ∈ newCommands zone (Runs.run (happen zone) a before) e,
      Confirmed zone a before command.outputId

end Gate

section Writes

/-- The toggle gets as far as the adapter's write. -/
def Dispatch.reachesAdapter : Dispatch → Bool
  | .noDevice _ => false
  | .noTransport _ => false
  | .wrote _ => true
  | .crashed _ => true

/-- The output is known, or the discovery finds it, and its device and transport
are there. -/
def reaches (a : Appliance) (outputId : String) (m : Meet) : Bool :=
  (a.known.contains outputId || m.found.ids.contains outputId) && m.dispatch.reachesAdapter

/-- The switching that an evaluation of the pause rule asks for. -/
def pauseAsks (a : Appliance) (bank : Option BankSnapshot) : Option (String × Bool) :=
  if a.pause.enabled = false ∨ a.pause.chargerOutputId.getD "" = "" then none
  else
    bank.bind fun bank =>
      (SolarPause.readChargerSnapshot a.service.outputs (a.pause.chargerOutputId.getD "")).bind
        fun charger =>
          match (SolarPause.decide a.pause bank charger a.service.clock).action with
          | .unchanged => none
          | .forceOn => some (a.pause.chargerOutputId.getD "", true)
          | .forceOff => some (a.pause.chargerOutputId.getD "", false)

/-- From one state to the next these outputs are written, in this order, and no
flag changes. -/
structure Writes (targets : List String) (a a' : Appliance) : Prop where
  issued : ∃ commands, a'.service.issued = a.service.issued ++ commands ∧
    commands.map Command.outputId = targets
  flags : ∀ outputId, Flagged a' outputId ↔ Flagged a outputId

variable {a a' a'' : Appliance} {outputId other issuer : String} {on : Bool} {m : Meet}
  {targets targets' : List String}

theorem Writes.of_eq (hIssued : a'.service.issued = a.service.issued)
    (hOutputs : a'.service.outputs = a.service.outputs) : Writes [] a a' := by
  refine ⟨⟨[], by simp [hIssued], rfl⟩, fun outputId => ?_⟩
  rw [Flagged, Flagged, hOutputs]

theorem Writes.refl (a : Appliance) : Writes [] a a := .of_eq rfl rfl

theorem Writes.trans (h : Writes targets a a') (h' : Writes targets' a' a'') :
    Writes (targets ++ targets') a a'' := by
  obtain ⟨commands, hIssued, hTargets⟩ := h.issued
  obtain ⟨commands', hIssued', hTargets'⟩ := h'.issued
  refine ⟨⟨commands ++ commands', ?_, ?_⟩, fun outputId => ?_⟩
  · rw [hIssued', hIssued, List.append_assoc]
  · rw [List.map_append, hTargets, hTargets']
  · rw [h'.flags, h.flags]

/-- The commands between the two states go to the targets. -/
theorem Writes.forall_iff (h : Writes targets a a') {p : String → Prop} :
    (∀ command ∈ a'.service.issued.drop a.service.issued.length, p command.outputId) ↔
      ∀ outputId ∈ targets, p outputId := by
  obtain ⟨commands, hIssued, rfl⟩ := h.issued
  rw [hIssued, List.drop_left]
  simp

/-- An update that keeps the id and the flag of a row keeps every flag. -/
theorem flag_updateRow {set : OutputRow → OutputRow} (hId : ∀ row, (set row).id = row.id)
    (hFlag : ∀ row, (set row).safetyConfirmed = row.safetyConfirmed) (outputs : List OutputRow)
    (outputId other : String) :
    (findRow (updateRow outputs outputId set) other).map OutputRow.safetyConfirmed =
      (findRow outputs other).map OutputRow.safetyConfirmed := by
  rw [findRow_updateRow hId, Option.map_map]
  congr 1
  funext row
  by_cases hSame : other = outputId <;> simp [hSame, hFlag]

/-- Registering an output keeps the flag of its row; a new row has none. -/
theorem flag_upsertOutput (outputs : List OutputRow) (d : Discovered) (other : String) :
    (findRow (upsertOutput outputs d) other).map OutputRow.safetyConfirmed = some true ↔
      (findRow outputs other).map OutputRow.safetyConfirmed = some true := by
  unfold upsertOutput
  split
  case isTrue =>
    rw [flag_updateRow]
    all_goals exact fun _ => rfl
  case isFalse hNone =>
    have hMissing : findRow outputs d.id = none := by simpa using hNone
    rw [findRow, List.find?_append]
    by_cases hId : d.id = other
    · subst hId
      rw [show outputs.find? (fun row => decide (row.id = d.id)) = none from hMissing, hMissing]
      simp
    · simp [hId, findRow]

theorem writes_discoverAll (found : Discovery) : Writes [] a (discoverAll a found) := by
  refine ⟨⟨[], by simp [discoverAll], rfl⟩, fun outputId => ?_⟩
  unfold Flagged discoverAll
  dsimp only
  generalize a.service.outputs = outputs
  generalize found.outputs = found
  induction found generalizing outputs with
  | nil => rfl
  | cons d found ih =>
      rw [List.foldl_cons, ih]
      exact flag_upsertOutput outputs d outputId

theorem writes_sendCommand (delay : Nat) (result : WriteResult) :
    Writes [outputId] a (sendCommand a outputId on issuer delay result) := by
  refine ⟨⟨[_], rfl, rfl⟩, fun other => ?_⟩
  unfold Flagged sendCommand applyWrite
  cases result.confirmedState with
  | none =>
      dsimp only [recordOutputCommand]
      rw [flag_updateRow]
      all_goals exact fun _ => rfl
  | some state =>
      dsimp only [recordOutputCommand, updateOutputState]
      rw [flag_updateRow, flag_updateRow]
      all_goals exact fun _ => rfl

/-- A toggle writes its output, or nothing. -/
theorem writes_toggleOutput (a : Appliance) (outputId : String) (on : Bool) (issuer : String)
    (m : Meet) :
    Writes (if reaches a outputId m then [outputId] else []) a
      (toggleOutput a outputId on issuer m).2 := by
  have hKnow : Writes [] a (if a.known.contains outputId then a else discoverAll a m.found) ∧
      ((if a.known.contains outputId then a else discoverAll a m.found).known.contains outputId =
        (a.known.contains outputId || m.found.ids.contains outputId)) := by
    by_cases hKnown : a.known.contains outputId = true
    · rw [if_pos hKnown, hKnown]
      exact ⟨.refl a, rfl⟩
    · have hUnknown : a.known.contains outputId = false := by simpa using hKnown
      rw [if_neg hKnown, hUnknown, Bool.false_or]
      exact ⟨writes_discoverAll m.found, rfl⟩
  unfold toggleOutput reaches
  dsimp only
  generalize (if a.known.contains outputId then a else discoverAll a m.found) = asked at hKnow ⊢
  obtain ⟨hAsked, hKnown⟩ := hKnow
  rw [hKnown]
  cases (a.known.contains outputId || m.found.ids.contains outputId) with
  | false => exact hAsked
  | true =>
      cases m.dispatch with
      | noDevice label => exact hAsked
      | noTransport id => exact hAsked
      | wrote result => exact hAsked.trans (writes_sendCommand m.delay result)
      | crashed message => exact hAsked.trans (writes_sendCommand m.delay _)

/-- An evaluation of the pause rule toggles what it asks for. -/
theorem evaluateSolarPause_snd (a : Appliance) (bank : Option BankSnapshot) (m : Meet) :
    (evaluateSolarPause a bank m).2 =
      (pauseAsks a bank).elim a
        (fun ask => (toggleOutput a ask.1 ask.2 "auto:solar_pause" m).2) := by
  have hApply : ∀ outputId on report, (applyPause a outputId on m report).2 =
      (toggleOutput a outputId on "auto:solar_pause" m).2 := by
    intro outputId on report
    unfold applyPause
    split
    case h_1 result after hToggle => rw [hToggle]
    case h_2 error after hToggle => rw [hToggle]
  unfold evaluateSolarPause pauseAsks
  cases a.pause.chargerOutputId with
  | none => simp
  | some charger =>
      simp only [Option.getD_some]
      split
      · rfl
      · cases bank with
        | none => rfl
        | some bank =>
            cases SolarPause.readChargerSnapshot a.service.outputs charger with
            | none => rfl
            | some snapshot =>
                simp only [Option.bind_some]
                split <;> simp_all

/-- The output that an evaluation of the pause rule writes. -/
def pauseTargets (a : Appliance) (bank : Option BankSnapshot) (m : Meet) : List String :=
  (pauseAsks a bank).elim [] (fun ask => if reaches a ask.1 m then [ask.1] else [])

theorem writes_evaluateSolarPause (bank : Option BankSnapshot) (m : Meet) :
    Writes (pauseTargets a bank m) a (evaluateSolarPause a bank m).2 := by
  rw [evaluateSolarPause_snd, pauseTargets]
  cases pauseAsks a bank with
  | none => exact .refl a
  | some ask => exact writes_toggleOutput a ask.1 ask.2 "auto:solar_pause" m

/-- The outputs that the schedules of a tick write, one after the other. -/
def firingTargets (meets : Nat → Meet) : Appliance → List Schedule → List String
  | _, [] => []
  | a, sched :: rest =>
      (if reaches a sched.rule.outputId (meets sched.rule.id) then [sched.rule.outputId] else []) ++
        firingTargets meets (fireSchedule meets a sched) rest

theorem writes_fireSchedule (meets : Nat → Meet) (sched : Schedule) :
    Writes (if reaches a sched.rule.outputId (meets sched.rule.id) then [sched.rule.outputId]
        else []) a (fireSchedule meets a sched) := by
  have hToggle := writes_toggleOutput a sched.rule.outputId sched.rule.on
    ("schedule:" ++ toString sched.rule.id) (meets sched.rule.id)
  exact ⟨hToggle.issued, hToggle.flags⟩

theorem writes_foldl_fireSchedule (meets : Nat → Meet) (scheds : List Schedule) (a : Appliance) :
    Writes (firingTargets meets a scheds) a (scheds.foldl (fireSchedule meets) a) := by
  induction scheds generalizing a with
  | nil => exact .refl a
  | cons sched rest ih =>
      exact (writes_fireSchedule meets sched).trans (ih (fireSchedule meets a sched))

/-- A schedule's output is written when its toggle, after those before it, reaches
the adapter. -/
theorem mem_firingTargets {meets : Nat → Meet} {scheds : List Schedule} :
    other ∈ firingTargets meets a scheds ↔
      ∃ earlier sched later, scheds = earlier ++ sched :: later ∧ sched.rule.outputId = other ∧
        reaches (earlier.foldl (fireSchedule meets) a) sched.rule.outputId
          (meets sched.rule.id) = true := by
  induction scheds generalizing a with
  | nil => simp [firingTargets]
  | cons first rest ih =>
      rw [firingTargets, List.mem_append, ih]
      constructor
      · rintro (hFirst | ⟨earlier, sched, later, rfl, hOutput, hReaches⟩)
        · split at hFirst
          case isTrue hReaches =>
            exact ⟨[], first, rest, rfl, (List.mem_singleton.mp hFirst).symm, hReaches⟩
          case isFalse => cases hFirst
        · exact ⟨first :: earlier, sched, later, rfl, hOutput, hReaches⟩
      · rintro ⟨earlier, sched, later, hSplit, hOutput, hReaches⟩
        cases earlier with
        | nil =>
            obtain ⟨rfl, rfl⟩ := List.cons.inj hSplit
            rw [List.foldl_nil] at hReaches
            left
            rw [if_pos hReaches, hOutput]
            exact List.mem_singleton_self other
        | cons head earlier =>
            obtain ⟨rfl, rfl⟩ := List.cons.inj hSplit
            exact Or.inr ⟨earlier, sched, later, rfl, hOutput, hReaches⟩

end Writes

section Gated

variable (zone : LocalTime.Zone)

/-- What the pause rule switches now, if its toggle reaches the adapter, carries
the flag. -/
def PauseGated (a : Appliance) (bank : Option BankSnapshot) (way : Meet) : Prop :=
  ∀ ask, pauseAsks a bank = some ask → reaches a ask.1 way = true → Flagged a ask.1

/-- The outputs that the engines switch in this happening carry the flag: those of
the schedules that are due, and the charger of a pause rule that calls for a
change. -/
def Gated (a : Appliance) : Happening → Prop
  | .request .getSolarPause c => PauseGated a c.bank c.way
  | .request (.patchSolarPause data) c =>
      (data.patch a.pause).validate = none → c.configWritten = true →
        PauseGated { a with pause := data.patch a.pause } c.bank c.way
  | .scheduleTick cache meets =>
      ∀ earlier sched later, dueSchedules zone a cache = earlier ++ sched :: later →
        reaches (earlier.foldl (fireSchedule meets) a) sched.rule.outputId
          (meets sched.rule.id) = true →
        Flagged a sched.rule.outputId
  | .pauseTick bank way => PauseGated a bank way
  | _ => True

/-- The outputs that a happening writes. -/
def targetsOf (a : Appliance) : Happening → List String
  | .request (.toggleOutput outputId _) c =>
      if (findRow a.service.outputs outputId).any OutputRow.safetyConfirmed &&
        reaches a outputId c.way then [outputId] else []
  | .request .getSolarPause c => pauseTargets a c.bank c.way
  | .request (.patchSolarPause data) c =>
      if (data.patch a.pause).validate.isNone && c.configWritten then
        pauseTargets { a with pause := data.patch a.pause } c.bank c.way
      else []
  | .scheduleTick cache meets => firingTargets meets a (dueSchedules zone a cache)
  | .pauseTick bank way => pauseTargets a bank way
  | _ => []

variable {zone} {a : Appliance} {e : Happening} {outputId : String}

theorem forall_pauseTargets {bank : Option BankSnapshot} {way : Meet} :
    (∀ outputId ∈ pauseTargets a bank way, Flagged a outputId) ↔ PauseGated a bank way := by
  unfold PauseGated pauseTargets
  cases pauseAsks a bank with
  | none => simp
  | some ask => cases hReaches : reaches a ask.1 way <;> simp [hReaches]

/-- The toggle route writes a confirmed output only. -/
theorem writes_toggleEndpoint (a : Appliance) (outputId : String) (on : Bool) (m : Meet) :
    Writes (if (findRow a.service.outputs outputId).any OutputRow.safetyConfirmed &&
        reaches a outputId m then [outputId] else []) a
      (toggleEndpoint a outputId on m).2 := by
  have hToggle := writes_toggleOutput a outputId on "user" m
  unfold toggleEndpoint
  cases findRow a.service.outputs outputId with
  | none => exact .refl a
  | some row =>
      cases hFlag : row.safetyConfirmed with
      | false => simpa [hFlag] using Writes.refl a
      | true =>
          rcases hEnd : toggleOutput a outputId on "user" m with ⟨res, after⟩
          rw [hEnd] at hToggle
          simp only [Option.any_some, hFlag, Bool.true_and, Bool.not_true, Bool.false_eq_true,
            if_false]
          cases res with
          | error e => exact hToggle
          | ok result => cases hOk : result.ok <;> simpa [hOk] using hToggle

/-- An accepted pause rule is in force when it is evaluated; a disabled one asks for
nothing. -/
theorem writes_patchSolarPause (a : Appliance) (data : SolarPausePatch) (c : Circumstance) :
    Writes (if (data.patch a.pause).validate.isNone && c.configWritten then
        pauseTargets { a with pause := data.patch a.pause } c.bank c.way
      else []) a (patchSolarPause a data c).2 := by
  generalize hMerged : data.patch a.pause = merged
  have hEvaluated : Writes (pauseTargets { a with pause := merged } c.bank c.way) a
      (getSolarPause { a with pause := merged } c).2 := by
    have hSet : Writes [] a { a with pause := merged } := .of_eq rfl rfl
    exact hSet.trans (writes_evaluateSolarPause c.bank c.way)
  have hDisabled : merged.enabled = false →
      pauseTargets { a with pause := merged } c.bank c.way = [] := by
    intro hOff
    simp [pauseTargets, pauseAsks, hOff]
  unfold patchSolarPause
  rw [hMerged]
  cases hEnabled : merged.enabled with
  | false =>
      rw [hDisabled hEnabled] at hEvaluated ⊢
      rw [ite_self]
      cases c.configWritten with
      | false => simpa [hEnabled] using Writes.refl a
      | true => simpa [hEnabled] using hEvaluated
  | true =>
      cases hValid : merged.validate with
      | some message => simpa [hEnabled, hValid] using Writes.refl a
      | none =>
          cases c.configWritten with
          | false => simpa [hEnabled, hValid] using Writes.refl a
          | true => simpa [hEnabled, hValid] using hEvaluated

/-- A happening writes its targets, and but for a confirm request no flag changes. -/
theorem writes_happen (hConfirm : ∀ outputId c, e ≠ .request (.confirmOutputSafety outputId) c) :
    Writes (targetsOf zone a e) a (happen zone a e) := by
  cases e with
  | request endpoint c =>
      cases endpoint with
      | listOutputs device => exact .refl a
      | toggleOutput outputId on => exact writes_toggleEndpoint a outputId on c.way
      | confirmOutputSafety outputId => exact absurd rfl (hConfirm outputId c)
      | listOutputSchedules outputId =>
          simp only [happen, handle]
          split <;> exact .refl a
      | createOutputSchedule outputId data =>
          simp only [happen, handle, createSchedule]
          split
          · exact .refl a
          · split <;> exact .of_eq rfl rfl
      | updateOutputSchedule outputId scheduleId data =>
          simp only [happen, handle, updateSchedule]
          split
          · exact .refl a
          · split <;> exact .of_eq rfl rfl
      | deleteOutputSchedule outputId scheduleId =>
          simp only [happen, handle, deleteSchedule]
          split <;> exact .of_eq rfl rfl
      | getSolarPause => exact writes_evaluateSolarPause c.bank c.way
      | patchSolarPause data => exact writes_patchSolarPause a data c
  | scheduleTick cache meets => exact writes_foldl_fireSchedule meets _ a
  | pauseTick bank way => exact writes_evaluateSolarPause bank way
  | discover found => exact writes_discoverAll found
  | measured outputId state =>
      refine ⟨⟨[], by simp [happen], rfl⟩, fun other => ?_⟩
      unfold Flagged happen updateOutputState
      dsimp only
      rw [flag_updateRow]
      all_goals exact fun _ => rfl
  | elapse seconds => exact .of_eq rfl rfl

/-- A confirm request writes nothing. -/
theorem issued_confirmEndpoint (a : Appliance) (outputId : String) :
    (confirmEndpoint a outputId).2.service.issued = a.service.issued := by
  unfold confirmEndpoint
  split <;> rfl

/-- It sets the flag of its output, if there is one. -/
theorem flagged_confirmEndpoint (a : Appliance) (outputId other : String) :
    Flagged (confirmEndpoint a outputId).2 other ↔
      Flagged a other ∨ other = outputId ∧ (findRow a.service.outputs outputId).isSome = true := by
  unfold confirmEndpoint Flagged
  cases hRow : findRow a.service.outputs outputId with
  | none => simp
  | some row =>
      simp only [Option.isNone_some, Bool.false_eq_true, if_false, Option.isSome_some, and_true]
      rw [findRow_updateRow, Option.map_map]
      · by_cases hOther : other = outputId
        · subst hOther
          simp [hRow]
        · simp [hOther, Function.comp_def]
      · exact fun _ => rfl

/-- A flag is set by a confirm request and by nothing else. -/
theorem flagged_happen :
    Flagged (happen zone a e) outputId ↔ Flagged a outputId ∨ Confirms a e outputId := by
  by_cases hConfirm : ∃ confirmed c, e = .request (.confirmOutputSafety confirmed) c
  · obtain ⟨confirmed, c, rfl⟩ := hConfirm
    refine (flagged_confirmEndpoint a confirmed outputId).trans (or_congr_right ?_)
    constructor
    · rintro ⟨rfl, hRow⟩
      exact ⟨c, rfl, hRow⟩
    · rintro ⟨c', hSame, hRow⟩
      cases hSame
      exact ⟨rfl, hRow⟩
  · rw [(writes_happen (fun confirmed c hSame => hConfirm ⟨confirmed, c, hSame⟩)).flags]
    constructor
    · exact Or.inl
    · rintro (hFlag | ⟨c, hSame, _⟩)
      · exact hFlag
      · exact absurd ⟨outputId, c, hSame⟩ hConfirm

/-- In a run the flags are those of the confirmed outputs. -/
theorem flagged_run (before : List Happening) :
    Flagged (Runs.run (happen zone) a before) outputId ↔ Confirmed zone a before outputId := by
  induction before using List.reverseRecOn with
  | nil =>
      constructor
      · exact Or.inl
      · rintro (hFlag | ⟨earlier, e, later, hSplit, _⟩)
        · exact hFlag
        · cases earlier <;> cases hSplit
  | append_singleton before e ih =>
      rw [Runs.run_concat, flagged_happen, ih]
      constructor
      · rintro ((hFlag | ⟨earlier, e', later, rfl, hConfirms⟩) | hConfirms)
        · exact Or.inl hFlag
        · exact Or.inr ⟨earlier, e', later ++ [e], by simp, hConfirms⟩
        · exact Or.inr ⟨before, e, [], rfl, hConfirms⟩
      · rintro (hFlag | ⟨earlier, e', later, hSplit, hConfirms⟩)
        · exact Or.inl (Or.inl hFlag)
        · rcases Runs.split_concat hSplit with ⟨rfl, rfl⟩ | ⟨rest, hRest⟩
          · exact Or.inr hConfirms
          · exact Or.inl (Or.inr ⟨earlier, e', rest, hRest, hConfirms⟩)

/-- The commands of a happening go to flagged outputs exactly when the engines find
theirs flagged. -/
theorem gated_iff (zone : LocalTime.Zone) (a : Appliance) (e : Happening) :
    (∀ command ∈ newCommands zone a e, Flagged a command.outputId) ↔ Gated zone a e := by
  by_cases hConfirm : ∃ confirmed c, e = .request (.confirmOutputSafety confirmed) c
  · obtain ⟨confirmed, c, rfl⟩ := hConfirm
    simp [newCommands, happen, handle, issued_confirmEndpoint, Gated]
  · have hWrites : Writes (targetsOf zone a e) a (happen zone a e) :=
      writes_happen (fun confirmed c hSame => hConfirm ⟨confirmed, c, hSame⟩)
    rw [newCommands, hWrites.forall_iff]
    cases e with
    | request endpoint c =>
        cases endpoint with
        | getSolarPause => exact forall_pauseTargets
        | patchSolarPause data =>
            simp only [targetsOf, Gated]
            rw [← forall_pauseTargets]
            cases (data.patch a.pause).validate <;> cases c.configWritten <;> simp [Flagged]
        | toggleOutput outputId on =>
            simp only [targetsOf, Gated, iff_true]
            intro other hOther
            split at hOther
            case isTrue hReaches =>
              rw [List.mem_singleton] at hOther
              subst hOther
              obtain ⟨row, hRow, hSet⟩ := (Option.any_eq_true _ _).mp
                (Bool.and_eq_true_iff.mp hReaches).1
              rw [Flagged, hRow, Option.map_some, hSet]
            case isFalse => cases hOther
        | listOutputs device => simp [targetsOf, Gated]
        | confirmOutputSafety outputId => simp [targetsOf, Gated]
        | listOutputSchedules outputId => simp [targetsOf, Gated]
        | createOutputSchedule outputId data => simp [targetsOf, Gated]
        | updateOutputSchedule outputId scheduleId data => simp [targetsOf, Gated]
        | deleteOutputSchedule outputId scheduleId => simp [targetsOf, Gated]
    | scheduleTick cache meets =>
        simp only [targetsOf, Gated, mem_firingTargets]
        constructor
        · intro h earlier sched later hSplit hReaches
          exact h _ ⟨earlier, sched, later, hSplit, rfl, hReaches⟩
        · rintro h outputId ⟨earlier, sched, later, hSplit, rfl, hReaches⟩
          exact h earlier sched later hSplit hReaches
    | pauseTick bank way => exact forall_pauseTargets
    | discover found => simp [targetsOf, Gated]
    | measured outputId state => simp [targetsOf, Gated]
    | elapse seconds => simp [targetsOf, Gated]

/-- No output is switched before its owner confirmed it, exactly when the engines
never come to switch one without its flag. -/
theorem gateHolds_iff (zone : LocalTime.Zone) (a : Appliance) (happenings : List Happening) :
    GateHolds zone a happenings ↔
      Runs.StepsOk (happen zone) (fun _ => Gated zone) a happenings := by
  constructor
  · intro h before e after hSplit
    refine (gated_iff zone _ e).mp (fun command hCommand => ?_)
    exact (flagged_run before).mpr (h before e after hSplit command hCommand)
  · intro h before e after hSplit command hCommand
    exact (flagged_run before).mp ((gated_iff zone _ e).mpr (h before e after hSplit) command hCommand)

/-- One smart plug, registered and never confirmed. -/
def heaterPlug : Appliance where
  service :=
    { outputs :=
        [{ id := "plug.heater", deviceLabel := "plug.heater", name := "Heater"
           kind := "smart_plug", state := some 0, stateAt := none, lastCommandJson := none
           safetyConfirmed := false, capabilities := ["toggle"] }]
      clock := 46800
      issued := [] }
  known := ["plug.heater"]
  schedules := []
  lastScheduleId := 0
  pause := {}

def heaterSwitched : Meet where
  found := .empty
  delay := 1
  dispatch := .wrote { ok := true, confirmedState := some 1, detail := "" }

/-- Somebody schedules the heater for noon, and the next tick comes at one. -/
def heaterAtNoon : List Happening :=
  [.request (.createOutputSchedule "plug.heater"
      ⟨none, none, some "12:00", none, none, none⟩) ⟨none, heaterSwitched, true⟩,
    .scheduleTick none (fun _ => heaterSwitched)]

/-- The tick switches the heater that nobody confirmed. -/
theorem schedule_switches_unconfirmed :
    ¬ GateHolds (LocalTime.Zone.fixed 0) heaterPlug heaterAtNoon := by
  intro h
  have hSent : (newCommands (LocalTime.Zone.fixed 0)
      (Runs.run (happen (LocalTime.Zone.fixed 0)) heaterPlug (heaterAtNoon.take 1))
      (.scheduleTick none (fun _ => heaterSwitched))).map Command.outputId = ["plug.heater"] := by
    decide +kernel
  obtain ⟨command, hCommand, hOutput⟩ := List.mem_map.mp (hSent ▸ List.mem_singleton_self _)
  have hConfirmed := h (heaterAtNoon.take 1) _ [] rfl command hCommand
  rw [hOutput, ← flagged_run] at hConfirmed
  unfold Flagged at hConfirmed
  revert hConfirmed
  decide +kernel

end Gated

end WattPost.Outputs
