import WattPost.Lib.LocalTime
import WattPost.Lib.Runs

/-! The schedule engine of the outputs: rules that fire at a time of day or at the
cached sunrise or sunset. A tick walks over all rules and fires those that are
due. -/
namespace WattPost.Outputs.Schedules

open LocalTime Runs

/-! ### Rules -/

inductive TriggerKind where
  | time
  | sunrise
  | sunset
deriving DecidableEq

/-- What the user sets. The mask has Monday in bit zero. -/
structure Rule where
  id : Nat
  outputId : String
  on : Bool
  triggerKind : TriggerKind
  triggerTime : Option String
  offsetMin : Int
  daysMask : Nat
  enabled : Bool
deriving DecidableEq

/-- A row of `output_schedules`: the rule, and its last run. -/
structure Schedule where
  rule : Rule
  lastRunAt : Option Int
  lastRunResult : Option String
deriving DecidableEq

/-- The sun times of the cached weather. -/
structure WeatherCache where
  sunriseTs : Option Int
  sunsetTs : Option Int
deriving DecidableEq

/-- `_parse_hhmm`. -/
def parseHhmm (s : Option String) : Option (Nat × Nat) := do
  let text ← s
  if PyText.contains text ":" = false then none
  else
    let h ← PyText.toInt (String.ofList (text.toList.takeWhile (· != ':')))
    let m ← PyText.toInt (PyText.afterFirst text ':')
    if 0 ≤ h ∧ h ≤ 23 ∧ 0 ≤ m ∧ m ≤ 59 then some (h.toNat, m.toNat) else none

/-- `compute_fire_time`. -/
def computeFireTime (zone : Zone) (rule : Rule) (nowTs : Int) (cache : Option WeatherCache) :
    Option Int :=
  match rule.triggerKind with
  | .time => (parseHhmm rule.triggerTime).map fun hm =>
      zone.midnight nowTs + hm.1 * 3600 + hm.2 * 60
  | .sunrise => (cache.bind WeatherCache.sunriseTs).map (· + rule.offsetMin * 60)
  | .sunset => (cache.bind WeatherCache.sunsetTs).map (· + rule.offsetMin * 60)

/-- `int(sched.get("days_mask") or 127)`. -/
def effectiveMask (mask : Nat) : Nat := if mask = 0 then 127 else mask

/-- A tick comes to the firing of the rule. -/
def due (zone : Zone) (nowTs : Int) (cache : Option WeatherCache) (sched : Schedule) : Bool :=
  sched.rule.enabled &&
    (effectiveMask sched.rule.daysMask).testBit (weekday (zone.dayOf nowTs)) &&
    match computeFireTime zone sched.rule nowTs cache with
    | none => false
    | some fireTs =>
        let lastRun := sched.lastRunAt.getD 0
        decide (fireTs ≤ nowTs) && !(decide (zone.midnight nowTs ≤ lastRun ∧ fireTs ≤ lastRun))

/-! ### Ticks -/

/-- How the toggle of a firing ended. -/
inductive ToggleOutcome where
  | returned (ok : Bool) (detail : String)
  | outputNotFound
  | crashed (message : String)
deriving DecidableEq

/-- The text that is stored with the run. -/
def ToggleOutcome.resultStr : ToggleOutcome → String
  | .returned true _ => "ok"
  | .returned false detail => "fail:" ++ (if detail = "" then "unknown" else detail)
  | .outputNotFound => "fail:output_not_found"
  | .crashed message => "fail:" ++ message

/-- A firing: the toggle that the engine asked for. -/
structure Firing where
  scheduleId : Nat
  outputId : String
  on : Bool
  time : Int
deriving DecidableEq

structure State where
  rows : List Schedule
  firings : List Firing
deriving DecidableEq

/-- `mark_schedule_run`. -/
def markScheduleRun (rows : List Schedule) (scheduleId : Nat) (atTs : Int) (result : String) :
    List Schedule :=
  rows.map fun row =>
    if row.rule.id = scheduleId then
      { row with lastRunAt := some atTs, lastRunResult := some result }
    else row

def fire (nowTs : Int) (outcome : Nat → ToggleOutcome) (s : State) (sched : Schedule) : State where
  rows := markScheduleRun s.rows sched.rule.id nowTs (outcome sched.rule.id).resultStr
  firings := s.firings ++
    [{ scheduleId := sched.rule.id, outputId := sched.rule.outputId, on := sched.rule.on
       time := nowTs }]

/-- One tick: when it comes, what the cache holds, and how each toggle ends. -/
structure Tick where
  nowTs : Int
  cache : Option WeatherCache
  outcome : Nat → ToggleOutcome

/-- `fire_due_schedules`: the rows are read before the first one fires. -/
def fireDueSchedules (zone : Zone) (s : State) (tick : Tick) : State :=
  (s.rows.filter (due zone tick.nowTs tick.cache)).foldl (fire tick.nowTs tick.outcome) s

/-! ### What a tick does -/

/-- The row of a schedule after a tick that fired the given ids. -/
def afterRun (nowTs : Int) (outcome : Nat → ToggleOutcome) (fired : List Nat) (row : Schedule) :
    Schedule :=
  if row.rule.id ∈ fired then
    { row with lastRunAt := some nowTs, lastRunResult := some (outcome row.rule.id).resultStr }
  else row

@[simp] theorem afterRun_rule (nowTs : Int) (outcome : Nat → ToggleOutcome) (fired : List Nat)
    (row : Schedule) : (afterRun nowTs outcome fired row).rule = row.rule := by
  unfold afterRun
  split <;> rfl

def firingOf (nowTs : Int) (sched : Schedule) : Firing where
  scheduleId := sched.rule.id
  outputId := sched.rule.outputId
  on := sched.rule.on
  time := nowTs

theorem foldl_fire (nowTs : Int) (outcome : Nat → ToggleOutcome) (scheds : List Schedule)
    (s : State) :
    scheds.foldl (fire nowTs outcome) s =
      { rows := s.rows.map (afterRun nowTs outcome (scheds.map fun x => x.rule.id))
        firings := s.firings ++ scheds.map (firingOf nowTs) } := by
  induction scheds generalizing s with
  | nil =>
      have hSame : afterRun nowTs outcome [] = id := by
        funext row
        simp [afterRun]
      simp [hSame]
  | cons sched scheds ih =>
      have hRow : ∀ row, afterRun nowTs outcome (scheds.map fun x => x.rule.id)
            (if row.rule.id = sched.rule.id then
              { row with
                lastRunAt := some nowTs
                lastRunResult := some (outcome sched.rule.id).resultStr }
            else row) =
          afterRun nowTs outcome ((sched :: scheds).map fun x => x.rule.id) row := by
        intro row
        by_cases hId : row.rule.id = sched.rule.id
        · by_cases hMem : sched.rule.id ∈ scheds.map fun x => x.rule.id <;>
            simp [afterRun, hId]
        · simp [afterRun, hId]
      rw [List.foldl_cons, ih]
      simp only [fire, markScheduleRun, List.map_map, List.map_cons, List.append_assoc,
        List.singleton_append, firingOf, State.mk.injEq, and_true]
      exact List.map_congr_left fun row _ => hRow row

/-- The ids that a tick fires. -/
def firedIds (zone : Zone) (s : State) (tick : Tick) : List Nat :=
  (s.rows.filter (due zone tick.nowTs tick.cache)).map fun x => x.rule.id

theorem fireDueSchedules_rows (zone : Zone) (s : State) (tick : Tick) :
    (fireDueSchedules zone s tick).rows =
      s.rows.map (afterRun tick.nowTs tick.outcome (firedIds zone s tick)) := by
  rw [fireDueSchedules, foldl_fire]
  rfl

theorem fireDueSchedules_firings (zone : Zone) (s : State) (tick : Tick) :
    (fireDueSchedules zone s tick).firings =
      s.firings ++ (s.rows.filter (due zone tick.nowTs tick.cache)).map (firingOf tick.nowTs) := by
  rw [fireDueSchedules, foldl_fire]

/-- In rows with distinct ids, an id is that of one row. -/
theorem filter_id_eq {rows : List Schedule} (hNodup : (rows.map fun x => x.rule.id).Nodup)
    {row : Schedule} (hMem : row ∈ rows) :
    (rows.filter fun x => x.rule.id = row.rule.id) = [row] := by
  induction rows with
  | nil => cases hMem
  | cons first rows ih =>
      obtain ⟨hFirst, hRest⟩ := List.nodup_cons.mp hNodup
      rcases List.mem_cons.mp hMem with rfl | hIn
      · have hNone : (rows.filter fun x => x.rule.id = row.rule.id) = [] := by
          rw [List.filter_eq_nil_iff]
          intro x hx hId
          exact hFirst (List.mem_map.mpr ⟨x, hx, of_decide_eq_true hId⟩)
        simp [hNone]
      · have hNe : first.rule.id ≠ row.rule.id := by
          intro hId
          exact hFirst (List.mem_map.mpr ⟨row, hIn, hId.symm⟩)
        rw [List.filter_cons_of_neg (by simpa using hNe)]
        exact ih hRest hIn

end WattPost.Outputs.Schedules
