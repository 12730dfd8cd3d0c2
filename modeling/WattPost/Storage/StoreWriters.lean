import Mathlib.Data.Rat.Defs
import WattPost.Lib.Runs
import WattPost.Lib.SharedTxn

/-! The writers of the store on its one `aiosqlite` connection. Only the
background writers hold `_write_lock`, and only `record_poll` rolls back; every
other writer runs its statements and then commits whatever is pending. The
content of the database is what its log of statements makes of it. -/
namespace WattPost.Storage

open Runs SharedTxn

/-- A value bound to a `?` of a statement. -/
inductive SqlValue where
  | null
  | int (value : Int)
  | real (value : ℚ)
  | text (value : String)
deriving DecidableEq

namespace SqlValue

/-- Python's `bool(value)`. -/
def truthy : SqlValue → Bool
  | null => false
  | int value => value ≠ 0
  | real value => value ≠ 0
  | text value => value ≠ ""

end SqlValue

/-- The tables the writers touch, in the order of `SCHEMA`. -/
inductive StoreTable where
  | samples
  | samplesStr
  | samples1min
  | samples1hour
  | samples1day
  | latest
  | deviceMeta
  | pollRuns
  | hostSamples
  | kv
  | forecastHistory
  | controllableOutputs
  | outputSchedules
  | signedAuditLog
deriving DecidableEq

/-- `INSERT` covers `INSERT OR REPLACE` and upserts. -/
inductive Verb where
  | insert
  | update
  | delete
deriving DecidableEq

/-- One `execute` or `executemany`, with the tuples it binds. -/
structure Statement where
  verb : Verb
  table : StoreTable
  rows : List (List SqlValue)
deriving DecidableEq

/-- What an `executemany` that raises at a row leaves in the transaction: the
rows before it. -/
def Statement.cut (written : Nat) (stmt : Statement) : Option Statement :=
  if written = 0 then none else some { stmt with rows := stmt.rows.take written }

/-- A call of one of the writers, with the values it binds. -/
inductive StoreWriter where
  | recordPoll (numRows strRows latestNum latestStr deviceMetaRows : List (List SqlValue))
      (pollRun : List SqlValue)
  | rollupAndPurge (now retentionRaw retention1min retention1hour : Int)
  | recordHostHealth (rows : List (List SqlValue))
  | archiveForecast (fetchedAt : SqlValue) (points : List (List SqlValue))
  | kvSet (key value updatedAt : SqlValue)
  | purgeDevice (device : SqlValue)
  | setDeviceDisplayName (device clean : SqlValue)
  | upsertOutput (id deviceLabel name kind capsJson : SqlValue)
  | updateOutputState (outputId state stateAt : SqlValue)
  | recordOutputCommand (outputId payload : SqlValue)
  | confirmOutputSafety (outputId : SqlValue)
  | createSchedule (outputId action triggerKind triggerTime offsetMin daysMask enabled : SqlValue)
  | updateSchedule (scheduleId : SqlValue) (fields : List (String × SqlValue))
  | deleteSchedule (scheduleId : SqlValue)
  | markScheduleRun (scheduleId atTs result : SqlValue)
  | writeEvent (row : List SqlValue)
  | markUploaded (now : SqlValue) (ids : List SqlValue)

/-- `if rows: await db.executemany(…, rows)`. -/
def executemany (verb : Verb) (table : StoreTable) (rows : List (List SqlValue)) :
    List Statement :=
  if rows.isEmpty then [] else [⟨verb, table, rows⟩]

/-- The statements of `_record_poll_locked`, in order. `first_seen` is bound to
the `last_seen` of the row. -/
def recordPollPlan (numRows strRows latestNum latestStr deviceMetaRows : List (List SqlValue))
    (pollRun : List SqlValue) : List Statement :=
  executemany .insert .samples numRows ++
  executemany .insert .samplesStr strRows ++
  executemany .insert .latest latestNum ++
  executemany .insert .latest latestStr ++
  deviceMetaRows.map (fun row => ⟨.insert, .deviceMeta, [row ++ row.getLast?.toList]⟩) ++
  [⟨.insert, .pollRuns, [pollRun]⟩]

/-- The statements of `_rollup_and_purge_locked`; the first three insert what
they select from the next finer table. -/
def rollupAndPurgePlan (now retentionRaw retention1min retention1hour : Int) : List Statement :=
  let before (age : Int) : List (List SqlValue) := [[.int (now - age)]]
  [⟨.insert, .samples1min, before retentionRaw⟩,
    ⟨.insert, .samples1hour, before retention1min⟩,
    ⟨.insert, .samples1day, before retention1hour⟩,
    ⟨.delete, .samples, before retentionRaw⟩,
    ⟨.delete, .samplesStr, before retentionRaw⟩,
    ⟨.delete, .samples1min, before retention1min⟩,
    ⟨.delete, .samples1hour, before retention1hour⟩,
    ⟨.delete, .pollRuns, before (30 * 86400)⟩,
    ⟨.delete, .hostSamples, before (30 * 86400)⟩,
    ⟨.delete, .forecastHistory, before (30 * 86400)⟩]

/-- The tables with a `device` column, as `sqlite_master` lists them. -/
def deviceTables : List StoreTable :=
  [.samples, .samplesStr, .samples1min, .samples1hour, .samples1day, .latest, .deviceMeta]

/-- The columns `update_schedule` may set. -/
def scheduleColumns : List String :=
  ["action", "trigger_kind", "trigger_time", "offset_min", "days_mask", "enabled"]

/-- The values `update_schedule` binds for the fields it accepts. -/
def scheduleArgs (fields : List (String × SqlValue)) : List SqlValue :=
  (fields.filter (fun field => scheduleColumns.contains field.1)).map fun field =>
    if field.1 = "enabled" then .int (if field.2.truthy then 1 else 0) else field.2

/-- A writer outside the lock: statements, then a commit, nothing on failure. -/
def unlocked (plan : List Statement) : Job Statement := ⟨plan, false, false⟩

/-- What a call does on the connection; `none` when it returns before its first
statement and does not commit. -/
def StoreWriter.job : StoreWriter → Option (Job Statement)
  | recordPoll numRows strRows latestNum latestStr deviceMetaRows pollRun =>
      some ⟨recordPollPlan numRows strRows latestNum latestStr deviceMetaRows pollRun, true, true⟩
  | rollupAndPurge now retentionRaw retention1min retention1hour =>
      some ⟨rollupAndPurgePlan now retentionRaw retention1min retention1hour, true, false⟩
  | recordHostHealth rows =>
      if rows.isEmpty then none else some ⟨[⟨.insert, .hostSamples, rows⟩], true, false⟩
  | archiveForecast fetchedAt points =>
      if points.isEmpty then none
      else some (unlocked [⟨.insert, .forecastHistory, points.map (fetchedAt :: ·)⟩])
  | kvSet key value updatedAt => some (unlocked [⟨.insert, .kv, [[key, value, updatedAt]]⟩])
  | purgeDevice device =>
      some (unlocked (deviceTables.map fun table => ⟨.delete, table, [[device]]⟩))
  | setDeviceDisplayName device clean =>
      some (unlocked [⟨.update, .deviceMeta, [[clean, device]]⟩])
  | upsertOutput id deviceLabel name kind capsJson =>
      some (unlocked [⟨.insert, .controllableOutputs, [[id, deviceLabel, name, kind, capsJson]]⟩])
  | updateOutputState outputId state stateAt =>
      some (unlocked [⟨.update, .controllableOutputs, [[state, stateAt, outputId]]⟩])
  | recordOutputCommand outputId payload =>
      some (unlocked [⟨.update, .controllableOutputs, [[payload, outputId]]⟩])
  | confirmOutputSafety outputId =>
      some (unlocked [⟨.update, .controllableOutputs, [[outputId]]⟩])
  | createSchedule outputId action triggerKind triggerTime offsetMin daysMask enabled =>
      some (unlocked [⟨.insert, .outputSchedules,
        [[outputId, action, triggerKind, triggerTime, offsetMin, daysMask,
          .int (if enabled.truthy then 1 else 0)]]⟩])
  | updateSchedule scheduleId fields =>
      let args := scheduleArgs fields
      if args.isEmpty then none
      else some (unlocked [⟨.update, .outputSchedules, [args ++ [scheduleId]]⟩])
  | deleteSchedule scheduleId => some (unlocked [⟨.delete, .outputSchedules, [[scheduleId]]⟩])
  | markScheduleRun scheduleId atTs result =>
      some (unlocked [⟨.update, .outputSchedules, [[atTs, result, scheduleId]]⟩])
  -- The audit writers leave the commit to their callers, which all make it next.
  | writeEvent row => some (unlocked [⟨.insert, .signedAuditLog, [row]⟩])
  | markUploaded now ids =>
      some (unlocked (if ids.isEmpty then [] else [⟨.update, .signedAuditLog, [now :: ids]⟩]))

/-- What may happen at an await point: a writer is called, one of those under
way goes on, or it is cancelled, which `except Exception` does not catch. -/
inductive StoreEvent where
  | call (writer : StoreWriter)
  | exec (c : Nat)
  | commit (c : Nat)
  | fail (c : Nat) (written : Nat)
  | rollback (c : Nat)
  | cancel (c : Nat)

def StoreEvent.onConn : StoreEvent → Option (Event Statement)
  | call writer => writer.job.map .begin
  | exec c => some (.exec c)
  | commit c => some (.commit c)
  | fail c written => some (.fail c (Statement.cut written))
  | rollback c => some (.rollback c)
  | cancel c => some (.cancel c)

def storeStep (s : Conn Statement) (event : StoreEvent) : Conn Statement :=
  match event.onConn with
  | none => s
  | some event => s.step event

/-- Only `record_poll` rolls back. -/
theorem StoreWriter.rollsBack_job {writer : StoreWriter} {j : Job Statement}
    (hJob : writer.job = some j) (hRollsBack : j.rollsBack = true) :
    ∃ num str latestNum latestStr seen poll,
      writer = .recordPoll num str latestNum latestStr seen poll := by
  cases writer with
  | recordPoll num str latestNum latestStr seen poll =>
      exact ⟨num, str, latestNum, latestStr, seen, poll, rfl⟩
  | _ =>
      simp only [StoreWriter.job] at hJob
      grind [unlocked]

/-- A `record_poll` that raises finds the shared transaction its own: no other
writer has committed any of its rows, none that is under way has an uncommitted
statement when it rolls back, and it is not cancelled after a statement. -/
def RecordPollAlone (_before : List StoreEvent) (s : Conn Statement) (event : StoreEvent) : Prop :=
  ∀ onConn, event.onConn = some onConn → Alone s onConn

theorem inv_storeStep {s : Conn Statement} (h : Inv s) {before : List StoreEvent}
    {event : StoreEvent} (hAlone : RecordPollAlone before s event) : Inv (storeStep s event) := by
  unfold storeStep
  split
  case h_1 => exact h
  case h_2 onConn hOnConn => exact h.step (hAlone onConn hOnConn)

/-- In every interleaving of the writers in which each `record_poll` that raises
is alone, nothing of it remains and every writer that returned has its rows
committed. -/
theorem storeWrites_atomic {events : List StoreEvent}
    (hAlone : StepsOk storeStep RecordPollAlone Conn.initial events) :
    Atomic (run storeStep Conn.initial events) := by
  have hInit : Inv (run storeStep Conn.initial []) := inv_initial
  have hStep : ∀ before event, Inv (run storeStep Conn.initial before) →
      RecordPollAlone before (run storeStep Conn.initial before) event →
      Inv (run storeStep Conn.initial (before ++ [event])) := by
    intro before event h hOk
    rw [run_concat]
    exact inv_storeStep h hOk
  exact (invariant hInit hStep hAlone).atomic

/-- A poll of one device with one reading. -/
def shuntPoll : StoreWriter :=
  .recordPoll [[.int 60, .text "shunt", .text "voltage_v", .int 13]] []
    [[.text "shunt", .text "voltage_v", .int 60, .int 13]] []
    [[.text "shunt", .text "renogy", .text "shunt", .int 16, .int 60]]
    [.int 60, .int 900, .int 1, .int 0, .null]

def forecastKv : StoreWriter := .kvSet (.text "forecast") (.text "[]") (.int 60)

/-- The poll's second statement raises after its first; `kv_set` ran before. -/
def cleanFailure : List StoreEvent :=
  [.call forecastKv, .exec 0, .commit 0, .call shuntPoll, .exec 1, .fail 1 0, .rollback 1]

theorem storeWrites_atomic_cleanFailure :
    StepsOk storeStep RecordPollAlone Conn.initial cleanFailure ∧
      (1 ∈ (run storeStep Conn.initial cleanFailure).raised ∧
        0 ∈ (run storeStep Conn.initial cleanFailure).returned) ∧
      Atomic (run storeStep Conn.initial cleanFailure) := by
  have hAlone : StepsOk storeStep RecordPollAlone Conn.initial cleanFailure := by
    simp only [cleanFailure, stepsOk_cons, stepsOk_nil, and_true]
    refine ⟨?_, ?_, ?_, ?_, ?_, ?_, ?_⟩
    all_goals
      intro onConn hOnConn
      cases hOnConn
    case refine_7 =>
      intro a _ _
      decide
    all_goals trivial
  exact ⟨hAlone, by decide, storeWrites_atomic hAlone⟩

/-- `kv_set` commits between the poll's first statement and its rollback. -/
def committedForPoll : List StoreEvent :=
  [.call shuntPoll, .exec 0, .call forecastKv, .exec 1, .commit 1, .fail 0 0, .rollback 0]

/-- The poll rolls back between the statement of `kv_set` and its commit. -/
def rolledBackForKv : List StoreEvent :=
  [.call shuntPoll, .exec 0, .call forecastKv, .exec 1, .fail 0 0, .rollback 0, .commit 1]

theorem storeWrites_not_atomic :
    ¬ Atomic (run storeStep Conn.initial committedForPoll) ∧
      ¬ Atomic (run storeStep Conn.initial rolledBackForKv) := by
  constructor
  · intro h
    have hRaised : 0 ∈ (run storeStep Conn.initial committedForPoll).raised := by decide
    have hRows : ∃ e ∈ (run storeStep Conn.initial committedForPoll).committed, e.1 = 0 := by
      decide
    obtain ⟨e, he, hPoll⟩ := hRows
    exact h.raised 0 hRaised e (List.mem_append_left _ he) hPoll
  · intro h
    have hReturned : 1 ∈ (run storeStep Conn.initial rolledBackForKv).returned := by decide
    have hGone : (run storeStep Conn.initial rolledBackForKv).committed = [] := by decide
    have hRow := h.returned 1 hReturned _ rfl _ (List.mem_singleton_self _)
    rw [hGone] at hRow
    cases hRow

end WattPost.Storage
