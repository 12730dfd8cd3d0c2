import WattPost.Cloud.Json
import WattPost.Lib.Process
import WattPost.Storage.ClosedRollupsDrain

/-! `RollupSync.run_once` as a process. Its effects are the awaits on the store
and on the cloud, and the fields it keeps in memory between runs. The body of a
request other than its rows, the lease and the views are left out: what they
can do to a run is raise. -/
namespace WattPost.Cloud

open Process Storage

section Wire

/-- What a POST comes to. Without a body that parses, `r.json()` raises. -/
inductive PostOutcome where
  | raised (what : String)
  | replied (status : Nat) (body : Option Json)

/-- What `run_once` reports as its error. -/
inductive SyncError where
  | raised (what : String)
  | httpStatus (status : Nat)
  | notJson
  | notADict
  | acked (top : Option Json) (expected : Int)

/-- `_RETRYABLE_STATUS`. -/
def retryableStatus : List Nat := [401, 408, 429]

/-- `_post`: statuses from 400 on raise, and so does a body that is not JSON. -/
def PostOutcome.toExcept : PostOutcome → Except SyncError Json
  | .raised what => .error (.raised what)
  | .replied status body =>
      if status ≥ 400 then .error (.httpStatus status)
      else
        match body with
        | none => .error .notJson
        | some ack => .ok ack

/-- The check of `acked_through` against the last bucket of the rows posted. -/
def ackedExactly (fields : List (String × Json)) (last : Int) : Except SyncError Unit :=
  match Json.get? fields "acked_through" with
  | some (.int top) => if top = last then .ok () else .error (.acked (some (.int top)) last)
  | top => .error (.acked top last)

end Wire

section Process

variable {V : Type} [SqlReal V]

/-- A rollup row as it is fetched and posted. -/
abbrev Row (V : Type) := Key × RollupRow V

/-- `_row_ok`. -/
def rowOk (r : Row V) : Bool :=
  SqlReal.isfinite r.2.avg && SqlReal.isfinite r.2.min && SqlReal.isfinite r.2.max

/-- The text stored under `WATERMARK_KEY`, by what `int(...)` makes of it. -/
inductive StoredWatermark where
  | int (w : Int)
  | malformed
deriving DecidableEq

/-- `_poison`: the key of a batch and how often it has failed. -/
abbrev Poison := (Int × Int × Nat) × Nat

/-- What a run reads once and keeps. -/
structure RunConfig where
  now : Int
  identity : String
  backfillHours : Int
deriving DecidableEq

inductive Effect (V : Type) where
  | kvGetIdentity
  | kvSetIdentity (identity : String)
  | kvGetWatermark
  | kvSetWatermark (w : Int)
  | closedRollupsAfter (afterTs : Int)
  | inventoryAndViews
  | post (rows : List (Row V))
  | noteLease (ack : List (String × Json))
  | getPoison
  | setPoison (p : Option Poison)

/-- What each effect answers. -/
@[reducible] def Effect.Answer : Effect V → Type
  | .kvGetIdentity => Option String
  | .kvGetWatermark => Option StoredWatermark
  | .closedRollupsAfter _ => List (Row V)
  | .inventoryAndViews => Except SyncError Unit
  | .post _ => PostOutcome
  | .noteLease _ => Except SyncError Unit
  | .getPoison => Option Poison
  | .kvSetIdentity _ => Unit
  | .kvSetWatermark _ => Unit
  | .setPoison _ => Unit

abbrev SyncProc (V : Type) := Proc (Effect V) Effect.Answer

section Effects

abbrev kvGetIdentity : SyncProc V (Option String) := Proc.perform Effect.kvGetIdentity
abbrev kvSetIdentity (identity : String) : SyncProc V Unit := Proc.perform (Effect.kvSetIdentity identity)
abbrev kvGetWatermark : SyncProc V (Option StoredWatermark) := Proc.perform Effect.kvGetWatermark
abbrev kvSetWatermark (w : Int) : SyncProc V Unit := Proc.perform (Effect.kvSetWatermark w)
abbrev fetchClosed (afterTs : Int) : SyncProc V (List (Row V)) :=
  Proc.perform (Effect.closedRollupsAfter afterTs)
abbrev inventoryAndViews : SyncProc V (Except SyncError Unit) := Proc.perform Effect.inventoryAndViews
abbrev postRows (rows : List (Row V)) : SyncProc V PostOutcome := Proc.perform (Effect.post rows)
abbrev noteLease (ack : List (String × Json)) : SyncProc V (Except SyncError Unit) :=
  Proc.perform (Effect.noteLease ack)
abbrev getPoison : SyncProc V (Option Poison) := Proc.perform Effect.getPoison
abbrev setPoison (p : Option Poison) : SyncProc V Unit := Proc.perform (Effect.setPoison p)

end Effects

/-- `BATCH_ROWS`, `MAX_BATCHES_PER_RUN` and `POISON_THRESHOLD`. -/
def batchRows : Nat := 5000
def maxBatchesPerRun : Nat := 24
def poisonThreshold : Nat := 3

structure SyncResult where
  sentRows : Nat := 0
  skippedRows : Nat := 0
  batches : Nat := 0
  caughtUp : Bool := false
  error : Option SyncError := none

/-- Where a fresh backfill starts. -/
def RunConfig.fresh (cfg : RunConfig) : Int := (cfg.now - cfg.backfillHours * 3600) / 60 * 60 - 60

/-- The end of `_watermark`: the stored watermark, unless it is in the future
or no number. -/
def storedWatermark (cfg : RunConfig) : SyncProc V Int := do
  match ← kvGetWatermark with
  | some (.int w) => return if w ≤ cfg.now then w else cfg.fresh
  | some .malformed => return cfg.fresh
  | none => return cfg.fresh

/-- `_watermark`. -/
def watermark (cfg : RunConfig) : SyncProc V Int := do
  if cfg.identity = "" then storedWatermark cfg
  else
    match ← kvGetIdentity with
    | some stored =>
        if stored = cfg.identity then storedWatermark cfg
        else
          kvSetWatermark cfg.fresh
          kvSetIdentity cfg.identity
          setPoison none
          return cfg.fresh
    | none =>
        kvSetIdentity cfg.identity
        storedWatermark cfg

/-- `_post`. -/
def post (rows : List (Row V)) : SyncProc V (Except SyncError Json) := do
  return (← postRows rows).toExcept

/-- `go` inside `_isolate`: how many rows of the chunk were given up on. -/
def isolateGo (chunk : List (Row V)) (hne : chunk ≠ []) : SyncProc V (Except SyncError Nat) := do
  match ← post chunk with
  | .ok (.obj fields) => return (ackedExactly fields (bucketTs (chunk.getLast hne))).map fun _ => 0
  | .ok _ => return .error .notADict
  | .error (.httpStatus status) =>
      if status ∈ retryableStatus then return .error (.httpStatus status)
      else if h : chunk.length = 1 then
        return (← post []).map fun _ => 1
      else
        have hTwo : 2 ≤ chunk.length := by
          have := List.length_pos_iff.mpr hne
          omega
        match ← isolateGo (chunk.take (chunk.length / 2)) (by
            apply List.ne_nil_of_length_pos
            rw [List.length_take]
            omega) with
        | .error e => return .error e
        | .ok n =>
            return (← isolateGo (chunk.drop (chunk.length / 2)) (by
                apply List.ne_nil_of_length_pos
                rw [List.length_drop]
                omega)).map fun m => n + m
  | .error e => return .error e
termination_by chunk.length
decreasing_by
  all_goals simp only [List.length_take, List.length_drop]; omega

/-- `_isolate`. -/
def isolate (rows : List (Row V)) (hne : rows ≠ []) : SyncProc V (Except SyncError Nat) := do
  match ← post [] with
  | .error e => return .error e
  | .ok _ => isolateGo rows hne

/-- The consecutive failures of a batch, this one included. -/
def poisonCount (key : Int × Int × Nat) : Option Poison → Nat
  | some (k, n) => if k = key then n + 1 else 1
  | none => 1

/-- The part of the loop that posts a batch and works on the answer, for
`rows`, which is not empty. `error` when it raises, with what `res` holds by then. -/
def deliver (wm : Int) (rows : List (Row V)) (hne : rows ≠ []) (res : SyncResult) :
    SyncProc V (Except SyncResult SyncResult) := do
  match ← post rows with
  | .error (.httpStatus status) =>
      if status ∈ retryableStatus then return .error { res with error := some (.httpStatus status) }
      else
        let key := (wm, bucketTs (rows.getLast hne), rows.length)
        let n := poisonCount key (← getPoison)
        setPoison (some (key, n))
        if n < poisonThreshold then return .error { res with error := some (.httpStatus status) }
        else
          match ← isolate rows hne with
          | .error e => return .error { res with error := some e }
          | .ok skipped =>
              setPoison none
              return .ok { res with
                skippedRows := res.skippedRows + skipped
                batches := res.batches + 1
                sentRows := res.sentRows + (rows.length - skipped) }
  | .error e => return .error { res with error := some e }
  | .ok (.obj fields) =>
      setPoison none
      match ← noteLease fields with
      | .error e => return .error { res with error := some e }
      | .ok _ =>
          let res := { res with batches := res.batches + 1, sentRows := res.sentRows + rows.length }
          match ackedExactly fields (bucketTs (rows.getLast hne)) with
          | .error e => return .error { res with error := some e }
          | .ok _ => return .ok res
  | .ok _ =>
      setPoison none
      return .error { res with error := some .notADict }

/-- The post that a run makes when there is nothing to deliver. -/
def postNothing (res : SyncResult) : SyncProc V SyncResult := do
  match ← post [] with
  | .error e => return { res with error := some e }
  | .ok (.obj fields) =>
      setPoison none
      match ← noteLease fields with
      | .error e => return { res with error := some e }
      | .ok _ => return { res with batches := res.batches + 1, caughtUp := true }
  | .ok _ =>
      setPoison none
      return { res with error := some .notADict }

/-- The inventory and the views go up with the first post of a run. -/
def firstPost (res : SyncResult) : SyncProc V (Except SyncError Unit) :=
  if res.batches = 0 then inventoryAndViews else return .ok ()

/-- The loop of `run_once` from a watermark on, for so many batches. -/
def runBatches : Nat → Int → SyncResult → SyncProc V SyncResult
  | 0, _, res => return { res with caughtUp := false }
  | fuel + 1, wm, res => do
      let rawRows ← fetchClosed wm
      match rawRows.getLast? with
      | none =>
          if res.batches > 0 then return { res with caughtUp := true }
          else
            match ← firstPost res with
            | .error e => return { res with error := some e }
            | .ok _ => postNothing res
      | some rawLast =>
          let rows := rawRows.filter rowOk
          let res := { res with skippedRows := res.skippedRows + (rawRows.length - rows.length) }
          if hne : rows = [] then
            kvSetWatermark (bucketTs rawLast)
            runBatches fuel (bucketTs rawLast) res
          else
            match ← firstPost res with
            | .error e => return { res with error := some e }
            | .ok _ =>
                match ← deliver wm rows hne res with
                | .error res => return res
                | .ok res =>
                    kvSetWatermark (bucketTs rawLast)
                    runBatches fuel (bucketTs rawLast) res

/-- `run_once`. -/
def runOnce (cfg : RunConfig) : SyncProc V SyncResult := do
  runBatches maxBatchesPerRun (← watermark cfg) {}

end Process

end WattPost.Cloud
