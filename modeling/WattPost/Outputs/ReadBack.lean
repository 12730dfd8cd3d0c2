import Mathlib.Data.String.Basic
import WattPost.Lib.Runs
import WattPost.Lib.Table
import WattPost.Outputs.Api

/-! How old the state of an output is. The rows are written from two sides: after a poll
`apply_snapshot` copies what `latest` has of a device, and a toggle stores what its
read-back confirmed. Polls, snapshots and toggles interleave at every await. -/
namespace WattPost.Outputs.ReadBack

open Keyed Runs

/-! ### The parties -/

/-- The `load_status` that `latest` has of a device, and when the device was read. -/
structure Cached where
  status : String
  takenAt : Nat

/-- `RoverLoadAdapter.read_state_from_snapshot`. -/
def readStateFromSnapshot (status : String) : Option Int :=
  if status = "on" then some 1
  else if status = "off" then some 0
  else none

/-- A call of `apply_snapshot` under way: `get_latest` has read the table; the loop has
come to these outputs; a plug answered its probe and its write comes next. -/
inductive ApplyTask where
  | fetched (latest : Table String Cached)
  | looping (latest : Table String Cached) (now : Nat) (todo : List Discovered)
  | probed (latest : Table String Cached) (now : Nat) (todo : List Discovered)
      (outputId : String) (state : Int) (readAt : Nat)

/-- How far a call of `toggle` has come: the adapter writes; it returned, with a state that
was read back at some time; the command is recorded; the confirmed state is stored. -/
inductive TogglePhase where
  | writing
  | answered (result : WriteResult) (readAt : Nat)
  | recorded (result : WriteResult) (readAt : Nat)
  | stored (result : WriteResult) (readAt : Nat)

structure ToggleTask where
  outputId : String
  on : Bool
  issuer : String
  now : Nat
  phase : TogglePhase

/-- Where the state of a row comes from: when the device had it, and whether it was copied
from `latest`. -/
structure Origin where
  state : Int
  readAt : Nat
  fromSnapshot : Bool

/-- A confirmed state that a toggle stored. -/
structure ConfirmedState where
  outputId : String
  readAt : Nat

/-- A toggle with a confirmed state that returned. -/
structure Returned where
  outputId : String
  readAt : Nat
  returnedAt : Nat

/-- The moment that counts as the time of a toggle. -/
inductive Moment where
  | readBack
  | returned

def Returned.time (moment : Moment) (q : Returned) : Nat :=
  match moment with
  | .readBack => q.readAt
  | .returned => q.returnedAt

/-- The store, the service and what is under way. `origin`, `confirmed` and `returned`
are the history, which the program does not keep. -/
structure World where
  clock : Nat
  outputs : List OutputRow
  latest : Table String Cached
  polled : List (String × Cached)
  known : List Discovered
  applies : List ApplyTask
  toggles : List ToggleTask
  origin : String → Option Origin
  confirmed : List ConfirmedState
  returned : List Returned

/-- A fresh store. -/
def World.initial (clock : Nat) : World where
  clock := clock
  outputs := []
  latest := .empty
  polled := []
  known := []
  applies := []
  toggles := []
  origin := fun _ => none
  confirmed := []
  returned := []

/-! ### The steps -/

/-- What happens next: a second passes; `discover_all` finds these outputs; a device
answers the poll with its `load_status`; the poll is recorded; a call of
`apply_snapshot` reads `latest`, takes the time, probes a plug or writes a row; a toggle
starts, hears from the adapter, records its command, stores the confirmed state or
returns; or the daemon restarts. A device that is silent or removed answers no poll. -/
inductive Event where
  | tick
  | discovered (found : Discovery)
  | answered (label status : String)
  | recorded
  | applyFetch
  | applyStart (i : Nat)
  | probe (i : Nat) (state : Option Int)
  | applyWrite (i : Nat)
  | toggleStart (outputId : String) (on : Bool) (issuer : String)
  | confirm (i : Nat) (result : WriteResult)
  | toggleRecord (i : Nat)
  | toggleStore (i : Nat)
  | toggleReturn (i : Nat)
  | restart

/-- A call of `update_output_state`, with the origin of the state. -/
structure Write where
  outputId : String
  origin : Origin
  now : Nat

def writeState (w : World) (x : Write) : World :=
  { w with
    outputs := updateOutputState w.outputs x.outputId (some x.origin.state) x.now
    origin := fun outputId => if outputId = x.outputId then some x.origin else w.origin outputId }

/-- What the loop of `apply_snapshot` writes next, if anything, and how it goes on. -/
def ApplyTask.next : ApplyTask → Option (Option Write × ApplyTask)
  | .fetched _ => none
  | .looping _ _ [] => none
  | .looping latest now (o :: todo) =>
      if o.kind = "smart_plug" then none
      else
        let read := do
          let cached ← latest.lookup o.deviceLabel
          let state ← readStateFromSnapshot cached.status
          pure (Write.mk o.id ⟨state, cached.takenAt, true⟩ now)
        some (read, .looping latest now todo)
  | .probed latest now todo outputId state readAt =>
      some (some ⟨outputId, ⟨state, readAt, false⟩, now⟩, .looping latest now todo)

def step (w : World) : Event → World
  | .tick => { w with clock := w.clock + 1 }
  | .discovered found =>
      { w with outputs := found.outputs.foldl upsertOutput w.outputs, known := found.outputs }
  | .answered label status => { w with polled := w.polled ++ [(label, ⟨status, w.clock⟩)] }
  | .recorded => { w with latest := w.latest.insertAll w.polled, polled := [] }
  | .applyFetch =>
      if w.known.isEmpty then w else { w with applies := w.applies ++ [.fetched w.latest] }
  | .applyStart i =>
      match w.applies[i]? with
      | some (.fetched latest) =>
          { w with applies := w.applies.set i (.looping latest w.clock w.known) }
      | _ => w
  | .probe i state =>
      match w.applies[i]? with
      | some (.looping latest now (o :: todo)) =>
          if o.kind = "smart_plug" then
            match state with
            | some state =>
                { w with applies := w.applies.set i (.probed latest now todo o.id state w.clock) }
            | none => { w with applies := w.applies.set i (.looping latest now todo) }
          else w
      | _ => w
  | .applyWrite i =>
      match w.applies[i]?.bind ApplyTask.next with
      | some (some x, task) => { writeState w x with applies := w.applies.set i task }
      | some (none, task) => { w with applies := w.applies.set i task }
      | none => w
  | .toggleStart outputId on issuer =>
      if w.known.any (fun o => o.id = outputId) then
        { w with toggles := w.toggles ++ [⟨outputId, on, issuer, w.clock, .writing⟩] }
      else w
  | .confirm i result =>
      match w.toggles[i]? with
      | some ⟨outputId, on, issuer, now, .writing⟩ =>
          { w with
            toggles := w.toggles.set i ⟨outputId, on, issuer, now, .answered result w.clock⟩ }
      | _ => w
  | .toggleRecord i =>
      match w.toggles[i]? with
      | some ⟨outputId, on, issuer, now, .answered result readAt⟩ =>
          { w with
            outputs := recordOutputCommand w.outputs ⟨outputId, on, now, issuer, resultStr result⟩
            toggles := w.toggles.set i ⟨outputId, on, issuer, now, .recorded result readAt⟩ }
      | _ => w
  | .toggleStore i =>
      match w.toggles[i]? with
      | some ⟨outputId, on, issuer, now, .recorded result readAt⟩ =>
          let stored : ToggleTask := ⟨outputId, on, issuer, now, .stored result readAt⟩
          match result.confirmedState with
          | some state =>
              { writeState w ⟨outputId, ⟨state, readAt, false⟩, now⟩ with
                toggles := w.toggles.set i stored
                confirmed := ⟨outputId, readAt⟩ :: w.confirmed }
          | none => { w with toggles := w.toggles.set i stored }
      | _ => w
  | .toggleReturn i =>
      match w.toggles[i]? with
      | some ⟨outputId, _, _, _, .stored result readAt⟩ =>
          { w with
            toggles := w.toggles.eraseIdx i
            returned :=
              if result.confirmedState.isSome then ⟨outputId, readAt, w.clock⟩ :: w.returned
              else w.returned }
      | _ => w
  | .restart => { w with polled := [], known := [], applies := [], toggles := [] }

/-- When nothing comes between them, the two writes of a toggle are those of `applyWrite`. -/
theorem outputs_toggleRecord_toggleStore {w : World} {i : Nat} {outputId issuer : String}
    {on : Bool} {now readAt : Nat} {result : WriteResult}
    (hTask : w.toggles[i]? = some ⟨outputId, on, issuer, now, .answered result readAt⟩) :
    (run step w [.toggleRecord i, .toggleStore i]).outputs =
      (applyWrite ⟨w.outputs, now, []⟩ ⟨outputId, on, now, issuer, resultStr result⟩
        result).outputs := by
  have hBound : i < w.toggles.length := (List.getElem?_eq_some_iff.mp hTask).1
  simp only [run, List.foldl_cons, List.foldl_nil, step, hTask, List.getElem?_set_self hBound]
  cases hState : result.confirmedState with
  | none => simp [applyWrite, hState]
  | some state => simp [applyWrite, hState, writeState]

/-! ### What a row says -/

/-- The row of an output says this state, of this time. -/
def Says (outputs : List OutputRow) (outputId : String) (state stateAt : Int) : Prop :=
  ∃ row, findRow outputs outputId = some row ∧ row.state = some state ∧
    row.stateAt = some stateAt

theorem says_updateOutputState {outputs : List OutputRow} {outputId other : String}
    {new now state stateAt : Int} :
    Says (updateOutputState outputs outputId (some new) now) other state stateAt ↔
      if other = outputId then
        (findRow outputs outputId).isSome = true ∧ state = new ∧ stateAt = now
      else Says outputs other state stateAt := by
  rw [Says, findRow_updateOutputState]
  by_cases hId : other = outputId
  · subst hId
    cases hRow : findRow outputs other with
    | none => simp
    | some row => simp [eq_comm]
  · simp [hId, Says]

theorem says_recordOutputCommand {outputs : List OutputRow} {command : Command}
    {other : String} {state stateAt : Int} :
    Says (recordOutputCommand outputs command) other state stateAt ↔
      Says outputs other state stateAt := by
  rw [Says, findRow_recordOutputCommand]
  by_cases hId : other = command.outputId
  · simp [hId, Says]
  · simp [hId, Says]

theorem says_upsertOutput {outputs : List OutputRow} {o : Discovered} {other : String}
    {state stateAt : Int} :
    Says (upsertOutput outputs o) other state stateAt ↔ Says outputs other state stateAt := by
  unfold upsertOutput
  split
  · rw [Says, findRow_updateRow]
    · by_cases hId : other = o.id
      · simp [hId, Says]
      · simp [hId, Says]
    · intro row
      rfl
  · next hNew =>
      have hNone : findRow outputs o.id = none := by simpa using hNew
      simp only [Says, findRow, List.find?_append]
      by_cases hId : o.id = other
      · subst hId
        rw [findRow] at hNone
        simp [hNone]
      · simp [hId]

theorem says_discovered {found : List Discovered} {outputs : List OutputRow} {other : String}
    {state stateAt : Int} :
    Says (found.foldl upsertOutput outputs) other state stateAt ↔
      Says outputs other state stateAt := by
  induction found generalizing outputs with
  | nil => rfl
  | cons o found ih =>
      rw [List.foldl_cons, ih]
      exact says_upsertOutput

/-! ### What a row promises -/

/-- The state of a row is as young as the row says: the device had it at most one poll
cycle before, not before a toggle that had returned by then, and a copy from `latest`
replaced no state that was confirmed later. -/
structure AsYoungAsItSays (cycle : Nat) (moment : Moment) (returned : List Returned)
    (confirmed : List ConfirmedState) (outputId : String) (state stateAt : Int) (o : Origin) :
    Prop where
  state : o.state = state
  cycle : stateAt ≤ o.readAt + cycle
  toggled : ∀ q ∈ returned, q.outputId = outputId → (q.returnedAt : Int) < stateAt →
    q.time moment ≤ o.readAt
  newer : o.fromSnapshot = true → ∀ c ∈ confirmed, c.outputId = outputId →
    c.readAt ≤ o.readAt

/-- Every stored state is as young as its row says. -/
def NeverOlder (cycle : Nat) (moment : Moment) (w : World) : Prop :=
  ∀ outputId state stateAt, Says w.outputs outputId state stateAt →
    ∃ o, w.origin outputId = some o ∧
      AsYoungAsItSays cycle moment w.returned w.confirmed outputId state stateAt o

/-- What `apply_snapshot` copies from `latest` was read at most one poll cycle before the
time it took, not before a toggle of the output that had returned by then, nor before a
confirmed state that a toggle of the output has stored. -/
def Timely (cycle : Nat) (moment : Moment) (w : World) : Event → Prop
  | .applyWrite i => ∀ x task, w.applies[i]?.bind ApplyTask.next = some (some x, task) →
      x.origin.fromSnapshot = true → (findRow w.outputs x.outputId).isSome = true →
        x.now ≤ x.origin.readAt + cycle ∧
          (∀ q ∈ w.returned, q.outputId = x.outputId → q.returnedAt < x.now →
            q.time moment ≤ x.origin.readAt) ∧
          ∀ c ∈ w.confirmed, c.outputId = x.outputId → c.readAt ≤ x.origin.readAt
  | _ => True

/-! ### The tasks -/

/-- The times a call of `apply_snapshot` keeps are in order. -/
def ApplyTask.Ordered (clock : Nat) : ApplyTask → Prop
  | .fetched _ => True
  | .looping _ now _ => now ≤ clock
  | .probed _ now _ _ _ readAt => now ≤ readAt ∧ readAt ≤ clock

/-- The times a toggle keeps are in order: what it reads back it reads after it took
the time. -/
def ToggleTask.Ordered (clock : Nat) (t : ToggleTask) : Prop :=
  match t.phase with
  | .writing => t.now ≤ clock
  | .answered _ readAt | .recorded _ readAt | .stored _ readAt =>
      t.now ≤ readAt ∧ readAt ≤ clock

theorem ApplyTask.Ordered.mono {a : ApplyTask} {clock clock' : Nat} (h : a.Ordered clock)
    (hClock : clock ≤ clock') : a.Ordered clock' := by
  cases a with
  | fetched latest => trivial
  | looping latest now todo => exact Nat.le_trans h hClock
  | probed latest now todo outputId state readAt => exact ⟨h.1, Nat.le_trans h.2 hClock⟩

theorem ToggleTask.Ordered.mono {t : ToggleTask} {clock clock' : Nat} (h : t.Ordered clock)
    (hClock : clock ≤ clock') : t.Ordered clock' := by
  obtain ⟨outputId, on, issuer, now, phase⟩ := t
  cases phase with
  | writing => exact Nat.le_trans h hClock
  | answered result readAt => exact ⟨h.1, Nat.le_trans h.2 hClock⟩
  | recorded result readAt => exact ⟨h.1, Nat.le_trans h.2 hClock⟩
  | stored result readAt => exact ⟨h.1, Nat.le_trans h.2 hClock⟩

theorem forall_mem_set {α : Type} {p : α → Prop} {xs : List α} (h : ∀ x ∈ xs, p x) {y : α}
    (hy : p y) (i : Nat) : ∀ x ∈ xs.set i y, p x := by
  intro x hx
  rcases List.mem_or_eq_of_mem_set hx with hx | rfl
  · exact h x hx
  · exact hy

/-- What the loop of `apply_snapshot` writes, it writes under the time the loop took: a
copy from `latest`, or the answer of a plug since. -/
theorem ApplyTask.next_ordered {a task : ApplyTask} {write : Option Write} {clock : Nat}
    (h : a.Ordered clock) (hNext : a.next = some (write, task)) :
    task.Ordered clock ∧ ∀ x, write = some x → x.now ≤ clock ∧
      (x.origin.fromSnapshot = true ∨ x.now ≤ x.origin.readAt) := by
  cases a with
  | fetched latest => cases hNext
  | probed latest now todo outputId state readAt =>
      cases hNext
      refine ⟨Nat.le_trans h.1 h.2, ?_⟩
      intro x hx
      cases hx
      exact ⟨Nat.le_trans h.1 h.2, Or.inr h.1⟩
  | looping latest now todo =>
      cases todo with
      | nil => cases hNext
      | cons o todo =>
          simp only [ApplyTask.next] at hNext
          split at hNext
          · cases hNext
          · cases hNext
            refine ⟨h, ?_⟩
            intro x hx
            simp only [Option.bind_eq_bind, Option.bind_eq_some_iff] at hx
            obtain ⟨cached, _, state, _, hx⟩ := hx
            cases hx
            exact ⟨h, Or.inl rfl⟩

/-! ### The invariant -/

/-- No row is stamped ahead of the clock, and every row is as young as it says. -/
structure Inv (cycle : Nat) (moment : Moment) (w : World) : Prop where
  stamped : ∀ outputId state stateAt, Says w.outputs outputId state stateAt → stateAt ≤ w.clock
  rows : NeverOlder cycle moment w
  applies : ∀ a ∈ w.applies, a.Ordered w.clock
  toggles : ∀ t ∈ w.toggles, t.Ordered w.clock
  returned : ∀ q ∈ w.returned, q.readAt ≤ q.returnedAt

theorem Returned.time_le {q : Returned} (h : q.readAt ≤ q.returnedAt) (moment : Moment) :
    q.time moment ≤ q.returnedAt := by
  cases moment with
  | readBack => exact h
  | returned => exact Nat.le_refl _

variable {cycle : Nat} {moment : Moment}

theorem inv_initial (clock : Nat) : Inv cycle moment (.initial clock) where
  stamped := by
    rintro outputId state stateAt ⟨row, hRow, _⟩
    cases hRow
  rows := by
    rintro outputId state stateAt ⟨row, hRow, _⟩
    cases hRow
  applies := by
    intro a ha
    cases ha
  toggles := by
    intro t ht
    cases ht
  returned := by
    intro q hq
    cases hq

/-- A write of a state of which all of this holds leaves every row as young as it says;
a toggle's write may enter the state among the confirmed ones. -/
theorem Inv.write {w : World} (h : Inv cycle moment w) {x : Write} (hNow : x.now ≤ w.clock)
    (hYoung : (findRow w.outputs x.outputId).isSome = true →
      x.now ≤ x.origin.readAt + cycle ∧
        (∀ q ∈ w.returned, q.outputId = x.outputId → q.returnedAt < x.now →
          q.time moment ≤ x.origin.readAt) ∧
        (x.origin.fromSnapshot = true → ∀ c ∈ w.confirmed, c.outputId = x.outputId →
          c.readAt ≤ x.origin.readAt))
    {confirmed : List ConfirmedState}
    (hConfirmed : ∀ c ∈ confirmed, c ∈ w.confirmed ∨
      c.outputId = x.outputId ∧ x.origin.fromSnapshot = false) :
    Inv cycle moment { writeState w x with confirmed := confirmed } where
  stamped := by
    intro outputId state stateAt hSays
    rw [writeState, says_updateOutputState] at hSays
    split at hSays
    · obtain ⟨_, _, rfl⟩ := hSays
      exact Int.ofNat_le.mpr hNow
    · exact h.stamped outputId state stateAt hSays
  rows := by
    intro outputId state stateAt hSays
    rw [writeState, says_updateOutputState] at hSays
    by_cases hId : outputId = x.outputId
    · rw [if_pos hId] at hSays
      obtain ⟨hRow, rfl, rfl⟩ := hSays
      obtain ⟨hCycle, hReturned, hNewer⟩ := hYoung hRow
      refine ⟨x.origin, if_pos hId, rfl, by omega, ?_, ?_⟩
      · intro q hq hQ hBefore
        exact hReturned q hq (hQ.trans hId) (Int.ofNat_lt.mp hBefore)
      · intro hCopy c hc hC
        rcases hConfirmed c hc with hOld | ⟨_, hRead⟩
        · exact hNewer hCopy c hOld (hC.trans hId)
        · rw [hRead] at hCopy
          cases hCopy
    · rw [if_neg hId] at hSays
      obtain ⟨o, hOrigin, hState, hCycle, hReturned, hNewer⟩ := h.rows outputId state stateAt hSays
      refine ⟨o, (if_neg hId).trans hOrigin, hState, hCycle, hReturned, ?_⟩
      intro hCopy c hc hC
      rcases hConfirmed c hc with hOld | ⟨hOther, _⟩
      · exact hNewer hCopy c hOld hC
      · exact absurd (hC.symm.trans hOther) hId
  applies := h.applies
  toggles := h.toggles
  returned := h.returned

/-- A step that changes no state of a row keeps what the rows promise. -/
theorem Inv.outputs {w : World} (h : Inv cycle moment w) {outputs : List OutputRow}
    (hSays : ∀ outputId state stateAt, Says outputs outputId state stateAt ↔
      Says w.outputs outputId state stateAt) : Inv cycle moment { w with outputs := outputs } where
  stamped := by
    intro outputId state stateAt hNew
    exact h.stamped outputId state stateAt ((hSays outputId state stateAt).mp hNew)
  rows := by
    intro outputId state stateAt hNew
    exact h.rows outputId state stateAt ((hSays outputId state stateAt).mp hNew)
  applies := h.applies
  toggles := h.toggles
  returned := h.returned

theorem Inv.setApplies {w : World} (h : Inv cycle moment w) {applies : List ApplyTask}
    (hApplies : ∀ a ∈ applies, a.Ordered w.clock) :
    Inv cycle moment { w with applies := applies } where
  stamped := h.stamped
  rows := h.rows
  applies := hApplies
  toggles := h.toggles
  returned := h.returned

theorem Inv.setToggles {w : World} (h : Inv cycle moment w) {toggles : List ToggleTask}
    (hToggles : ∀ t ∈ toggles, t.Ordered w.clock) :
    Inv cycle moment { w with toggles := toggles } where
  stamped := h.stamped
  rows := h.rows
  applies := h.applies
  toggles := hToggles
  returned := h.returned

theorem inv_tick {w : World} (h : Inv cycle moment w) : Inv cycle moment (step w .tick) where
  stamped := by
    intro outputId state stateAt hSays
    have := h.stamped outputId state stateAt hSays
    simp only [step]
    omega
  rows := h.rows
  applies := by
    intro a ha
    exact (h.applies a ha).mono (Nat.le_succ _)
  toggles := by
    intro t ht
    exact (h.toggles t ht).mono (Nat.le_succ _)
  returned := h.returned

theorem inv_restart {w : World} (h : Inv cycle moment w) :
    Inv cycle moment (step w .restart) where
  stamped := h.stamped
  rows := h.rows
  applies := by
    intro a ha
    cases ha
  toggles := by
    intro t ht
    cases ht
  returned := h.returned

/-- The next step of one call of `apply_snapshot` that writes nothing. -/
theorem Inv.setApply {w : World} (h : Inv cycle moment w) {a : ApplyTask}
    (ha : a.Ordered w.clock) (i : Nat) :
    Inv cycle moment { w with applies := w.applies.set i a } :=
  h.setApplies (forall_mem_set h.applies ha i)

/-- The next step of one toggle that writes nothing. -/
theorem Inv.setToggle {w : World} (h : Inv cycle moment w) {t : ToggleTask}
    (ht : t.Ordered w.clock) (i : Nat) :
    Inv cycle moment { w with toggles := w.toggles.set i t } :=
  h.setToggles (forall_mem_set h.toggles ht i)

theorem Inv.apply {w : World} (h : Inv cycle moment w) {i : Nat} {a : ApplyTask}
    (ha : w.applies[i]? = some a) : a.Ordered w.clock :=
  h.applies a (List.mem_of_getElem? ha)

theorem Inv.toggle {w : World} (h : Inv cycle moment w) {i : Nat} {t : ToggleTask}
    (ht : w.toggles[i]? = some t) : t.Ordered w.clock :=
  h.toggles t (List.mem_of_getElem? ht)

theorem inv_applyStart {w : World} (h : Inv cycle moment w) (i : Nat) :
    Inv cycle moment (step w (.applyStart i)) := by
  simp only [step]
  split
  · exact h.setApply (Nat.le_refl _) i
  · exact h

theorem inv_probe {w : World} (h : Inv cycle moment w) (i : Nat) (state : Option Int) :
    Inv cycle moment (step w (.probe i state)) := by
  simp only [step]
  split
  · next latest now o todo hTask =>
      have hNow : now ≤ w.clock := h.apply hTask
      split
      · cases state with
        | none =>
            apply h.setApply
            exact hNow
        | some state =>
            apply h.setApply
            exact ⟨hNow, Nat.le_refl _⟩
      · exact h
  · exact h

theorem inv_applyWrite {w : World} (h : Inv cycle moment w) {i : Nat}
    (hTimely : Timely cycle moment w (.applyWrite i)) :
    Inv cycle moment (step w (.applyWrite i)) := by
  simp only [step]
  split
  · next x task hNext =>
      obtain ⟨a, ha, hA⟩ := Option.bind_eq_some_iff.mp hNext
      obtain ⟨hTask, hWrite⟩ := ApplyTask.next_ordered (h.apply ha) hA
      obtain ⟨hNow, hRead⟩ := hWrite x rfl
      have hWritten : Inv cycle moment (writeState w x) := by
        apply h.write hNow
        · intro hRow
          by_cases hCopy : x.origin.fromSnapshot = true
          · obtain ⟨hCycle, hToggled, hNewer⟩ := hTimely x task hNext hCopy hRow
            exact ⟨hCycle, hToggled, fun _ => hNewer⟩
          · have hSince : x.now ≤ x.origin.readAt := hRead.resolve_left hCopy
            refine ⟨by omega, ?_, fun hTrue => absurd hTrue hCopy⟩
            intro q hq _ hBefore
            have := Returned.time_le (h.returned q hq) moment
            omega
        · intro c hc
          exact Or.inl hc
      exact hWritten.setApply hTask i
  · next task hNext =>
      obtain ⟨a, ha, hA⟩ := Option.bind_eq_some_iff.mp hNext
      exact h.setApply (ApplyTask.next_ordered (h.apply ha) hA).1 i
  · exact h

theorem inv_toggleRecord {w : World} (h : Inv cycle moment w) (i : Nat) :
    Inv cycle moment (step w (.toggleRecord i)) := by
  simp only [step]
  split
  · next outputId on issuer now result readAt hTask =>
      have hOrder : now ≤ readAt ∧ readAt ≤ w.clock := h.toggle hTask
      apply (h.outputs fun _ _ _ => says_recordOutputCommand).setToggle
      exact hOrder
  · exact h

theorem inv_toggleStore {w : World} (h : Inv cycle moment w) (i : Nat) :
    Inv cycle moment (step w (.toggleStore i)) := by
  simp only [step]
  split
  · next outputId on issuer now result readAt hTask =>
      have hOrder : now ≤ readAt ∧ readAt ≤ w.clock := h.toggle hTask
      split
      · next state hState =>
          have hWritten : Inv cycle moment
              { writeState w ⟨outputId, ⟨state, readAt, false⟩, now⟩ with
                confirmed := ⟨outputId, readAt⟩ :: w.confirmed } := by
            apply h.write (Nat.le_trans hOrder.1 hOrder.2)
            · intro _
              refine ⟨Nat.le_add_right_of_le hOrder.1, ?_, fun hCopy => by cases hCopy⟩
              intro q hq _ hBefore
              have hTime := Returned.time_le (h.returned q hq) moment
              exact Nat.le_trans hTime (Nat.le_trans (Nat.le_of_lt hBefore) hOrder.1)
            · intro c hc
              rcases List.mem_cons.mp hc with rfl | hOld
              · exact Or.inr ⟨rfl, rfl⟩
              · exact Or.inl hOld
          apply hWritten.setToggle
          exact hOrder
      · apply h.setToggle
        exact hOrder
  · exact h

/-- A toggle that returns now returns before no stored state. -/
theorem inv_toggleReturn {w : World} (h : Inv cycle moment w) (i : Nat) :
    Inv cycle moment (step w (.toggleReturn i)) := by
  simp only [step]
  split
  · next outputId on issuer now result readAt hTask =>
      have hOrder : now ≤ readAt ∧ readAt ≤ w.clock := h.toggle hTask
      have hLeft : Inv cycle moment { w with toggles := w.toggles.eraseIdx i } :=
        h.setToggles fun t ht => h.toggles t (List.mem_of_mem_eraseIdx ht)
      by_cases hState : result.confirmedState.isSome = true
      · rw [if_pos hState]
        refine ⟨hLeft.stamped, ?_, hLeft.applies, hLeft.toggles, ?_⟩
        · intro other state stateAt hSays
          obtain ⟨o, hOrigin, hYoung⟩ := hLeft.rows other state stateAt hSays
          refine ⟨o, hOrigin, hYoung.state, hYoung.cycle, ?_, hYoung.newer⟩
          intro q hq hId hBefore
          rcases List.mem_cons.mp hq with rfl | hOld
          · have hStamped : stateAt ≤ w.clock := h.stamped other state stateAt hSays
            exact absurd hBefore (not_lt.mpr hStamped)
          · exact hYoung.toggled q hOld hId hBefore
        · intro q hq
          rcases List.mem_cons.mp hq with rfl | hOld
          · exact hOrder.2
          · exact h.returned q hOld
      · rw [if_neg hState]
        exact hLeft
  · exact h

/-- Every step keeps the invariant, as long as what is copied from `latest` is timely. -/
theorem inv_step {w : World} (h : Inv cycle moment w) {e : Event}
    (hTimely : Timely cycle moment w e) : Inv cycle moment (step w e) := by
  cases e with
  | tick => exact inv_tick h
  | discovered found =>
      have hRows : Inv cycle moment
          { w with outputs := found.outputs.foldl upsertOutput w.outputs } :=
        h.outputs fun _ _ _ => says_discovered
      exact ⟨hRows.stamped, hRows.rows, hRows.applies, hRows.toggles, hRows.returned⟩
  | answered label status => exact ⟨h.stamped, h.rows, h.applies, h.toggles, h.returned⟩
  | recorded => exact ⟨h.stamped, h.rows, h.applies, h.toggles, h.returned⟩
  | applyFetch =>
      simp only [step]
      split
      · exact h
      · apply h.setApplies
        intro a ha
        rcases List.mem_append.mp ha with hOld | hNew
        · exact h.applies a hOld
        · rw [List.mem_singleton.mp hNew]
          trivial
  | applyStart i => exact inv_applyStart h i
  | probe i state => exact inv_probe h i state
  | applyWrite i => exact inv_applyWrite h hTimely
  | toggleStart outputId on issuer =>
      simp only [step]
      split
      · apply h.setToggles
        intro t ht
        rcases List.mem_append.mp ht with hOld | hNew
        · exact h.toggles t hOld
        · rw [List.mem_singleton.mp hNew]
          exact Nat.le_refl _
      · exact h
  | confirm i result =>
      simp only [step]
      split
      · next outputId on issuer now hTask =>
          have hNow : now ≤ w.clock := h.toggle hTask
          apply h.setToggle
          exact ⟨hNow, Nat.le_refl _⟩
      · exact h
  | toggleRecord i => exact inv_toggleRecord h i
  | toggleStore i => exact inv_toggleStore h i
  | toggleReturn i => exact inv_toggleReturn h i
  | restart => exact inv_restart h

/-- A copy from `latest` that is not timely leaves a row older than it says. -/
theorem timely_of_neverOlder {w : World} {e : Event}
    (hAfter : NeverOlder cycle moment (step w e)) : Timely cycle moment w e := by
  cases e with
  | applyWrite i =>
      intro x task hNext hCopy hRow
      have hSays : Says (step w (.applyWrite i)).outputs x.outputId x.origin.state x.now := by
        simp only [step, hNext, writeState]
        exact says_updateOutputState.mpr ((if_pos rfl).mpr ⟨hRow, rfl, rfl⟩)
      obtain ⟨o, hOrigin, hYoung⟩ := hAfter x.outputId x.origin.state x.now hSays
      simp only [step, hNext, writeState, if_true, Option.some.injEq] at hOrigin hYoung
      subst hOrigin
      refine ⟨Int.ofNat_le.mp hYoung.cycle, ?_, hYoung.newer hCopy⟩
      intro q hq hId hBefore
      exact hYoung.toggled q hq hId (Int.ofNat_lt.mpr hBefore)
  | _ => trivial

/-- A run never leaves an output's state older than its row says if and only if every
copy from `latest` in it is timely. -/
theorem never_older_iff (cycle : Nat) (moment : Moment) (clock : Nat) (events : List Event) :
    (∀ before after, events = before ++ after →
        NeverOlder cycle moment (run step (.initial clock) before)) ↔
      StepsOk step (fun _ => Timely cycle moment) (.initial clock) events := by
  constructor
  · intro hNever before e after hSplit
    apply timely_of_neverOlder
    have hAfter := hNever (before ++ [e]) after (by rw [hSplit, List.append_cons])
    rwa [run_concat] at hAfter
  · intro hTimely before after hSplit
    subst hSplit
    have hInv : Inv cycle moment (run step (.initial clock) before) :=
      hTimely.of_append.preserves (inv_initial clock) fun _ _ _ h hOk => inv_step h hOk
    exact hInv.rows

/-- The load of a Rover. -/
def roverLoad : Discovered :=
  { id := "charge_controller.load"
    deviceLabel := "charge_controller"
    name := "Load output"
    kind := "load"
    capabilities := ["toggle"] }

/-- The charger answers a poll with its load on and falls silent. The load is then
switched off, which is read back, and the next `apply_snapshot` writes `latest`. -/
def silentAfterPoll : List Event :=
  [.discovered ⟨[roverLoad], List.nodup_singleton _⟩, .answered "charge_controller" "on",
    .recorded, .tick, .toggleStart "charge_controller.load" false "api",
    .confirm 0 ⟨true, some 0, ""⟩, .toggleRecord 0, .toggleStore 0, .toggleReturn 0, .tick,
    .applyFetch, .applyStart 0, .applyWrite 0]

/-- Its row says on, as of after the toggle that switched it off. -/
theorem stale_copy_undoes_toggle :
    Says (run step (.initial 1000) silentAfterPoll).outputs "charge_controller.load" 1 1002 ∧
      ¬ ∀ before after, silentAfterPoll = before ++ after →
        NeverOlder 60 .readBack (run step (.initial 1000) before) := by
  have hSays : Says (run step (.initial 1000) silentAfterPoll).outputs
      "charge_controller.load" 1 1002 := ⟨_, rfl, rfl, rfl⟩
  refine ⟨hSays, ?_⟩
  intro hNever
  obtain ⟨o, hOrigin, hYoung⟩ :=
    hNever silentAfterPoll [] (List.append_nil _).symm _ _ _ hSays
  cases hOrigin
  have hRead : 1001 ≤ 1000 :=
    hYoung.newer rfl ⟨"charge_controller.load", 1001⟩ (List.mem_singleton.mpr rfl) rfl
  omega

end WattPost.Outputs.ReadBack
