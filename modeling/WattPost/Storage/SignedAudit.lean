import Mathlib.Data.List.Chain
import Mathlib.Data.List.Nodup
import Mathlib.Logic.Function.Basic
import WattPost.Lib.Runs

/-! The signed audit log. `write_event` reads the newest row, signs a new one
that names its hash, and inserts it; other tasks may run between the read and
the insert. SHA-256 is a function on texts, and the keypair a fingerprint with a
signing function. -/
namespace WattPost.SignedAudit

open Runs

/-- How `json.dumps` writes a character of a string when `ensure_ascii` is off. -/
def jsonChar (c : Char) : List Char :=
  if c = '"' then ['\\', '"']
  else if c = '\\' then ['\\', '\\']
  else if c = '\n' then ['\\', 'n']
  else if c = '\r' then ['\\', 'r']
  else if c = '\t' then ['\\', 't']
  else if c.toNat = 0x0c then ['\\', 'f']
  else if c.toNat = 0x08 then ['\\', 'b']
  else if c.toNat < 0x20 then
    ['\\', 'u', '0', '0', Nat.digitChar (c.toNat / 16), Nat.digitChar (c.toNat % 16)]
  else [c]

def jsonString (s : String) : String :=
  "\"" ++ String.ofList (s.toList.flatMap jsonChar) ++ "\""

/-- `_canonical_repr`: the keys sorted, no blanks. The payload is its own
canonical text, which is also what the `event_payload` column holds. -/
def canonicalRepr (issuer issuerKid eventType eventPayload : String) (prevHash : Option String)
    (occurredAt : String) : String :=
  "\x7b\"event_payload\":" ++ eventPayload ++
  ",\"event_type\":" ++ jsonString eventType ++
  ",\"issuer\":" ++ jsonString issuer ++
  ",\"issuer_kid\":" ++ jsonString issuerKid ++
  ",\"occurred_at\":" ++ jsonString occurredAt ++
  ",\"prev_hash\":" ++ (match prevHash with | none => "null" | some digest => jsonString digest) ++
  "\x7d"

def issuer : String := "appliance"

/-- A row of `signed_audit_log`; `uploaded_at` is not written here. -/
structure AuditRow where
  occurredAt : String
  eventType : String
  eventPayload : String
  prevHash : Option String
  signedRepr : String
  signatureB64 : String
  issuerKid : String
deriving DecidableEq

/-- The signed text is the canonical text of the other columns. -/
def AuditRow.Signed (row : AuditRow) : Prop :=
  row.signedRepr = canonicalRepr issuer row.issuerKid row.eventType row.eventPayload row.prevHash
    row.occurredAt

theorem AuditRow.Signed.ne_empty {row : AuditRow} (h : row.Signed) : row.signedRepr ≠ "" := by
  intro hEmpty
  have hBrace := (String.append_eq_empty_iff.mp (h.symm.trans hEmpty)).2
  exact absurd hBrace (by decide)

/-- The rows of `signed_audit_log` in the order of their ids. `AUTOINCREMENT`
puts a new row at the end, `signed_repr` is `UNIQUE`, and only `write_event`
writes rows. -/
structure AuditLog where
  rows : List AuditRow
  unique : (rows.map AuditRow.signedRepr).Nodup
  signed : ∀ row ∈ rows, row.Signed

namespace AuditLog

def empty : AuditLog := ⟨[], List.nodup_nil, by simp⟩

/-- `INSERT INTO signed_audit_log`; `none` when `UNIQUE` refuses the row. -/
def insert (log : AuditLog) (row : AuditRow) (hRow : row.Signed) : Option AuditLog :=
  if hNew : row.signedRepr ∈ log.rows.map AuditRow.signedRepr then none
  else
    some
      { rows := log.rows ++ [row]
        unique := by
          rw [List.map_append, List.nodup_append_comm]
          exact List.nodup_cons.mpr ⟨hNew, log.unique⟩
        signed := by
          intro other hOther
          rcases List.mem_append.mp hOther with hOld | hLast
          · exact log.signed other hOld
          · rw [List.mem_singleton.mp hLast]
            exact hRow }

/-- `_tail_signed_repr`. -/
def tailSignedRepr (log : AuditLog) : Option String := log.rows.getLast?.map AuditRow.signedRepr

/-- `_hash(tail) if tail else None`. -/
def prevHash (hash : String → String) : Option String → Option String
  | none => none
  | some tail => if tail = "" then none else some (hash tail)

/-- Each row names the hash of the signed text of the row before it. -/
def IsHashChain (hash : String → String) (log : AuditLog) : Prop :=
  log.rows.IsChain fun before row => row.prevHash = some (hash before.signedRepr)

end AuditLog

/-- What a caller passes to `write_event`, and the keypair it loads. -/
structure AuditEvent where
  eventType : String
  payload : String
  occurredAt : String
  fingerprint : String
  sign : String → String

/-- The row `write_event` signs once it has read the tail. -/
def AuditEvent.row (event : AuditEvent) (prevHash : Option String) : AuditRow :=
  let signedRepr := canonicalRepr issuer event.fingerprint event.eventType event.payload prevHash
    event.occurredAt
  { occurredAt := event.occurredAt
    eventType := event.eventType
    eventPayload := event.payload
    prevHash := prevHash
    signedRepr := signedRepr
    signatureB64 := event.sign signedRepr
    issuerKid := event.fingerprint }

theorem AuditEvent.row_signed (event : AuditEvent) (prevHash : Option String) :
    (event.row prevHash).Signed := rfl

/-- A call between its read and its insert. How many rows it saw is bookkeeping. -/
structure Waiting where
  event : AuditEvent
  prevHash : Option String
  seen : Nat

structure AuditState where
  log : AuditLog
  waiting : Nat → Option Waiting

def AuditState.start (log : AuditLog) : AuditState := ⟨log, fun _ => none⟩

/-- The two statements of a call of `write_event`. -/
inductive AuditStep where
  | readTail (c : Nat) (event : AuditEvent)
  | insert (c : Nat)

def auditStep (hash : String → String) (s : AuditState) : AuditStep → AuditState
  | .readTail c event =>
      match s.waiting c with
      | some _ => s
      | none =>
          { s with waiting := Function.update s.waiting c (some
              ⟨event, AuditLog.prevHash hash s.log.tailSignedRepr, s.log.rows.length⟩) }
  | .insert c =>
      match s.waiting c with
      | none => s
      | some call =>
          { log := (s.log.insert (call.event.row call.prevHash) (call.event.row_signed _)).getD s.log
            waiting := Function.update s.waiting c none }

/-- No row came in between the read of a call and its insert, unless `UNIQUE`
refuses the insert. -/
def TailCurrent (_before : List AuditStep) (s : AuditState) : AuditStep → Prop
  | .readTail _ _ => True
  | .insert c => ∀ call, s.waiting c = some call →
      (call.event.row call.prevHash).signedRepr ∉ s.log.rows.map AuditRow.signedRepr →
      call.seen = s.log.rows.length

namespace AuditLog

variable {hash : String → String} {log : AuditLog}

theorem rows_insert (log : AuditLog) (row : AuditRow) (hRow : row.Signed) :
    ((log.insert row hRow).getD log).rows =
      if row.signedRepr ∈ log.rows.map AuditRow.signedRepr then log.rows
      else log.rows ++ [row] := by
  unfold insert
  split <;> rfl

theorem prevHash_getLast {last : AuditRow} (hLast : log.rows.getLast? = some last) :
    prevHash hash log.tailSignedRepr = some (hash last.signedRepr) := by
  have hSigned := log.signed last (List.mem_of_getLast? hLast)
  rw [tailSignedRepr, hLast]
  exact if_neg hSigned.ne_empty

theorem isChain_concat {rows : List AuditRow} {row : AuditRow} :
    (rows ++ [row]).IsChain (fun before row => row.prevHash = some (hash before.signedRepr)) ↔
      rows.IsChain (fun before row => row.prevHash = some (hash before.signedRepr)) ∧
      ∀ last, rows.getLast? = some last → row.prevHash = some (hash last.signedRepr) := by
  simp [List.isChain_append]

end AuditLog

/-- A waiting call has the hash of the last of the rows it saw. -/
def ReadsTail (hash : String → String) (s : AuditState) : Prop :=
  ∀ c call, s.waiting c = some call → call.seen ≤ s.log.rows.length ∧
    call.prevHash = AuditLog.prevHash hash
      ((s.log.rows.take call.seen).getLast?.map AuditRow.signedRepr)

section Runs

variable {hash : String → String} {s : AuditState}

/-- The log only grows, by at most the row of the call that inserts. -/
theorem rows_auditStep (hash : String → String) (s : AuditState) (step : AuditStep) :
    s.log.rows <+: (auditStep hash s step).log.rows := by
  cases step with
  | readTail c event =>
      simp only [auditStep]
      split <;> exact List.prefix_refl _
  | insert c =>
      simp only [auditStep]
      split
      · exact List.prefix_refl _
      · rw [AuditLog.rows_insert]
        split
        · exact List.prefix_refl _
        · exact List.prefix_append _ _

theorem rows_run (s : AuditState) (steps : List AuditStep) :
    s.log.rows <+: (run (auditStep hash) s steps).log.rows := by
  induction steps generalizing s with
  | nil => exact List.prefix_refl _
  | cons step steps ih => exact (rows_auditStep hash s step).trans (ih _)

/-- The rows a call saw stay the first rows of the log. -/
theorem ReadsTail.grow (h : ReadsTail hash s) {log : AuditLog} (hGrow : s.log.rows <+: log.rows) :
    ReadsTail hash { s with log := log } := by
  intro c call hCall
  obtain ⟨hSeen, hHash⟩ := h c call hCall
  obtain ⟨added, hAdded⟩ := hGrow
  have hTake : log.rows.take call.seen = s.log.rows.take call.seen := by
    rw [← hAdded, List.take_append_of_le_length hSeen]
  refine ⟨?_, ?_⟩
  · rw [← hAdded, List.length_append]
    exact Nat.le_add_right_of_le hSeen
  · rw [hHash, ← hTake]

theorem ReadsTail.step (h : ReadsTail hash s) (step : AuditStep) :
    ReadsTail hash (auditStep hash s step) := by
  cases step with
  | readTail c event =>
      simp only [auditStep]
      split
      · exact h
      · intro d call hCall
        dsimp only at hCall
        by_cases hd : d = c
        · rw [hd, Function.update_self] at hCall
          cases hCall
          refine ⟨le_refl _, ?_⟩
          rw [List.take_length]
          rfl
        · rw [Function.update_of_ne hd] at hCall
          exact h d call hCall
  | insert c =>
      have hGrow := rows_auditStep hash s (.insert c)
      simp only [auditStep] at hGrow ⊢
      split
      · exact h
      case h_2 call hc =>
        rw [hc] at hGrow
        intro d other hOther
        dsimp only at hOther
        by_cases hd : d = c
        · rw [hd, Function.update_self] at hOther
          cases hOther
        · rw [Function.update_of_ne hd] at hOther
          exact h.grow hGrow d other hOther

theorem readsTail_run (log : AuditLog) (steps : List AuditStep) :
    ReadsTail hash (run (auditStep hash) (AuditState.start log) steps) := by
  have hStart : ReadsTail hash (AuditState.start log) := by
    intro c call hCall
    cases hCall
  exact run_preserves (fun s step h => h.step step) hStart steps

/-- A row that names the current tail keeps the chain. -/
theorem isHashChain_step {before : List AuditStep} {step : AuditStep} (hReads : ReadsTail hash s)
    (hChain : s.log.IsHashChain hash) (hTail : TailCurrent before s step) :
    (auditStep hash s step).log.IsHashChain hash := by
  cases step with
  | readTail c event =>
      simp only [auditStep]
      split <;> exact hChain
  | insert c =>
      simp only [auditStep]
      split
      · exact hChain
      case h_2 call hc =>
        unfold AuditLog.IsHashChain
        rw [AuditLog.rows_insert]
        split
        · exact hChain
        case isFalse hNew =>
          obtain ⟨_, hHash⟩ := hReads c call hc
          rw [hTail call hc hNew, List.take_length] at hHash
          refine AuditLog.isChain_concat.mpr ⟨hChain, ?_⟩
          intro last hLast
          exact hHash.trans (AuditLog.prevHash_getLast hLast)

/-- Starting from a chain, calls of `write_event` that insert with no other row
in between keep the log a chain. -/
theorem writeEvent_chain {log : AuditLog} (hLog : log.IsHashChain hash) {steps : List AuditStep}
    (hTail : StepsOk (auditStep hash) TailCurrent (AuditState.start log) steps) :
    (run (auditStep hash) (AuditState.start log) steps).log.IsHashChain hash := by
  have hInit : (run (auditStep hash) (AuditState.start log) []).log.IsHashChain hash := hLog
  have hStep : ∀ before step,
      (run (auditStep hash) (AuditState.start log) before).log.IsHashChain hash →
      TailCurrent before (run (auditStep hash) (AuditState.start log) before) step →
      (run (auditStep hash) (AuditState.start log) (before ++ [step])).log.IsHashChain hash := by
    intro before step hChain hOk
    rw [run_concat]
    exact isHashChain_step (readsTail_run log before) hChain hOk
  exact invariant hInit hStep hTail

/-- A call that saw fewer rows has the hash of an earlier one, and `UNIQUE` keeps
the signed texts apart. -/
theorem stale_prevHash {log : AuditLog} (hHash : Function.Injective hash) {seen : Nat}
    {last : AuditRow} (hLast : log.rows.getLast? = some last) (hSeen : seen < log.rows.length) :
    AuditLog.prevHash hash ((log.rows.take seen).getLast?.map AuditRow.signedRepr) ≠
      some (hash last.signedRepr) := by
  have hRows : log.rows.dropLast ++ [last] = log.rows := List.dropLast_append_getLast? _ hLast
  have hTake : log.rows.take seen = log.rows.dropLast.take seen := by
    rw [← hRows, List.dropLast_concat, List.take_append_of_le_length]
    rw [List.length_dropLast]
    omega
  have hUnique : last.signedRepr ∉ log.rows.dropLast.map AuditRow.signedRepr := by
    have hNodup := log.unique
    rw [← hRows, List.map_append, List.nodup_append_comm] at hNodup
    exact (List.nodup_cons.mp hNodup).1
  rw [hTake]
  intro h
  match hTail : (log.rows.dropLast.take seen).getLast? with
  | none =>
      rw [hTail] at h
      cases h
  | some tail =>
      have hMem : tail ∈ log.rows.dropLast := List.mem_of_mem_take (List.mem_of_getLast? hTail)
      have hSigned := log.signed tail ((List.dropLast_subset _) hMem)
      rw [hTail, Option.map_some, AuditLog.prevHash, if_neg hSigned.ne_empty] at h
      have hEq := hHash (Option.some.inj h)
      exact hUnique (hEq ▸ List.mem_map_of_mem hMem)

/-- With no collisions, a log that is a chain shows that no row came in between
the read and the insert of any call. -/
theorem tailCurrent_of_chain (hHash : Function.Injective hash) {log : AuditLog}
    {steps : List AuditStep}
    (hChain : (run (auditStep hash) (AuditState.start log) steps).log.IsHashChain hash) :
    StepsOk (auditStep hash) TailCurrent (AuditState.start log) steps := by
  intro before step after hSteps
  have hReads : ReadsTail hash (run (auditStep hash) (AuditState.start log) before) :=
    readsTail_run log before
  rw [hSteps, run_append] at hChain
  generalize run (auditStep hash) (AuditState.start log) before = s at hReads hChain ⊢
  cases step with
  | readTail c event => trivial
  | insert c =>
      intro call hc hNew
      obtain ⟨hLe, hPrev⟩ := hReads c call hc
      have hRows : (auditStep hash s (.insert c)).log.rows =
          s.log.rows ++ [call.event.row call.prevHash] := by
        simp only [auditStep, hc]
        rw [AuditLog.rows_insert, if_neg hNew]
      have hPrefix : s.log.rows ++ [call.event.row call.prevHash] <+:
          (run (auditStep hash) s (.insert c :: after)).log.rows :=
        hRows ▸ rows_run (auditStep hash s (.insert c)) after
      have hShort := List.IsChain.prefix hChain hPrefix
      have hLink := (AuditLog.isChain_concat.mp hShort).2
      by_contra hSeen
      have hLt : call.seen < s.log.rows.length := lt_of_le_of_ne hLe hSeen
      match hLast : s.log.rows.getLast? with
      | none =>
          rw [List.getLast?_eq_none_iff.mp hLast] at hLt
          cases hLt
      | some last => exact stale_prevHash hHash hLast hLt (hPrev ▸ hLink last hLast)

end Runs

section Example

def loginFailed : AuditEvent where
  eventType := "login_failed"
  payload := "\x7b\x7d"
  occurredAt := "2026-01-01T00:00:00+00:00"
  fingerprint := "9f2c"
  sign := fun _ => "c2ln"

def loginOk : AuditEvent := { loginFailed with eventType := "login_ok" }

/-- A hash that gives SHA-256 at the signed text of `loginFailed` as a first row, the only text
whose hash the runs below need, and the same value elsewhere. -/
def hashOfFirst (_signedRepr : String) : String :=
  "e6772dd6389e094da1d2b4c7802eb27b48e0564d1d7293fb4c28f496a902ea56"

theorem writeEvent_chain_twoCalls :
    StepsOk (auditStep hashOfFirst) TailCurrent (AuditState.start AuditLog.empty)
        [.readTail 0 loginFailed, .insert 0, .readTail 1 loginOk, .insert 1] ∧
      (run (auditStep hashOfFirst) (AuditState.start AuditLog.empty)
        [.readTail 0 loginFailed, .insert 0, .readTail 1 loginOk, .insert 1]).log.rows.map
          AuditRow.prevHash = [none, some (hashOfFirst (loginFailed.row none).signedRepr)] ∧
      (run (auditStep hashOfFirst) (AuditState.start AuditLog.empty)
        [.readTail 0 loginFailed, .insert 0, .readTail 1 loginOk, .insert 1]).log.IsHashChain
          hashOfFirst := by
  have hTail : StepsOk (auditStep hashOfFirst) TailCurrent (AuditState.start AuditLog.empty)
      [.readTail 0 loginFailed, .insert 0, .readTail 1 loginOk, .insert 1] := by
    simp only [stepsOk_cons, stepsOk_nil, and_true]
    refine ⟨trivial, ?_, trivial, ?_⟩
    all_goals
      intro call hCall _
      cases hCall
      decide
  have hEmpty : AuditLog.empty.IsHashChain hashOfFirst := List.isChain_nil
  exact ⟨hTail, by decide, writeEvent_chain hEmpty hTail⟩

/-- Two calls read the empty log, and then both insert. -/
theorem writeEvent_not_chain :
    AuditLog.empty.IsHashChain hashOfFirst ∧
      ¬ (run (auditStep hashOfFirst) (AuditState.start AuditLog.empty)
        [.readTail 0 loginFailed, .readTail 1 loginOk, .insert 0, .insert 1]).log.IsHashChain
          hashOfFirst := by
  refine ⟨List.isChain_nil, ?_⟩
  unfold AuditLog.IsHashChain
  have hRows : (run (auditStep hashOfFirst) (AuditState.start AuditLog.empty)
      [.readTail 0 loginFailed, .readTail 1 loginOk, .insert 0, .insert 1]).log.rows =
      [loginFailed.row none, loginOk.row none] := by decide
  rw [hRows, List.isChain_pair]
  exact fun h => by cases h

end Example

end WattPost.SignedAudit
