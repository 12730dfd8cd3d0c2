import WattPost.Cloud.CommandLedger
import WattPost.Cloud.Json
import WattPost.Lib.PyText
import WattPost.Lib.Runs
import Mathlib.Data.Finset.Card
import Mathlib.Data.Finset.Filter

/-! Commands from the cloud: from a heartbeat reply through the ledger check to
a spawned task, and from the task through the three memories that guard a
handler. Heartbeats, tasks and handlers interleave at their awaits, so each
stretch between two awaits is one step. -/
namespace WattPost.Cloud

open Newest Runs

section Commands

/-- What the commands need from outside: `int` of a float or of a text,
`json.loads`, `dict` of a list, and the version that runs. -/
structure CommandEnv where
  intOf : Json → Option Int
  loads : String → Option Json
  dictOf : List Json → Option Fields
  runningVersion : String

/-- `MAX_COMMANDS_PER_HEARTBEAT`. -/
def maxCommandsPerHeartbeat : Nat := 20

/-- The default `cap` of the ledger. -/
def ledgerCap : Nat := 1000

/-- `int(x or 0)`, or nothing where it raises. -/
def idKey (env : CommandEnv) : Option Json → Option Int
  | none => some 0
  | some .null => some 0
  | some (.bool b) => some (if b then 1 else 0)
  | some (.int n) => some n
  | some (.float literal) => env.intOf (.float literal)
  | some (.str s) => if s = "" then some 0 else env.intOf (.str s)
  | some (.arr values) => if values.isEmpty then some 0 else none
  | some (.obj fields) => if fields.isEmpty then some 0 else none

/-- The rest after `[0-9]{1,4}`. What follows in the pattern is no digit. -/
def afterNumber (cs : List Char) : Option (List Char) :=
  let digits := cs.takeWhile (fun c => decide ('0' ≤ c) && decide (c ≤ '9'))
  if 1 ≤ digits.length ∧ digits.length ≤ 4 then some (cs.drop digits.length) else none

/-- Where `$` matches: at the end, or before a last newline. -/
def atEnd (cs : List Char) : Bool := cs == [] || cs == ['\n']

def suffixChar (c : Char) : Bool :=
  (decide ('0' ≤ c) && decide (c ≤ '9')) || (decide ('A' ≤ c) && decide (c ≤ 'Z')) ||
    (decide ('a' ≤ c) && decide (c ≤ 'z')) || c == '.' || c == '-'

/-- `(?:[-+][0-9A-Za-z.\-]{1,16})?$`. -/
def versionTail : List Char → Bool
  | [] => true
  | c :: cs =>
      if c = '-' ∨ c = '+' then
        let suffix := cs.takeWhile suffixChar
        decide (1 ≤ suffix.length) && decide (suffix.length ≤ 16) && atEnd (cs.drop suffix.length)
      else atEnd (c :: cs)

/-- `_VERSION_RE.match`. -/
def matchesVersion (s : String) : Bool :=
  let cs := s.toList
  let cs := if cs.head? = some 'v' then cs.tail else cs
  match afterNumber cs with
  | some ('.' :: cs) =>
      match afterNumber cs with
      | some ('.' :: cs) => (afterNumber cs).any versionTail
      | _ => false
  | _ => false

/-- `v not in (None, "") and not _VERSION_RE.match(str(v))`. The text of what
is no string never matches. -/
def badVersion : Option Json → Bool
  | none => false
  | some .null => false
  | some (.str s) => s != "" && !matchesVersion s
  | some _ => true

/-- The payload as an object, or why it is none. -/
def payloadFields (env : CommandEnv) : Json → Except String Fields
  | .str s =>
      match env.loads s with
      | none => .error "payload is not JSON"
      | some (.obj fields) => .ok fields
      | some _ => .error "payload is not an object"
  | .obj fields => .ok fields
  | .arr values =>
      match env.dictOf values with
      | none => .error "payload is not JSON"
      | some fields => .ok fields
  | _ => .error "payload is not JSON"

/-- `_bad_version_field`. -/
def badVersionField (env : CommandEnv) (cmd : Fields) : Option String :=
  if badVersion (Json.get? cmd "target_version") then
    some "target_version is not a release version"
  else
    match Json.get? cmd "payload_json" with
    | none => none
    | some raw =>
        if Json.truthy (some raw) then
          match payloadFields env raw with
          | .error why => some why
          | .ok payload =>
              if badVersion (Json.get? payload "version") then
                some "payload version is not a release version"
              else
                match Json.get? payload "image" with
                | none => none
                | some .null => none
                | some (.str "") => none
                | some _ => some "custom image references are not accepted"
        else none

/-- The handlers that `_dispatch_command` chooses from by kind. -/
inductive CommandHandler where
  | backupNow
  | restoreFromCloud
  | setLocalRule
  | deleteLocalRule
  | pinImageTag
  | rollback
  | diskCleanup
  | restartPoller
  | update
deriving DecidableEq

def handlerOf : Option String → Option CommandHandler
  | some "backup_now" => some .backupNow
  | some "restore_from_cloud" => some .restoreFromCloud
  | some "set_local_rule" => some .setLocalRule
  | some "delete_local_rule" => some .deleteLocalRule
  | some "pin_image_tag" => some .pinImageTag
  | some "rollback" => some .rollback
  | some "disk_cleanup" => some .diskCleanup
  | some "restart_poller" => some .restartPoller
  | some "update" => some .update
  | _ => none

/-- The kinds that restart the daemon. -/
def spawningKind (kind : Option String) : Bool :=
  ["update", "rollback", "pin_image_tag"].any (fun k => kind == some k)

/-- Whether `target_version`, stripped, is the version that runs. -/
def atTarget (env : CommandEnv) (cmd : Fields) : Bool :=
  let target := PyText.strip ((Json.strValue (Json.get? cmd "target_version")).getD "")
  target != "" && target == env.runningVersion

inductive CommandStatus where
  | pickedUp
  | applying
  | success
  | failed
deriving DecidableEq

def CommandStatus.terminal : CommandStatus → Bool
  | .success => true
  | .failed => true
  | _ => false

end Commands

section System

/-- A spawned `_dispatch_command` that has not run yet, and the reply that its
command came with. -/
structure DispatchTask where
  reply : Nat
  cmd : Fields

/-- A handler was entered: in which process, for which reply. -/
structure HandlerEntry where
  process : Nat
  reply : Nat
  id : Int
  handler : CommandHandler

/-- The ledger and the tried file outlive a process; the set of dispatched ids,
the replies being worked through, the tasks and the handlers under way do not.
The rest is bookkeeping: how many replies came and processes started, the ids
with a terminal status and how many replies had come when it was recorded, the
ids dispatched in this process and every handler entered. -/
structure DispatchState where
  ledger : List Int
  tried : List Int
  dispatched : List Int
  replies : List (Nat × List Json)
  tasks : List DispatchTask
  inFlight : List Int
  received : Nat
  process : Nat
  recorded : List (Int × Nat)
  added : List Int
  entered : List HandlerEntry

/-- `_patch_command_status`: a terminal status goes into the ledger first. -/
def patchCommandStatus (cmdId : Int) (status : CommandStatus) (s : DispatchState) :
    DispatchState :=
  if status.terminal then
    { s with
      ledger := recordIds ledgerCap s.ledger cmdId
      recorded := (cmdId, s.received) :: s.recorded }
  else s

/-- The bounded set of dispatched ids takes one more. -/
def addDispatched (dispatched : List Int) (cmdId : Int) : List Int :=
  sortedSet (cmdId :: if dispatched.length ≥ 500 then lastN 250 (sortedSet dispatched)
    else dispatched)

def markDispatched (cmdId : Int) (s : DispatchState) : DispatchState :=
  { s with dispatched := addDispatched s.dispatched cmdId, added := cmdId :: s.added }

/-- `_mark_tried_cmd`; a write that fails is ignored. -/
def markTriedCmd (written : Bool) (cmdId : Int) (s : DispatchState) : DispatchState :=
  if written then { s with tried := add 200 s.tried cmdId } else s

/-- The choice by kind. A handler may report any statuses from then on. -/
def runHandler (t : DispatchTask) (cmdId : Int) (kind : Option String) (s : DispatchState) :
    DispatchState :=
  match handlerOf kind with
  | some handler =>
      { s with
        inFlight := cmdId :: s.inFlight
        entered := ⟨s.process, t.reply, cmdId, handler⟩ :: s.entered }
  | none => patchCommandStatus cmdId .failed s

/-- `_dispatch_command` up to its first await. -/
def dispatchCommand (env : CommandEnv) (written : Bool) (t : DispatchTask) (s : DispatchState) :
    DispatchState :=
  match Json.intValue (Json.get? t.cmd "id") with
  | none => s
  | some cmdId =>
      let kind := Json.strValue (Json.get? t.cmd "kind")
      if cmdId ∈ s.dispatched then s
      else if spawningKind kind && (badVersionField env t.cmd).isSome then
        patchCommandStatus cmdId .failed s
      else if spawningKind kind then
        let s := markDispatched cmdId s
        if cmdId ∈ s.tried then
          if atTarget env t.cmd then
            { patchCommandStatus cmdId .pickedUp s with inFlight := cmdId :: s.inFlight }
          else patchCommandStatus cmdId .failed s
        else runHandler t cmdId kind (markTriedCmd written cmdId s)
      else runHandler t cmdId kind (markDispatched cmdId s)

/-- The loop body of `heartbeat_once` once `verify_command` has answered. -/
def considerCommand (env : CommandEnv) (verified : Bool) (reply : Nat) (cmd : Json)
    (s : DispatchState) : DispatchState :=
  match cmd with
  | .obj fields =>
      match idKey env (Json.get? fields "id") with
      | none => s
      | some key =>
          if verified && !ledgerSeen ledgerCap s.ledger key then
            { s with tasks := s.tasks ++ [⟨reply, fields⟩] }
          else s
  | _ => s

/-- `commands` of a reply, cut to what is considered. -/
def repliedCommands : Option Json → List Json
  | some (.arr values) => values.take maxCommandsPerHeartbeat
  | _ => []

/-- What can happen next: a reply arrives, a heartbeat goes on to the next
command of its reply, a waiting task runs, a task under way reports a status,
the process is started again. -/
inductive DispatchEvent where
  | reply (commands : Option Json)
  | consider (i : Nat) (verified : Bool)
  | start (i : Nat) (written : Bool)
  | report (cmdId : Int) (status : CommandStatus)
  | restart

def dispatchStep (env : CommandEnv) (s : DispatchState) : DispatchEvent → DispatchState
  | .reply commands =>
      { s with
        received := s.received + 1
        replies := s.replies ++ [(s.received + 1, repliedCommands commands)] }
  | .consider i verified =>
      match s.replies[i]? with
      | some (reply, cmd :: rest) =>
          considerCommand env verified reply cmd { s with replies := s.replies.set i (reply, rest) }
      | _ => s
  | .start i written =>
      match s.tasks[i]? with
      | some t => dispatchCommand env written t { s with tasks := s.tasks.eraseIdx i }
      | none => s
  | .report cmdId status =>
      if cmdId ∈ s.inFlight then patchCommandStatus cmdId status s else s
  | .restart =>
      { s with
        dispatched := []
        replies := []
        tasks := []
        inFlight := []
        added := []
        process := s.process + 1 }

/-- A process that starts on the files of an earlier one. -/
def DispatchState.initial (w : LedgerWorld) (tried : List Int) : DispatchState where
  ledger := w.stored ledgerCap
  tried := tried
  dispatched := []
  replies := []
  tasks := []
  inFlight := []
  received := 0
  process := 0
  recorded := []
  added := []
  entered := []

end System

section Replies

variable {env : CommandEnv} {s : DispatchState}

/-- Whatever has a terminal status is in the ledger, and the tasks and handlers
of its id come from replies that were there when it was recorded. -/
structure RecordedInv (s : DispatchState) : Prop where
  ledger : IdsOk ledgerCap s.ledger
  seen : ∀ r ∈ s.recorded, ledgerSeen ledgerCap s.ledger r.1 = true
  replies : ∀ r ∈ s.replies, r.1 ≤ s.received
  tasks : ∀ t ∈ s.tasks, t.reply ≤ s.received
  entries : ∀ e ∈ s.entered, e.reply ≤ s.received
  tasksBefore : ∀ r ∈ s.recorded, ∀ t ∈ s.tasks,
    Json.intValue (Json.get? t.cmd "id") = some r.1 → t.reply ≤ r.2
  entriesBefore : ∀ r ∈ s.recorded, ∀ e ∈ s.entered, e.id = r.1 → e.reply ≤ r.2

theorem ledgerCap_pos : 0 < ledgerCap := by decide

theorem RecordedInv.patchCommandStatus (h : RecordedInv s) (cmdId : Int)
    (status : CommandStatus) : RecordedInv (patchCommandStatus cmdId status s) := by
  unfold Cloud.patchCommandStatus
  split
  · refine ⟨recordIds_ok ledgerCap_pos h.ledger cmdId, ?_, h.replies, h.tasks, h.entries, ?_, ?_⟩
    · intro r hr
      rcases List.mem_cons.mp hr with rfl | hOld
      · exact ledgerSeen_recordIds_self ledgerCap_pos h.ledger cmdId
      · exact ledgerSeen_recordIds_of_seen ledgerCap_pos h.ledger (h.seen r hOld)
    · intro r hr t ht hId
      rcases List.mem_cons.mp hr with rfl | hOld
      · exact h.tasks t ht
      · exact h.tasksBefore r hOld t ht hId
    · intro r hr e he hId
      rcases List.mem_cons.mp hr with rfl | hOld
      · exact h.entries e he
      · exact h.entriesBefore r hOld e he hId
  · exact h

theorem RecordedInv.markDispatched (h : RecordedInv s) (cmdId : Int) :
    RecordedInv (markDispatched cmdId s) :=
  ⟨h.ledger, h.seen, h.replies, h.tasks, h.entries, h.tasksBefore, h.entriesBefore⟩

theorem RecordedInv.markTriedCmd (h : RecordedInv s) (written : Bool) (cmdId : Int) :
    RecordedInv (markTriedCmd written cmdId s) := by
  unfold Cloud.markTriedCmd
  split
  · exact ⟨h.ledger, h.seen, h.replies, h.tasks, h.entries, h.tasksBefore, h.entriesBefore⟩
  · exact h

/-- A task that runs: its reply had come before each record of its id. -/
structure RunsBefore (s : DispatchState) (t : DispatchTask) (cmdId : Int) : Prop where
  received : t.reply ≤ s.received
  recorded : ∀ r ∈ s.recorded, r.1 = cmdId → t.reply ≤ r.2

theorem RecordedInv.runHandler (h : RecordedInv s) {t : DispatchTask} {cmdId : Int}
    (ht : RunsBefore s t cmdId) (kind : Option String) :
    RecordedInv (runHandler t cmdId kind s) := by
  unfold Cloud.runHandler
  split
  · refine ⟨h.ledger, h.seen, h.replies, h.tasks, ?_, h.tasksBefore, ?_⟩
    · intro e he
      rcases List.mem_cons.mp he with rfl | hOld
      · exact ht.received
      · exact h.entries e hOld
    · intro r hr e he hId
      rcases List.mem_cons.mp he with rfl | hOld
      · exact ht.recorded r hr hId.symm
      · exact h.entriesBefore r hr e hOld hId
  · exact h.patchCommandStatus cmdId .failed

theorem RecordedInv.dispatchCommand (h : RecordedInv s) {t : DispatchTask} (written : Bool)
    (ht : ∀ cmdId, Json.intValue (Json.get? t.cmd "id") = some cmdId → RunsBefore s t cmdId) :
    RecordedInv (dispatchCommand env written t s) := by
  unfold Cloud.dispatchCommand
  split
  case h_1 => exact h
  case h_2 cmdId hId =>
    have hRuns := ht cmdId hId
    have hMarked := h.markDispatched cmdId
    dsimp only
    split
    · exact h
    · split
      · exact h.patchCommandStatus cmdId .failed
      · split
        · split
          · split
            · have hPatched := hMarked.patchCommandStatus cmdId .pickedUp
              exact ⟨hPatched.ledger, hPatched.seen, hPatched.replies, hPatched.tasks,
                hPatched.entries, hPatched.tasksBefore, hPatched.entriesBefore⟩
            · exact hMarked.patchCommandStatus cmdId .failed
          · refine (hMarked.markTriedCmd written cmdId).runHandler ?_ _
            unfold Cloud.markTriedCmd
            split
            · exact ⟨hRuns.received, hRuns.recorded⟩
            · exact ⟨hRuns.received, hRuns.recorded⟩
        · exact hMarked.runHandler ⟨hRuns.received, hRuns.recorded⟩ _

/-- An id that the heartbeat finds unseen has no terminal status. -/
theorem RecordedInv.considerCommand (h : RecordedInv s) {reply : Nat} (hReply : reply ≤ s.received)
    (verified : Bool) (cmd : Json) : RecordedInv (considerCommand env verified reply cmd s) := by
  unfold Cloud.considerCommand
  split
  case h_2 => exact h
  case h_1 fields =>
    split
    case h_1 => exact h
    case h_2 key hKey =>
      split
      case isFalse => exact h
      case isTrue hOk =>
        have hUnseen : ledgerSeen ledgerCap s.ledger key = false := by simp_all
        refine ⟨h.ledger, h.seen, h.replies, ?_, h.entries, ?_, h.entriesBefore⟩
        · intro t ht
          rcases List.mem_append.mp ht with hOld | hNew
          · exact h.tasks t hOld
          · obtain rfl := List.mem_singleton.mp hNew
            exact hReply
        · intro r hr t ht hId
          rcases List.mem_append.mp ht with hOld | hNew
          · exact h.tasksBefore r hr t hOld hId
          · obtain rfl := List.mem_singleton.mp hNew
            -- What is an int for the dispatch is the same int for the ledger.
            have hSame : key = r.1 := by
              have hInt : idKey env (Json.get? fields "id") = some r.1 := by
                revert hId
                unfold Json.intValue idKey
                split <;> simp_all
              exact Option.some.inj (hKey.symm.trans hInt)
            have hSeen := h.seen r hr
            rw [← hSame, hUnseen] at hSeen
            cases hSeen

theorem RecordedInv.step (h : RecordedInv s) (event : DispatchEvent) :
    RecordedInv (dispatchStep env s event) := by
  cases event with
  | reply commands =>
      refine ⟨h.ledger, h.seen, ?_, ?_, ?_, h.tasksBefore, h.entriesBefore⟩
      · intro r hr
        rcases List.mem_append.mp hr with hOld | hNew
        · exact Nat.le_succ_of_le (h.replies r hOld)
        · obtain rfl := List.mem_singleton.mp hNew
          exact Nat.le_refl _
      · exact fun t ht => Nat.le_succ_of_le (h.tasks t ht)
      · exact fun e he => Nat.le_succ_of_le (h.entries e he)
  | consider i verified =>
      simp only [dispatchStep]
      split
      case h_2 => exact h
      case h_1 reply cmd rest hGet =>
        have hReply : reply ≤ s.received := h.replies _ (List.mem_of_getElem? hGet)
        have hNext : RecordedInv { s with replies := s.replies.set i (reply, rest) } := by
          refine ⟨h.ledger, h.seen, ?_, h.tasks, h.entries, h.tasksBefore, h.entriesBefore⟩
          intro r hr
          rcases List.mem_or_eq_of_mem_set hr with hOld | rfl
          · exact h.replies r hOld
          · exact hReply
        exact hNext.considerCommand hReply verified cmd
  | start i written =>
      simp only [dispatchStep]
      split
      case h_2 => exact h
      case h_1 t hGet =>
        have hMem := List.mem_of_getElem? hGet
        have hSub : ∀ u ∈ s.tasks.eraseIdx i, u ∈ s.tasks := fun u hu =>
          (List.eraseIdx_sublist s.tasks i).subset hu
        refine RecordedInv.dispatchCommand ?_ written ?_
        · exact ⟨h.ledger, h.seen, h.replies, fun u hu => h.tasks u (hSub u hu), h.entries,
            fun r hr u hu => h.tasksBefore r hr u (hSub u hu), h.entriesBefore⟩
        · intro cmdId hId
          exact ⟨h.tasks t hMem, fun r hr hr' => h.tasksBefore r hr t hMem (by rw [hr', hId])⟩
  | report cmdId status =>
      simp only [dispatchStep]
      split
      · exact h.patchCommandStatus cmdId status
      · exact h
  | restart => exact ⟨h.ledger, h.seen, nofun, nofun, h.entries, nofun, h.entriesBefore⟩

theorem recordedInv_run (env : CommandEnv) (w : LedgerWorld) (tried : List Int)
    (events : List DispatchEvent) :
    RecordedInv (run (dispatchStep env) (DispatchState.initial w tried) events) := by
  have hInit : RecordedInv (DispatchState.initial w tried) := by
    unfold DispatchState.initial
    constructor
    case ledger => simpa only using stored_ok ledgerCap_pos w
    all_goals simp
  exact @run_preserves _ _ (dispatchStep env) RecordedInv (fun _ event h => h.step event) _ hInit
    events

end Replies

section Once

variable {env : CommandEnv} {s : DispatchState}

/-- The ids above `id` among those dispatched. -/
def largerIds (dispatched : List Int) (id : Int) : Finset Int :=
  dispatched.toFinset.filter (id < ·)

/-- The handlers entered for `id` in one process. -/
def enteredFor (process : Nat) (entered : List HandlerEntry) (id : Int) : List HandlerEntry :=
  entered.filter (fun e => decide (e.process = process) && decide (e.id = id))

theorem enteredFor_cons (process : Nat) (e : HandlerEntry) (entered : List HandlerEntry)
    (id : Int) :
    enteredFor process (e :: entered) id =
      if e.process = process ∧ e.id = id then e :: enteredFor process entered id
      else enteredFor process entered id := by
  simp only [enteredFor, List.filter_cons, Bool.and_eq_true, decide_eq_true_eq]

/-- The set of dispatched ids keeps every id with fewer than 250 larger ones,
and a handler is entered no more often than its id is dispatched. -/
structure OnceInv (s : DispatchState) : Prop where
  sorted : s.dispatched.Pairwise (· < ·)
  subset : ∀ id ∈ s.dispatched, id ∈ s.added
  kept : ∀ id ∈ s.added, (largerIds s.added id).card < 250 → id ∈ s.dispatched
  once : ∀ id, (largerIds s.added id).card < 250 → s.added.count id ≤ 1
  entered : ∀ id, (enteredFor s.process s.entered id).length ≤ s.added.count id
  processes : ∀ e ∈ s.entered, e.process ≤ s.process

theorem largerIds_cons (dispatched : List Int) (cmdId id : Int) :
    largerIds dispatched id ⊆ largerIds (cmdId :: dispatched) id := by
  intro x hx
  simp only [largerIds, Finset.mem_filter, List.mem_toFinset, List.mem_cons] at hx ⊢
  exact ⟨Or.inr hx.1, hx.2⟩

/-- Cutting the set down to its newest 250 ids drops none with fewer than 250
larger ones. -/
theorem mem_addDispatched (h : OnceInv s) {id : Int} (cmdId : Int) (hId : id ∈ s.dispatched)
    (hFew : (largerIds s.added id).card < 250) : id ∈ addDispatched s.dispatched cmdId := by
  refine mem_sortedSet.mpr (List.mem_cons_of_mem cmdId ?_)
  split
  · rw [sortedSet_of_sorted h.sorted]
    refine mem_lastN_of_few_larger h.sorted hId (lt_of_le_of_lt ?_ hFew)
    have hNodup : (s.dispatched.filter (fun y => decide (id < y))).Nodup :=
      (nodup_of_sorted h.sorted).filter _
    rw [← List.toFinset_card_of_nodup hNodup]
    apply Finset.card_le_card
    intro x hx
    simp only [List.mem_toFinset, List.mem_filter, decide_eq_true_eq] at hx
    simp only [largerIds, Finset.mem_filter, List.mem_toFinset]
    exact ⟨h.subset x hx.1, hx.2⟩
  · exact hId

/-- An id that is not in the set is dispatched for the first time, or has 250
larger ones. -/
theorem OnceInv.markDispatched (h : OnceInv s) {cmdId : Int} (hNew : cmdId ∉ s.dispatched) :
    OnceInv (markDispatched cmdId s) := by
  have hCard : ∀ id, (largerIds (cmdId :: s.added) id).card < 250 →
      (largerIds s.added id).card < 250 := fun id =>
    lt_of_le_of_lt (Finset.card_le_card (largerIds_cons s.added cmdId id))
  refine ⟨sortedSet_sorted _, ?_, ?_, ?_, ?_, h.processes⟩
  · intro id hId
    rcases List.mem_cons.mp (mem_sortedSet.mp hId) with rfl | hOld
    · exact List.mem_cons_self
    · refine List.mem_cons_of_mem cmdId (h.subset id ?_)
      split at hOld
      · exact mem_sortedSet.mp ((lastN_sublist 250 _).subset hOld)
      · exact hOld
  · intro id hId hFew
    rcases List.mem_cons.mp hId with rfl | hOld
    · exact mem_sortedSet.mpr List.mem_cons_self
    · exact mem_addDispatched h cmdId (h.kept id hOld (hCard id hFew)) (hCard id hFew)
  · intro id hFew
    by_cases hId : id = cmdId
    · subst hId
      have hFresh : id ∉ s.added := fun hMem => hNew (h.kept id hMem (hCard id hFew))
      have hZero : s.added.count id = 0 := List.count_eq_zero.mpr hFresh
      change (id :: s.added).count id ≤ 1
      rw [List.count_cons_self, hZero]
    · change (cmdId :: s.added).count id ≤ 1
      rw [List.count_cons_of_ne (Ne.symm hId)]
      exact h.once id (hCard id hFew)
  · intro id
    exact (h.entered id).trans (List.Sublist.count_le id (List.sublist_cons_self cmdId s.added))

theorem OnceInv.patchCommandStatus (h : OnceInv s) (cmdId : Int) (status : CommandStatus) :
    OnceInv (patchCommandStatus cmdId status s) := by
  unfold Cloud.patchCommandStatus
  split
  · exact ⟨h.sorted, h.subset, h.kept, h.once, h.entered, h.processes⟩
  · exact h

theorem OnceInv.markTriedCmd (h : OnceInv s) (written : Bool) (cmdId : Int) :
    OnceInv (markTriedCmd written cmdId s) := by
  unfold Cloud.markTriedCmd
  split
  · exact ⟨h.sorted, h.subset, h.kept, h.once, h.entered, h.processes⟩
  · exact h

/-- One more handler for an id that was dispatched more often than that. -/
theorem OnceInv.runHandler (h : OnceInv s) {t : DispatchTask} {cmdId : Int}
    (hRoom : (enteredFor s.process s.entered cmdId).length < s.added.count cmdId)
    (kind : Option String) : OnceInv (runHandler t cmdId kind s) := by
  unfold Cloud.runHandler
  split
  case h_1 handler _ =>
    refine ⟨h.sorted, h.subset, h.kept, h.once, ?_, ?_⟩
    · intro id
      by_cases hId : cmdId = id
      · subst hId
        rw [enteredFor_cons, if_pos ⟨rfl, rfl⟩]
        exact hRoom
      · rw [enteredFor_cons, if_neg fun hSame => hId hSame.2]
        exact h.entered id
    · intro e he
      rcases List.mem_cons.mp he with rfl | hOld
      · exact Nat.le_refl _
      · exact h.processes e hOld
  case h_2 => exact h.patchCommandStatus cmdId .failed

theorem OnceInv.dispatchCommand (h : OnceInv s) (written : Bool) (t : DispatchTask) :
    OnceInv (dispatchCommand env written t s) := by
  unfold Cloud.dispatchCommand
  split
  case h_1 => exact h
  case h_2 cmdId _ =>
    dsimp only
    split
    case isTrue => exact h
    case isFalse hNew =>
      have hMarked := h.markDispatched hNew
      have hRoom : (enteredFor (Cloud.markDispatched cmdId s).process
          (Cloud.markDispatched cmdId s).entered cmdId).length <
          (Cloud.markDispatched cmdId s).added.count cmdId := by
        change (enteredFor s.process s.entered cmdId).length < (cmdId :: s.added).count cmdId
        rw [List.count_cons_self]
        exact Nat.lt_succ_of_le (h.entered cmdId)
      split
      · exact h.patchCommandStatus cmdId .failed
      · split
        · split
          · split
            · exact ⟨hMarked.sorted, hMarked.subset, hMarked.kept, hMarked.once, hMarked.entered,
                hMarked.processes⟩
            · exact hMarked.patchCommandStatus cmdId .failed
          · refine (hMarked.markTriedCmd written cmdId).runHandler ?_ _
            unfold Cloud.markTriedCmd
            split
            · exact hRoom
            · exact hRoom
        · exact hMarked.runHandler hRoom _

theorem OnceInv.considerCommand (h : OnceInv s) (verified : Bool) (reply : Nat) (cmd : Json) :
    OnceInv (considerCommand env verified reply cmd s) := by
  unfold Cloud.considerCommand
  repeat' split
  all_goals first
    | exact h
    | exact ⟨h.sorted, h.subset, h.kept, h.once, h.entered, h.processes⟩

theorem OnceInv.step (h : OnceInv s) (event : DispatchEvent) :
    OnceInv (dispatchStep env s event) := by
  cases event with
  | reply commands => exact ⟨h.sorted, h.subset, h.kept, h.once, h.entered, h.processes⟩
  | consider i verified =>
      simp only [dispatchStep]
      split
      case h_2 => exact h
      case h_1 reply cmd rest _ =>
        have hNext : OnceInv { s with replies := s.replies.set i (reply, rest) } :=
          ⟨h.sorted, h.subset, h.kept, h.once, h.entered, h.processes⟩
        exact hNext.considerCommand verified reply cmd
  | start i written =>
      simp only [dispatchStep]
      split
      case h_2 => exact h
      case h_1 t _ =>
        have hNext : OnceInv { s with tasks := s.tasks.eraseIdx i } :=
          ⟨h.sorted, h.subset, h.kept, h.once, h.entered, h.processes⟩
        exact hNext.dispatchCommand written t
  | report cmdId status =>
      simp only [dispatchStep]
      split
      · exact h.patchCommandStatus cmdId status
      · exact h
  | restart =>
      refine ⟨List.Pairwise.nil, by simp [dispatchStep], by simp [dispatchStep],
        by simp [dispatchStep], ?_, ?_⟩
      · -- No handler has been entered in the process that starts.
        intro id
        have hNone : enteredFor (s.process + 1) s.entered id = [] := by
          apply List.filter_eq_nil_iff.mpr
          intro e he
          have hBefore : e.process ≤ s.process := h.processes e he
          have hOther : ¬ e.process = s.process + 1 := by omega
          simp [hOther]
        change (enteredFor (s.process + 1) s.entered id).length ≤ _
        rw [hNone]
        exact Nat.zero_le _
      · exact fun e he => Nat.le_succ_of_le (h.processes e he)

theorem onceInv_run (env : CommandEnv) (w : LedgerWorld) (tried : List Int)
    (events : List DispatchEvent) :
    OnceInv (run (dispatchStep env) (DispatchState.initial w tried) events) := by
  have hInit : OnceInv (DispatchState.initial w tried) := by
    unfold DispatchState.initial
    constructor
    all_goals simp [enteredFor]
  exact @run_preserves _ _ (dispatchStep env) OnceInv (fun _ event h => h.step event) _ hInit
    events

end Once

section ReplaySafety

/-- Replay safety. Once a terminal status of an id is recorded, no reply that
comes later makes a handler run for it, in this process or after restarts; and
within a process an id enters a handler at most once as long as fewer than 250
larger ids were dispatched. Replies, tasks, reports and restarts may interleave
in any way. -/
theorem command_replay_safety (env : CommandEnv) (w : LedgerWorld) (tried : List Int)
    (events : List DispatchEvent) (s : DispatchState)
    (hRun : s = run (dispatchStep env) (DispatchState.initial w tried) events) :
    (∀ id n, (id, n) ∈ s.recorded → ∀ e ∈ s.entered, e.id = id → e.reply ≤ n) ∧
      (∀ id, (largerIds s.added id).card < 250 → (enteredFor s.process s.entered id).length ≤ 1) := by
  subst hRun
  have hRecorded := recordedInv_run env w tried events
  have hOnce := onceInv_run env w tried events
  refine ⟨?_, ?_⟩
  · intro id n hr e he hId
    exact hRecorded.entriesBefore (id, n) hr e he hId
  · intro id hFew
    exact (hOnce.entered id).trans (hOnce.once id hFew)

/-- An appliance of version 1.2.0 with no files yet. -/
def freshEnv : CommandEnv where
  intOf := fun _ => none
  loads := fun _ => none
  dictOf := fun _ => none
  runningVersion := "1.2.0"

/-- A backup that the cloud sends twice in one reply and once more after it
succeeded and the daemon restarted. -/
def replayedBackup : List DispatchEvent :=
  let cmd := Json.obj [("id", .int 7), ("kind", .str "backup_now")]
  [.reply (some (.arr [cmd, cmd])), .consider 0 true, .consider 0 true, .start 0 true,
    .start 0 true, .report 7 .success, .restart, .reply (some (.arr [cmd])), .consider 0 true,
    .start 0 true]

theorem command_replay_safety_replayedBackup :
    ∃ s : DispatchState, s.recorded = [(7, 1)] ∧ s.received = 2 ∧ s.entered.length = 1 ∧
      ∀ e ∈ s.entered, e.id = 7 → e.reply ≤ 1 := by
  let s := run (dispatchStep freshEnv) (DispatchState.initial ⟨[], fun _ => none⟩ [])
    replayedBackup
  have hRecorded : s.recorded = [(7, 1)] := by decide +kernel
  have hSafe := command_replay_safety freshEnv ⟨[], fun _ => none⟩ [] replayedBackup s rfl
  exact ⟨s, hRecorded, by decide +kernel, by decide +kernel,
    hSafe.1 7 1 (hRecorded ▸ List.mem_cons_self)⟩

end ReplaySafety

end WattPost.Cloud
