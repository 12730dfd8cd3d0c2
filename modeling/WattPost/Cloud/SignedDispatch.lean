import WattPost.Cloud.CommandDispatch
import WattPost.Cloud.JsonDumps
import WattPost.Cloud.SigningPin

/-! What the signature of a dispatched command covers. `verify_command` makes the fields
of a command into an int and texts before it checks the signature over them; the task that
`heartbeat_once` spawns reads the same dictionary as it came. -/
namespace WattPost.Cloud

open Auth Runs

/-! ### The signed text -/

/-- The libraries: those of the keys, `datetime.fromisoformat(str(x))` and `isoformat`,
`int` of a float or of a text, `str` of a list or of a dictionary, `dict` of a list, and
the version that runs. -/
structure HeartbeatEnv extends JwksEnv where
  fromIsoformat : Json → Option QueuedAt
  isoformat : ℚ → String
  intOf : Json → Option Int
  reprOf : Json → String
  dictOf : List Json → Option Fields
  runningVersion : String

/-- `str(x)`. -/
def pyStr (reprOf : Json → String) : Json → String
  | .null => "None"
  | .bool b => if b then "True" else "False"
  | .int n => toString n
  | .float literal => literal
  | .str s => s
  | .arr values => reprOf (.arr values)
  | .obj fields => reprOf (.obj fields)

/-- The dictionary of `canonical_repr`; `dict.get` of a missing field is `None`. -/
def canonicalFields (isoformat : ℚ → String) (f : SignedFields) : Fields :=
  [("id", .int f.id), ("issuer", .str "cloud"), ("appliance_id", .int f.applianceId),
    ("kind", .str f.kind), ("target_version", f.targetVersion.getD .null),
    ("target_backup_id", f.targetBackupId.getD .null),
    ("payload_json", f.payloadJson.getD .null), ("queued_at", .str (isoformat f.queuedAt)),
    ("nonce", .str f.nonce)]

def canonicalRepr (isoformat : ℚ → String) (f : SignedFields) : String :=
  Json.dumps (.obj (canonicalFields isoformat f))

def HeartbeatEnv.verifyEnv (env : HeartbeatEnv) : CommandVerifyEnv where
  toJwksEnv := env.toJwksEnv
  fromIsoformat := env.fromIsoformat
  intOf := env.intOf
  strOf := pyStr env.reprOf
  dumpSigned := canonicalRepr env.isoformat

def HeartbeatEnv.commandEnv (env : HeartbeatEnv) : CommandEnv where
  intOf := env.intOf
  loads := env.loads
  dictOf := env.dictOf
  runningVersion := env.runningVersion

/-- The fields of a command that its signature covers. -/
def signedFields (env : HeartbeatEnv) (cmd : Fields) (applianceId : Int) (queuedAt : ℚ)
    (nonce : Json) : Option SignedFields :=
  (signedId env.verifyEnv cmd).map fun id =>
    { id := id
      applianceId := applianceId
      kind := (Json.get? cmd "kind").elim "" (pyStr env.reprOf)
      targetVersion := Json.get? cmd "target_version"
      targetBackupId := Json.get? cmd "target_backup_id"
      payloadJson := Json.get? cmd "payload_json"
      queuedAt := queuedAt
      nonce := pyStr env.reprOf nonce }

theorem signingInput_eq (env : HeartbeatEnv) (cmd : Fields) (applianceId : Int) (queuedAt : ℚ)
    (nonce : Json) :
    signingInput env.verifyEnv cmd applianceId queuedAt nonce =
      (signedFields env cmd applianceId queuedAt nonce).map fun f =>
        "wattpost-cmd-v2\n" ++ canonicalRepr env.isoformat f := by
  rw [signingInput, signedFields, Option.map_map]
  rfl

/-! ### One text for one command -/

/-- Two fields are equal, up to the order of names in objects. -/
def SameField (a b : Option Json) : Prop :=
  (a.getD .null).sortKeys = (b.getD .null).sortKeys

/-- Both commands say the same to the dispatcher and to the verifier. -/
structure SameSigned (isoformat : ℚ → String) (f g : SignedFields) : Prop where
  id : f.id = g.id
  applianceId : f.applianceId = g.applianceId
  kind : f.kind = g.kind
  targetVersion : SameField f.targetVersion g.targetVersion
  targetBackupId : SameField f.targetBackupId g.targetBackupId
  payloadJson : SameField f.payloadJson g.payloadJson
  queuedAt : isoformat f.queuedAt = isoformat g.queuedAt
  nonce : f.nonce = g.nonce

/-- The fields that are signed as they came are what `json.loads` can return. -/
structure SignedFields.Loaded (f : SignedFields) : Prop where
  targetVersion : (f.targetVersion.getD .null).Loaded
  targetBackupId : (f.targetBackupId.getD .null).Loaded
  payloadJson : (f.payloadJson.getD .null).Loaded

theorem loaded_canonicalFields {isoformat : ℚ → String} {f : SignedFields} (hf : f.Loaded) :
    Json.Loaded (.obj (canonicalFields isoformat f)) := by
  simp [canonicalFields, Json.Loaded, Json.LoadedFields, hf.targetVersion, hf.targetBackupId,
    hf.payloadJson]

/-- `canonical_repr` is injective. -/
theorem canonicalRepr_eq_iff {isoformat : ℚ → String} {f g : SignedFields} (hf : f.Loaded)
    (hg : g.Loaded) :
    canonicalRepr isoformat f = canonicalRepr isoformat g ↔ SameSigned isoformat f g := by
  rw [canonicalRepr, canonicalRepr,
    Json.dumps_eq_iff (loaded_canonicalFields hf) (loaded_canonicalFields hg)]
  constructor
  · intro h
    have hField := Json.get?_of_sortKeys_eq h
    constructor
    case id => simpa [canonicalFields, Json.get?, Json.sortKeys] using hField "id"
    case applianceId =>
      simpa [canonicalFields, Json.get?, Json.sortKeys] using hField "appliance_id"
    case kind => simpa [canonicalFields, Json.get?, Json.sortKeys] using hField "kind"
    case targetVersion =>
      simpa [canonicalFields, Json.get?, SameField] using hField "target_version"
    case targetBackupId =>
      simpa [canonicalFields, Json.get?, SameField] using hField "target_backup_id"
    case payloadJson => simpa [canonicalFields, Json.get?, SameField] using hField "payload_json"
    case queuedAt => simpa [canonicalFields, Json.get?, Json.sortKeys] using hField "queued_at"
    case nonce => simpa [canonicalFields, Json.get?, Json.sortKeys] using hField "nonce"
  · rintro ⟨hId, hOwn, hKind, hVersion, hBackup, hPayload, hQueued, hNonce⟩
    rw [SameField] at hVersion hBackup hPayload
    simp only [canonicalFields, Json.sortKeys, Json.sortKeysFields, hId, hOwn, hKind, hVersion,
      hBackup, hPayload, hQueued, hNonce]

/-! ### From the reply to the task -/

/-- What the verification of one command meets: the two clocks, whether this heartbeat has
fetched the keys anew, and the network. -/
structure CommandTurn where
  now : ℚ
  monotonic : ℚ
  spent : Bool
  first : NetworkUse
  second : NetworkUse

/-- `verify_command` for a command of a reply: the id is the appliance's own. -/
def CommandTurn.call (turn : CommandTurn) (ownId : Int) (cmd : Fields) : VerifyCommand where
  cmd := cmd
  applianceId := ownId
  now := turn.now
  monotonic := turn.monotonic
  spent := turn.spent
  first := turn.first
  second := turn.second

/-- What `heartbeat_once` makes of a command before the ledger: what is no dictionary is
skipped, and an appliance without an id refuses everything. -/
def verifyReplied (env : HeartbeatEnv) (ownId : Option Int) (turn : CommandTurn) (cmd : Json)
    (pin : PinState) : Bool × PinState :=
  match cmd, ownId with
  | .obj fields, some ownId =>
      let (accepted, pin) := verifyCommand env.verifyEnv (turn.call ownId fields) pin
      (accepted.isSome, pin)
  | _, _ => (false, pin)

/-- A task that was spawned: the id and the keys of the appliance when its command was
verified, and what the verification met. -/
structure Spawned where
  task : DispatchTask
  ownId : Option Int
  turn : CommandTurn
  pin : PinState

/-- The appliance. Which tasks were spawned is bookkeeping. -/
structure HeartbeatWorld where
  ownId : Option Int
  pin : PinState
  dispatch : DispatchState
  spawned : List Spawned

/-- What happens next: the appliance is paired or unpaired; something else befalls the keys
or the pin; a reply arrives; a heartbeat goes on to the next command of its reply; a task
runs; a task under way reports; the process starts again. -/
inductive HeartbeatEvent where
  | pair (ownId : Option Int)
  | keys (event : PinEvent)
  | reply (commands : Option Json)
  | consider (i : Nat) (turn : CommandTurn)
  | start (i : Nat) (written : Bool)
  | report (cmdId : Int) (status : CommandStatus)
  | restart

/-- The next command of a reply is verified, held against the ledger and, if it passes,
handed to a task. -/
def considerReplied (env : HeartbeatEnv) (w : HeartbeatWorld) (i : Nat) (turn : CommandTurn)
    (cmd : Json) : HeartbeatWorld :=
  let (verified, pin) := verifyReplied env w.ownId turn cmd w.pin
  let dispatch := dispatchStep env.commandEnv w.dispatch (.consider i verified)
  let new := dispatch.tasks.drop w.dispatch.tasks.length
  { w with
    pin := pin
    dispatch := dispatch
    spawned := new.map (fun task => ⟨task, w.ownId, turn, w.pin⟩) ++ w.spawned }

def heartbeatStep (env : HeartbeatEnv) (w : HeartbeatWorld) : HeartbeatEvent → HeartbeatWorld
  | .pair ownId => { w with ownId := ownId }
  | .keys event => { w with pin := (pinStep env.verifyEnv ⟨w.pin, []⟩ event).state }
  | .reply commands =>
      { w with dispatch := dispatchStep env.commandEnv w.dispatch (.reply commands) }
  | .consider i turn =>
      match w.dispatch.replies[i]? with
      | some (_, cmd :: _) => considerReplied env w i turn cmd
      | _ => w
  | .start i written =>
      { w with dispatch := dispatchStep env.commandEnv w.dispatch (.start i written) }
  | .report cmdId status =>
      { w with dispatch := dispatchStep env.commandEnv w.dispatch (.report cmdId status) }
  | .restart =>
      { w with
        pin := (pinStep env.verifyEnv ⟨w.pin, []⟩ .restart).state
        dispatch := dispatchStep env.commandEnv w.dispatch .restart }

/-- A process that starts on what earlier ones left. -/
def HeartbeatWorld.initial (ownId : Option Int) (pin : PinState) (ledger : LedgerWorld)
    (tried : List Int) : HeartbeatWorld where
  ownId := ownId
  pin := pin
  dispatch := .initial ledger tried
  spawned := []

/-! ### What a spawned task carries -/

/-- The signed fields are those of the command: its id as an int, its kind and its nonce as
texts, and the rest as it came; it was queued in the last seven days, or up to five minutes
ahead of the clock. What the dispatcher goes on with is signed as it came: an id that is an
int, and a kind that is a text. -/
structure SignsCommand (env : HeartbeatEnv) (cmd : Fields) (ownId : Int) (now : ℚ)
    (f : SignedFields) : Prop where
  applianceId : f.applianceId = ownId
  id : signedId env.verifyEnv cmd = some f.id
  dispatchedId : ∀ id, Json.intValue (Json.get? cmd "id") = some id → f.id = id
  kind : f.kind = (Json.get? cmd "kind").elim "" (pyStr env.reprOf)
  dispatchedKind : ∀ kind, Json.strValue (Json.get? cmd "kind") = some kind → f.kind = kind
  targetVersion : f.targetVersion = Json.get? cmd "target_version"
  targetBackupId : f.targetBackupId = Json.get? cmd "target_backup_id"
  payloadJson : f.payloadJson = Json.get? cmd "payload_json"
  nonce : ∃ nonce, Json.get? cmd "nonce" = some nonce ∧ f.nonce = pyStr env.reprOf nonce
  queuedAt : ∃ text q, Json.get? cmd "queued_at" = some text ∧
    env.fromIsoformat text = some q ∧ q.zeroOffset = true ∧ f.queuedAt = q.utc
  recent : now - maxAge ≤ f.queuedAt
  notAhead : f.queuedAt ≤ now + maxFuture

/-- The command of a task carries an Ed25519 signature, under the key that the JWKS has for
its `kid`, of the signing input over its fields. -/
def CarriesSignature (env : HeartbeatEnv) (p : Spawned) : Prop :=
  ∃ ownId url kid jwk x text signature f, p.ownId = some ownId ∧ p.pin.jwksUrl = some url ∧
    Json.get? p.task.cmd "signing_kid" = some kid ∧
    (lookupSigningKey env.verifyEnv (p.turn.call ownId p.task.cmd) url kid p.pin).1 = some jwk ∧
    Json.fieldEq (Json.get? jwk "kid") (some kid) = true ∧
    verifyKeyFromJwk env.toJwksEnv jwk = some x ∧
    Json.get? p.task.cmd "signature_b64" = some (.str text) ∧
    env.b64urlDecode text = some signature ∧
    env.ed25519 x ("wattpost-cmd-v2\n" ++ canonicalRepr env.isoformat f) signature = true ∧
    SignsCommand env p.task.cmd ownId p.turn.now f

variable {env : HeartbeatEnv}

theorem freshQueuedAt_some {env : CommandVerifyEnv} {queuedAt : Json} {now q : ℚ}
    (h : freshQueuedAt env queuedAt now = some q) :
    (∃ stamp, env.fromIsoformat queuedAt = some stamp ∧ stamp.zeroOffset = true ∧
        q = stamp.utc) ∧
      now - maxAge ≤ q ∧ q ≤ now + maxFuture := by
  unfold freshQueuedAt at h
  split at h
  case h_1 => cases h
  case h_2 stamp hStamp =>
    split at h
    case isTrue => cases h
    case isFalse hFresh =>
      obtain rfl := Option.some.inj h
      simp only [Bool.or_eq_true, Bool.not_eq_true', decide_eq_true_eq, not_or, not_lt,
        Bool.not_eq_false] at hFresh
      obtain ⟨⟨hOffset, hOld⟩, hFuture⟩ := hFresh
      refine ⟨⟨stamp, hStamp, hOffset, rfl⟩, ?_, ?_⟩
      · linarith
      · linarith

theorem signedId_of_intValue {env : CommandVerifyEnv} {cmd : Fields} {id : Int}
    (h : Json.intValue (Json.get? cmd "id") = some id) : signedId env cmd = some id := by
  unfold signedId
  cases hId : Json.get? cmd "id" with
  | none =>
      rw [hId] at h
      cases h
  | some j =>
      rw [hId] at h
      simp only [h, Option.some_or]

theorem kind_of_strValue {cmd : Fields} {kind : String} (reprOf : Json → String)
    (h : Json.strValue (Json.get? cmd "kind") = some kind) :
    (Json.get? cmd "kind").elim "" (pyStr reprOf) = kind := by
  unfold Json.strValue at h
  split at h
  case h_1 s hKind =>
    rw [hKind]
    exact Option.some.inj h
  case h_2 => cases h

/-- A command that `verify_command` lets pass carries its signature. -/
theorem carriesSignature_of_verifyReplied {ownId : Option Int} {turn : CommandTurn}
    {pin : PinState} {task : DispatchTask}
    (h : (verifyReplied env ownId turn (.obj task.cmd) pin).1 = true) :
    CarriesSignature env ⟨task, ownId, turn, pin⟩ := by
  cases ownId with
  | none => cases h
  | some ownId =>
      simp only [verifyReplied] at h
      obtain ⟨a, ha⟩ := Option.isSome_iff_exists.mp h
      obtain ⟨url, sig, nonce, queuedAt, q, jwk, hUrl, hSig, hKid, hNonce, hQueued, hFresh,
        hInput, hFound, _, hCheck, _, _⟩ := verifyCommand_accepts ha
      obtain ⟨_, _, hKey, ⟨text, rfl, hDecode⟩, hVerify⟩ := checkSignature_key hCheck
      rw [signingInput_eq, Option.map_eq_some_iff] at hInput
      obtain ⟨f, hFields, hMessage⟩ := hInput
      obtain ⟨id, hId, rfl⟩ := Option.map_eq_some_iff.mp hFields
      obtain ⟨⟨stamp, hStamp, hOffset, hUtc⟩, hRecent, hAhead⟩ := freshQueuedAt_some hFresh
      refine ⟨ownId, url, a.kid, jwk, a.x, text, a.signature, _, rfl, hUrl, hKid, hFound,
        lookupSigningKey_kid hFound, hKey, hSig, hDecode, hMessage ▸ hVerify, ?_⟩
      exact
        { applianceId := rfl
          id := hId
          dispatchedId := fun other hOther =>
            Option.some.inj (hId.symm.trans (signedId_of_intValue hOther))
          kind := rfl
          dispatchedKind := fun kind hKind => kind_of_strValue env.reprOf hKind
          targetVersion := rfl
          targetBackupId := rfl
          payloadJson := rfl
          nonce := ⟨nonce, hNonce, rfl⟩
          queuedAt := ⟨queuedAt, stamp, hQueued, hStamp, hOffset, hUtc⟩
          recent := hRecent
          notAhead := hAhead }

/-! ### Runs -/

theorem tasks_patchCommandStatus (cmdId : Int) (status : CommandStatus) (s : DispatchState) :
    (patchCommandStatus cmdId status s).tasks = s.tasks := by
  unfold patchCommandStatus
  split
  · rfl
  · rfl

theorem tasks_runHandler (t : DispatchTask) (cmdId : Int) (kind : Option String)
    (s : DispatchState) : (runHandler t cmdId kind s).tasks = s.tasks := by
  unfold runHandler
  split
  · rfl
  · exact tasks_patchCommandStatus cmdId .failed s

theorem tasks_markTriedCmd (written : Bool) (cmdId : Int) (s : DispatchState) :
    (markTriedCmd written cmdId s).tasks = s.tasks := by
  unfold markTriedCmd
  split
  · rfl
  · rfl

theorem tasks_dispatchCommand (env : CommandEnv) (written : Bool) (t : DispatchTask)
    (s : DispatchState) : (dispatchCommand env written t s).tasks = s.tasks := by
  unfold dispatchCommand
  split
  · rfl
  · dsimp only
    split
    · rfl
    · split
      · exact tasks_patchCommandStatus _ _ s
      · split
        · split
          · split
            · exact tasks_patchCommandStatus _ _ _
            · exact tasks_patchCommandStatus _ _ _
          · rw [tasks_runHandler, tasks_markTriedCmd]
            rfl
        · exact tasks_runHandler _ _ _ _

theorem entered_runHandler_none (t : DispatchTask) (cmdId : Int) (s : DispatchState) :
    (runHandler t cmdId none s).entered = s.entered := by
  simp only [runHandler, handlerOf, patchCommandStatus]
  split
  · rfl
  · rfl

/-- A handler is entered only for an id that is an int and a kind that is a text. -/
theorem entered_dispatchCommand (env : CommandEnv) (written : Bool) (t : DispatchTask)
    (s : DispatchState) :
    (dispatchCommand env written t s).entered = s.entered ∨
      ∃ id kind, Json.intValue (Json.get? t.cmd "id") = some id ∧
        Json.strValue (Json.get? t.cmd "kind") = some kind := by
  cases hId : Json.intValue (Json.get? t.cmd "id") with
  | none =>
      simp only [dispatchCommand, hId]
      exact Or.inl trivial
  | some id =>
      cases hKind : Json.strValue (Json.get? t.cmd "kind") with
      | some kind => exact Or.inr ⟨id, kind, rfl, rfl⟩
      | none =>
          refine Or.inl ?_
          have hSpawning : spawningKind none = false := rfl
          simp only [dispatchCommand, hId, hKind, hSpawning, Bool.false_and, Bool.false_eq_true,
            if_false]
          split
          · rfl
          · exact entered_runHandler_none t id (markDispatched id s)

/-- The next command of a reply is handed to a task, or nothing is. -/
theorem tasks_consider (env : CommandEnv) {s : DispatchState} {i reply : Nat} {cmd : Json}
    {rest : List Json} (hReply : s.replies[i]? = some (reply, cmd :: rest)) (verified : Bool) :
    (dispatchStep env s (.consider i verified)).tasks = s.tasks ∨
      ∃ fields, cmd = .obj fields ∧ verified = true ∧
        (dispatchStep env s (.consider i verified)).tasks = s.tasks ++ [⟨reply, fields⟩] := by
  simp only [dispatchStep, hReply, considerCommand]
  split
  case h_1 fields =>
    split
    case h_1 => exact Or.inl rfl
    case h_2 =>
      split
      case isTrue hOk =>
        rw [Bool.and_eq_true] at hOk
        exact Or.inr ⟨fields, rfl, hOk.1, rfl⟩
      case isFalse => exact Or.inl rfl
  case h_2 => exact Or.inl rfl

/-- Every spawned task carries its signature, and every waiting task was spawned. -/
structure SignedInv (env : HeartbeatEnv) (w : HeartbeatWorld) : Prop where
  signed : ∀ p ∈ w.spawned, CarriesSignature env p
  tasks : ∀ t ∈ w.dispatch.tasks, ∃ p ∈ w.spawned, p.task = t

theorem SignedInv.of_subset {w w' : HeartbeatWorld} (h : SignedInv env w)
    (hSpawned : w'.spawned = w.spawned) (hTasks : w'.dispatch.tasks ⊆ w.dispatch.tasks) :
    SignedInv env w' where
  signed := by
    rw [hSpawned]
    exact h.signed
  tasks := by
    intro t ht
    rw [hSpawned]
    exact h.tasks t (hTasks ht)

theorem SignedInv.considerReplied {w : HeartbeatWorld} (h : SignedInv env w) {i reply : Nat}
    {cmd : Json} {rest : List Json} (hReply : w.dispatch.replies[i]? = some (reply, cmd :: rest))
    (turn : CommandTurn) : SignedInv env (considerReplied env w i turn cmd) := by
  rcases tasks_consider env.commandEnv hReply (verifyReplied env w.ownId turn cmd w.pin).1 with
    hSame | ⟨fields, rfl, hVerified, hNew⟩
  · apply h.of_subset
    · simp only [Cloud.considerReplied, hSame, List.drop_length, List.map_nil, List.nil_append]
    · simp only [Cloud.considerReplied, hSame]
      exact List.Subset.refl _
  · have hSpawned : (Cloud.considerReplied env w i turn (.obj fields)).spawned =
        ⟨⟨reply, fields⟩, w.ownId, turn, w.pin⟩ :: w.spawned := by
      simp only [Cloud.considerReplied, hNew, List.drop_left, List.map_cons, List.map_nil,
        List.singleton_append]
    constructor
    · intro p hp
      rw [hSpawned] at hp
      rcases List.mem_cons.mp hp with rfl | hOld
      · exact carriesSignature_of_verifyReplied hVerified
      · exact h.signed p hOld
    · intro t ht
      rw [hSpawned]
      simp only [Cloud.considerReplied, hNew] at ht
      rcases List.mem_append.mp ht with hOld | hLast
      · obtain ⟨p, hp, hTask⟩ := h.tasks t hOld
        exact ⟨p, List.mem_cons_of_mem _ hp, hTask⟩
      · exact ⟨_, List.mem_cons_self, (List.mem_singleton.mp hLast).symm⟩

theorem SignedInv.step {w : HeartbeatWorld} (h : SignedInv env w) (event : HeartbeatEvent) :
    SignedInv env (heartbeatStep env w event) := by
  cases event with
  | pair ownId => exact h.of_subset rfl (List.Subset.refl _)
  | keys event => exact h.of_subset rfl (List.Subset.refl _)
  | reply commands => exact h.of_subset rfl (List.Subset.refl _)
  | consider i turn =>
      simp only [heartbeatStep]
      split
      case h_1 reply cmd rest hReply => exact h.considerReplied hReply turn
      case h_2 => exact h
  | start i written =>
      refine h.of_subset (by rfl) ?_
      simp only [heartbeatStep, dispatchStep]
      split
      case h_1 t _ =>
        rw [tasks_dispatchCommand]
        exact (List.eraseIdx_sublist _ i).subset
      case h_2 => exact List.Subset.refl _
  | report cmdId status =>
      refine h.of_subset (by rfl) ?_
      simp only [heartbeatStep, dispatchStep]
      split
      · rw [tasks_patchCommandStatus]
        exact List.Subset.refl _
      · exact List.Subset.refl _
  | restart => exact h.of_subset rfl (List.nil_subset _)

/-- A command as `json.loads` returns it. -/
structure LoadedCommand where
  fields : Fields
  loaded : Json.Loaded (.obj fields)

theorem LoadedCommand.signedFields {cmd : LoadedCommand} {applianceId : Int} {queuedAt : ℚ}
    {nonce : Json} {f : SignedFields}
    (h : Cloud.signedFields env cmd.fields applianceId queuedAt nonce = some f) : f.Loaded := by
  obtain ⟨id, _, rfl⟩ := Option.map_eq_some_iff.mp h
  have hField : ∀ name, ((Json.get? cmd.fields name).getD .null).Loaded := by
    intro name
    cases hGet : Json.get? cmd.fields name with
    | none => trivial
    | some value =>
        rw [Json.get?_eq_lastRow] at hGet
        exact Json.loadedFields_iff.mp cmd.loaded _ (Keyed.Table.lastRow_eq_some hGet)
  exact ⟨hField "target_version", hField "target_backup_id", hField "payload_json"⟩

/-- Only signed commands are dispatched. In every run, each spawned task carries the
signature of its command, and the tasks that wait are those; a handler is entered only for
an id and a kind that are signed as they came; and commands that differ in what is signed
have no signing input in common. -/
theorem only_signed_dispatched (env : HeartbeatEnv) (ownId : Option Int) (pin : PinState)
    (ledger : LedgerWorld) (tried : List Int) (events : List HeartbeatEvent) :
    SignedInv env (run (heartbeatStep env) (.initial ownId pin ledger tried) events) ∧
      (∀ (written : Bool) (t : DispatchTask) (s : DispatchState),
        (dispatchCommand env.commandEnv written t s).entered = s.entered ∨
          ∃ id kind, Json.intValue (Json.get? t.cmd "id") = some id ∧
            Json.strValue (Json.get? t.cmd "kind") = some kind) ∧
      ∀ (c d : LoadedCommand) (ownId ownId' : Int) (q q' : ℚ) (nonce nonce' : Json)
        (f g : SignedFields), signedFields env c.fields ownId q nonce = some f →
          signedFields env d.fields ownId' q' nonce' = some g →
          (signingInput env.verifyEnv c.fields ownId q nonce =
              signingInput env.verifyEnv d.fields ownId' q' nonce' ↔
            SameSigned env.isoformat f g) := by
  refine ⟨?_, entered_dispatchCommand env.commandEnv, ?_⟩
  · apply run_preserves (fun w event h => h.step event)
    constructor
    · intro p hp
      cases hp
    · intro t ht
      cases ht
  · intro c d ownId ownId' q q' nonce nonce' f g hf hg
    rw [signingInput_eq, signingInput_eq, hf, hg, Option.map_some, Option.map_some,
      Option.some.injEq, String.append_right_inj]
    exact canonicalRepr_eq_iff (LoadedCommand.signedFields hf) (LoadedCommand.signedFields hg)

/-- The text that a cloud signs for a command of the kind "None". -/
def noneText : String :=
  "wattpost-cmd-v2\n\x7b\"appliance_id\":1,\"id\":7,\"issuer\":\"cloud\",\"kind\":\"None\"," ++
    "\"nonce\":\"n\",\"payload_json\":null,\"queued_at\":\"1970-01-01T00:16:40+00:00\"," ++
    "\"target_backup_id\":null,\"target_version\":null\x7d"

/-- An appliance for which the key `xa` has signed that text and nothing else. -/
def noneEnv : HeartbeatEnv where
  web := pairedEnv.web
  joinUrl := fun _ _ => none
  b64urlDecode := some
  loads := fun _ => none
  verifyKey := fun _ => true
  ed25519 := fun x message signature => x == "xa" && signature == "sig" && message == noneText
  fromIsoformat := fun _ => some ⟨1000, true⟩
  isoformat := fun _ => "1970-01-01T00:16:40+00:00"
  intOf := fun _ => none
  reprOf := fun _ => ""
  dictOf := fun _ => none
  runningVersion := "1.2.0"

/-- A reply with that command and with one whose kind is null. -/
def noneEvents : List HeartbeatEvent :=
  let cmd := fun kind => Json.obj [("id", .int 7), ("kind", kind), ("signature_b64", .str "sig"),
    ("signing_kid", .str "k1"), ("nonce", .str "n"), ("queued_at", .str "1970-01-01T00:16:40")]
  let net := (commandSignedBy (.str "k1") "xa" 0).first
  let turn : CommandTurn := ⟨1000, 0, false, net, net⟩
  [.reply (some (.arr [cmd (.str "None"), cmd .null])), .consider 0 turn, .consider 0 turn]

/-- Both are dispatched, on one signature. -/
theorem null_kind_shares_signature :
    let spawned := (run (heartbeatStep noneEnv)
      (.initial (some 1) pairedState ⟨[], fun _ => none⟩ []) noneEvents).spawned
    spawned.map (fun p => Json.get? p.task.cmd "kind") = [some .null, some (.str "None")] ∧
      ¬ ∀ p ∈ spawned, ∀ q ∈ spawned,
        Json.get? p.task.cmd "signature_b64" = Json.get? q.task.cmd "signature_b64" →
          Json.get? p.task.cmd "kind" = Json.get? q.task.cmd "kind" := by
  intro spawned
  have hFields : spawned.map (fun p =>
      (Json.get? p.task.cmd "kind", Json.get? p.task.cmd "signature_b64")) =
        [(some .null, some (.str "sig")), (some (.str "None"), some (.str "sig"))] := by
    decide +kernel
  obtain ⟨p, _, hSpawned, hP, hRest⟩ := List.map_eq_cons_iff.mp hFields
  obtain ⟨q, _, rfl, hQ, hNone⟩ := List.map_eq_cons_iff.mp hRest
  obtain rfl := List.map_eq_nil_iff.mp hNone
  rw [Prod.mk.injEq] at hP hQ
  constructor
  · rw [hSpawned, List.map_cons, List.map_cons, List.map_nil, hP.1, hQ.1]
  · intro hSame
    have hKind := hSame p (hSpawned ▸ List.mem_cons_self) q
      (hSpawned ▸ List.mem_cons_of_mem p List.mem_cons_self) (hP.2.trans hQ.2.symm)
    rw [hP.1, hQ.1] at hKind
    cases hKind

end WattPost.Cloud
