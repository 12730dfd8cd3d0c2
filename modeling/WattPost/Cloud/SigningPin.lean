import WattPost.Auth.Jwks
import WattPost.Lib.Runs

/-! Signed commands and the pin on the key that signs them. The keys come from
the cloud's JWKS, which may hold anything; the first key that verifies a command
is written to the pin file, and from then on only a pinned key counts. -/
namespace WattPost.Cloud

open Auth Runs

section Environment

/-- What a timestamp in a command stands for. -/
structure QueuedAt where
  utc : ℚ
  zeroOffset : Bool

/-- The fields that a command's signature covers. -/
structure SignedFields where
  id : Int
  applianceId : Int
  kind : String
  targetVersion : Option Json
  targetBackupId : Option Json
  payloadJson : Option Json
  queuedAt : ℚ
  nonce : String

/-- The JWKS libraries, `datetime.fromisoformat(str(x))`, `int(x)` of what is no
int, `str(x)`, and `json.dumps` of the signed fields with sorted keys. -/
structure CommandVerifyEnv extends JwksEnv where
  fromIsoformat : Json → Option QueuedAt
  intOf : Json → Option Int
  strOf : Json → String
  dumpSigned : SignedFields → String

/-- The pin file, as far as it is read. -/
structure PinFile where
  host : Option Json
  keys : Fields

/-- The keys, the JWKS URL of the saved OIDC configuration, the pin file if it
can be read, and when a fetch was last forced. -/
structure PinState where
  jwks : JwksState
  jwksUrl : Option String
  pin : Option PinFile
  lastForcedRefresh : Option ℚ

/-- A call of `verify_command`: the command, the two clocks, what
`refresh_state` says, and its uses of the network. -/
structure VerifyCommand where
  cmd : Fields
  applianceId : Int
  now : ℚ
  monotonic : ℚ
  spent : Bool
  first : NetworkUse
  second : NetworkUse

/-- An accepted command: its `kid`, the key found for it and what verified. -/
structure Acceptance where
  kid : Json
  x : String
  message : String
  signature : String

end Environment

section Pin

variable (env : CommandVerifyEnv)

/-- `_cloud_host`. -/
def cloudHost (jwksUrl : Option String) : String :=
  (jwksUrl.bind (hostOf env.web)).getD ""

/-- `_pin_for_this_cloud`: a pin that was made for another host does not apply. -/
def pinForThisCloud (s : PinState) : Option PinFile :=
  match s.pin with
  | none => none
  | some d =>
      let host := cloudHost env s.jwksUrl
      if Json.truthy d.host && host != "" && !Json.fieldEq d.host (some (.str host)) then none
      else some d

/-- One entry of `_okp_keys`. -/
def okpKey (jwk : Fields) : Option (String × Json) :=
  if Json.fieldEq (Json.get? jwk "kty") (some (.str "OKP")) &&
      Json.fieldEq (Json.get? jwk "crv") (some (.str "Ed25519")) then
    match Json.get? jwk "kid", Json.get? jwk "x" with
    | some (.str kid), some (.str x) => some (kid, .str x)
    | _, _ => none
  else none

/-- `_okp_keys`; a member that is no object raises. -/
def okpKeys : List Json → Option Fields
  | [] => some []
  | .obj jwk :: keys => (okpKeys keys).map fun rest => (okpKey jwk).toList ++ rest
  | _ :: _ => none

/-- `_write_pin`. -/
def writePin (keys : Fields) (s : PinState) : PinState :=
  { s with pin := some ⟨some (.str (cloudHost env s.jwksUrl)), keys⟩ }

/-- `d["keys"].get(kid)`: the names are strings, and a list or an object raises. -/
def pinnedX (d : PinFile) : Json → Except Unit (Option Json)
  | .str kid => .ok (Json.get? d.keys kid)
  | .arr _ => .error ()
  | .obj _ => .error ()
  | _ => .ok none

/-- `_pin_allows`, false where it raises. -/
def pinAllows (kid : Json) (jwk : Fields) (s : PinState) : Bool :=
  match pinForThisCloud env s with
  | none => true
  | some d =>
      match pinnedX d kid with
      | .ok pinned => Json.fieldEq pinned (Json.get? jwk "x")
      | .error _ => false

/-- `_pin_after_verified`. -/
def pinAfterVerified (jwk : Fields) (s : PinState) : PinState :=
  match pinForThisCloud env s with
  | some _ => s
  | none =>
      match okpKey jwk with
      | some key => writePin env [key] s
      | none => s

/-- `pin_current_keys`. -/
def pinCurrentKeys (force : Bool) (net : NetworkUse) (s : PinState) : PinState :=
  if !force && (pinForThisCloud env s).isSome then s
  else
    match s.jwksUrl with
    | none => s
    | some url =>
        let (keys, jwks) := fetchJwks env.toJwksEnv net url true s.jwks
        match okpKeys keys with
        | some (key :: rest) => writePin env (key :: rest) { s with jwks := jwks }
        | _ => { s with jwks := jwks }

end Pin

section Verify

variable (env : CommandVerifyEnv)

/-- `MAX_AGE` and `MAX_FUTURE`, in seconds. -/
def maxAge : ℚ := 7 * 24 * 60 * 60

def maxFuture : ℚ := 5 * 60

/-- `FORCE_REFRESH_MIN_INTERVAL_S`. -/
def forceRefreshMinInterval : ℚ := 60

/-- The `queued_at` of a command, if it is in UTC and neither too old nor in the
future. -/
def freshQueuedAt (queuedAt : Json) (now : ℚ) : Option ℚ :=
  match env.fromIsoformat queuedAt with
  | none => none
  | some q =>
      if !q.zeroOffset || decide (maxAge < now - q.utc) || decide (maxFuture < q.utc - now) then
        none
      else some q.utc

/-- `int(cmd.get("id", 0))`, or nothing where it raises. -/
def signedId (cmd : Fields) : Option Int :=
  match Json.get? cmd "id" with
  | none => some 0
  | some j => (Json.intValue (some j)).or (env.intOf j)

/-- `signing_input(canonical_repr(...))`. -/
def signingInput (cmd : Fields) (applianceId : Int) (queuedAt : ℚ) (nonce : Json) :
    Option String :=
  (signedId env cmd).map fun id =>
    "wattpost-cmd-v2\n" ++ env.dumpSigned
      { id := id
        applianceId := applianceId
        kind := (Json.get? cmd "kind").elim "" env.strOf
        targetVersion := Json.get? cmd "target_version"
        targetBackupId := Json.get? cmd "target_backup_id"
        payloadJson := Json.get? cmd "payload_json"
        queuedAt := queuedAt
        nonce := env.strOf nonce }

/-- The key for a `kid`: a fetch, and a forced one for an unknown `kid` unless
one was made in this heartbeat or within the last minute. -/
def lookupSigningKey (call : VerifyCommand) (url : String) (kid : Json) (s : PinState) :
    Option Fields × PinState :=
  let (keys, jwks) := fetchJwks env.toJwksEnv call.first url false s.jwks
  let s := { s with jwks := jwks }
  match findKid (some kid) keys with
  | .error _ => (none, s)
  | .ok (some jwk) => (some jwk, s)
  | .ok none =>
      if call.spent || s.lastForcedRefresh.any (fun t =>
          decide (call.monotonic - t < forceRefreshMinInterval)) then (none, s)
      else
        let (keys, jwks) := fetchJwks env.toJwksEnv call.second url true s.jwks
        let s := { s with jwks := jwks, lastForcedRefresh := some call.monotonic }
        match findKid (some kid) keys with
        | .error _ => (none, s)
        | .ok found => (found, s)

/-- Whether `kid[:8]` in the last log line is a slice; it raises for what is
neither a string nor a list. -/
def sliceable : Json → Bool
  | .str _ => true
  | .arr _ => true
  | _ => false

/-- The signature of a command under a key. -/
def checkSignature (jwk : Fields) (kid sig : Json) (message : String) : Option Acceptance :=
  match verifyKeyFromJwk env.toJwksEnv jwk, sig with
  | some x, .str sig =>
      match env.b64urlDecode sig with
      | some signature =>
          if env.ed25519 x message signature then some ⟨kid, x, message, signature⟩ else none
      | none => none
  | _, _ => none

/-- `verify_command`, nothing where it refuses or raises. -/
def verifyCommand (call : VerifyCommand) (s : PinState) : Option Acceptance × PinState :=
  match Json.get? call.cmd "signature_b64", Json.get? call.cmd "signing_kid",
    Json.get? call.cmd "nonce", Json.get? call.cmd "queued_at" with
  | some sig, some kid, some nonce, some queuedAt =>
      if !(Json.truthy (some sig) && Json.truthy (some kid) && Json.truthy (some nonce) &&
          Json.truthy (some queuedAt)) then (none, s)
      else
        match s.jwksUrl, (freshQueuedAt env queuedAt call.now).bind fun q =>
            signingInput env call.cmd call.applianceId q nonce with
        | some url, some message =>
            let (found, s) := lookupSigningKey env call url kid s
            match found with
            | none => (none, s)
            | some jwk =>
                if !pinAllows env kid jwk s then (none, s)
                else
                  match checkSignature env jwk kid sig message with
                  | none => (none, s)
                  | some accepted =>
                      let s := pinAfterVerified env jwk s
                      (if sliceable kid then some accepted else none, s)
        | _, _ => (none, s)
  | _, _, _, _ => (none, s)

end Verify

section Histories

/-- What can happen to the keys and to the pin: a command is verified, the keys
are pinned at pairing or again by the owner, the pin is cleared, the OIDC
configuration is saved or lost, another caller fetches keys, the process
restarts. -/
inductive PinEvent where
  | verify (call : VerifyCommand)
  | pinCurrentKeys (force : Bool) (net : NetworkUse)
  | clearPin
  | configure (jwksUrl : Option String)
  | fetch (net : NetworkUse) (jwksUrl : String) (force : Bool)
  | restart

/-- The appliance, and the commands that it accepted. -/
structure PinWorld where
  state : PinState
  accepted : List Acceptance

def pinStep (env : CommandVerifyEnv) (w : PinWorld) : PinEvent → PinWorld
  | .verify call =>
      let (result, s) := verifyCommand env call w.state
      ⟨s, result.toList ++ w.accepted⟩
  | .pinCurrentKeys force net => { w with state := pinCurrentKeys env force net w.state }
  | .clearPin => { w with state := { w.state with pin := none } }
  | .configure jwksUrl => { w with state := { w.state with jwksUrl := jwksUrl } }
  | .fetch net jwksUrl force =>
      { w with
        state :=
          { w.state with jwks := (fetchJwks env.toJwksEnv net jwksUrl force w.state.jwks).2 } }
  | .restart =>
      { w with
        state :=
          { w.state with jwks := { w.state.jwks with cache := none }, lastForcedRefresh := none } }

/-- The command verifies under an `x` that a pin has for its `kid`. -/
def VerifiesUnder (env : CommandVerifyEnv) (d : PinFile) (a : Acceptance) : Prop :=
  ∃ kid, a.kid = .str kid ∧ Json.get? d.keys kid = some (.str a.x) ∧
    env.ed25519 a.x a.message a.signature = true

/-- Nobody clears the pin or forces another one, and the cloud stays the same. -/
def LeavesPin (env : CommandVerifyEnv) (host : String) : PinEvent → Prop
  | .clearPin => False
  | .pinCurrentKeys force _ => force = false
  | .configure jwksUrl => cloudHost env jwksUrl = host
  | _ => True

/-- After an accepted command there is a pin for this cloud, with its key and no
other, and whatever is accepted later verifies under it. -/
def PinsExactly (env : CommandVerifyEnv) (call : VerifyCommand) (s : PinState) (a : Acceptance) :
    Prop :=
  ∃ d, pinForThisCloud env (verifyCommand env call s).2 = some d ∧
    d.keys.map (fun key => (Json.str key.1, key.2)) = [(a.kid, Json.str a.x)] ∧
    ∀ events, (∀ e ∈ events, LeavesPin env (cloudHost env s.jwksUrl) e) →
      ∀ b ∈ (run (pinStep env) ⟨(verifyCommand env call s).2, []⟩ events).accepted,
        VerifiesUnder env d b

end Histories

section Accepted

variable {env : CommandVerifyEnv} {s : PinState} {call : VerifyCommand}

theorem lookupSigningKey_frame (env : CommandVerifyEnv) (call : VerifyCommand) (url : String)
    (kid : Json) (s : PinState) :
    (lookupSigningKey env call url kid s).2.pin = s.pin ∧
      (lookupSigningKey env call url kid s).2.jwksUrl = s.jwksUrl := by
  unfold lookupSigningKey
  dsimp only
  split
  · exact ⟨rfl, rfl⟩
  · exact ⟨rfl, rfl⟩
  · split
    · exact ⟨rfl, rfl⟩
    · split
      · exact ⟨rfl, rfl⟩
      · exact ⟨rfl, rfl⟩

theorem pinForThisCloud_congr {s s' : PinState} (hPin : s'.pin = s.pin)
    (hUrl : s'.jwksUrl = s.jwksUrl) : pinForThisCloud env s' = pinForThisCloud env s := by
  unfold pinForThisCloud
  rw [hPin, hUrl]

theorem findKid_kid {kid : Option Json} {keys : List Json} {jwk : Fields}
    (h : findKid kid keys = .ok (some jwk)) : Json.fieldEq (Json.get? jwk "kid") kid = true := by
  induction keys with
  | nil => cases h
  | cons key keys ih =>
      cases key with
      | obj fields =>
          simp only [findKid] at h
          split at h
          case isTrue hKid =>
            cases h
            exact hKid
          case isFalse => exact ih h
      | _ => cases h

theorem lookupSigningKey_kid {url : String} {kid : Json} {jwk : Fields}
    (h : (lookupSigningKey env call url kid s).1 = some jwk) :
    Json.fieldEq (Json.get? jwk "kid") (some kid) = true := by
  unfold lookupSigningKey at h
  dsimp only at h
  split at h
  case h_1 => cases h
  case h_2 hFound =>
    cases h
    exact findKid_kid hFound
  case h_3 =>
    split at h
    · cases h
    · split at h
      · cases h
      case h_2 hFound =>
        dsimp only at h
        subst h
        exact findKid_kid hFound

/-- A command verifies under the key of its JWK. -/
theorem checkSignature_key {jwk : Fields} {kid sig : Json} {message : String} {a : Acceptance}
    (h : checkSignature env jwk kid sig message = some a) :
    a.kid = kid ∧ a.message = message ∧ verifyKeyFromJwk env.toJwksEnv jwk = some a.x ∧
      (∃ text, sig = .str text ∧ env.b64urlDecode text = some a.signature) ∧
      env.ed25519 a.x a.message a.signature = true := by
  unfold checkSignature at h
  split at h
  case h_2 => cases h
  case h_1 x text hKey =>
    split at h
    case h_2 => cases h
    case h_1 signature hDecode =>
      split at h
      case isFalse => cases h
      case isTrue hVerify =>
        cases h
        exact ⟨rfl, rfl, hKey, ⟨text, rfl, hDecode⟩, hVerify⟩

/-- What a key went through that verified something. -/
theorem checkSignature_some {jwk : Fields} {kid sig : Json} {message : String} {a : Acceptance}
    (h : checkSignature env jwk kid sig message = some a) :
    a.kid = kid ∧ Json.get? jwk "x" = some (.str a.x) ∧
      Json.fieldEq (Json.get? jwk "kty") (some (.str "OKP")) = true ∧
      Json.fieldEq (Json.get? jwk "crv") (some (.str "Ed25519")) = true ∧
      env.ed25519 a.x a.message a.signature = true := by
  obtain ⟨hKid, _, hKey, _, hVerify⟩ := checkSignature_key h
  unfold verifyKeyFromJwk at hKey
  split at hKey
  case isFalse => cases hKey
  case isTrue hShape =>
    simp only [Bool.and_eq_true] at hShape
    split at hKey
    case h_2 => cases hKey
    case h_1 x hx =>
      split at hKey
      case isFalse => cases hKey
      case isTrue =>
        obtain rfl := Option.some.inj hKey
        exact ⟨hKid, hx, hShape.1, hShape.2, hVerify⟩

/-- The checks that an accepted command passed, one after the other. -/
theorem verifyCommand_accepts {a : Acceptance} (h : (verifyCommand env call s).1 = some a) :
    ∃ url sig nonce queuedAt q jwk, s.jwksUrl = some url ∧
      Json.get? call.cmd "signature_b64" = some sig ∧
      Json.get? call.cmd "signing_kid" = some a.kid ∧
      Json.get? call.cmd "nonce" = some nonce ∧ Json.get? call.cmd "queued_at" = some queuedAt ∧
      freshQueuedAt env queuedAt call.now = some q ∧
      signingInput env call.cmd call.applianceId q nonce = some a.message ∧
      (lookupSigningKey env call url a.kid s).1 = some jwk ∧
      pinAllows env a.kid jwk (lookupSigningKey env call url a.kid s).2 = true ∧
      checkSignature env jwk a.kid sig a.message = some a ∧ sliceable a.kid = true ∧
      (verifyCommand env call s).2 =
        pinAfterVerified env jwk (lookupSigningKey env call url a.kid s).2 := by
  unfold verifyCommand at h ⊢
  split at h
  case h_2 => cases h
  case h_1 sig kid nonce queuedAt hSig hKid hNonce hQueued =>
    simp only [hKid]
    split at h
    case isTrue => cases h
    case isFalse hTruthy =>
      rw [if_neg hTruthy]
      split at h
      case h_2 => cases h
      case h_1 url message hUrl hMessage =>
        obtain ⟨q, hFresh, hInput⟩ := Option.bind_eq_some_iff.mp hMessage
        simp only [hUrl]
        cases hFound : (lookupSigningKey env call url kid s).1 with
        | none =>
            simp only [hFound] at h
            cases h
        | some jwk =>
            simp only [hFound] at h ⊢
            split at h
            case isTrue => cases h
            case isFalse hAllows =>
              rw [if_neg hAllows]
              cases hCheck : checkSignature env jwk kid sig message with
              | none =>
                  simp only [hCheck] at h
                  cases h
              | some accepted =>
                  simp only [hCheck] at h ⊢
                  split at h
                  case isFalse => cases h
                  case isTrue hSlice =>
                    cases h
                    obtain ⟨rfl, rfl, _⟩ := checkSignature_key hCheck
                    refine ⟨url, sig, nonce, queuedAt, q, jwk, rfl, hSig, rfl, hNonce, hQueued,
                      hFresh, hInput, hFound, ?_, hCheck, hSlice, rfl⟩
                    simpa using hAllows

/-- Everything that an accepted command went through. -/
theorem verifyCommand_some {a : Acceptance} (h : (verifyCommand env call s).1 = some a) :
    ∃ jwk s', s'.pin = s.pin ∧ s'.jwksUrl = s.jwksUrl ∧
      Json.get? call.cmd "signing_kid" = some a.kid ∧ sliceable a.kid = true ∧
      Json.fieldEq (Json.get? jwk "kid") (some a.kid) = true ∧
      pinAllows env a.kid jwk s' = true ∧ Json.get? jwk "x" = some (.str a.x) ∧
      Json.fieldEq (Json.get? jwk "kty") (some (.str "OKP")) = true ∧
      Json.fieldEq (Json.get? jwk "crv") (some (.str "Ed25519")) = true ∧
      env.ed25519 a.x a.message a.signature = true ∧
      (verifyCommand env call s).2 = pinAfterVerified env jwk s' := by
  obtain ⟨url, sig, nonce, queuedAt, q, jwk, _, _, hKid, _, _, _, _, hFound, hAllows, hCheck,
    hSlice, hState⟩ := verifyCommand_accepts h
  obtain ⟨hPin, hUrl⟩ := lookupSigningKey_frame env call url a.kid s
  obtain ⟨_, hx, hKty, hCrv, hVerify⟩ := checkSignature_some hCheck
  exact ⟨jwk, _, hPin, hUrl, hKid, hSlice, lookupSigningKey_kid hFound, hAllows, hx, hKty, hCrv,
    hVerify, hState⟩

/-- The state after a call: the pin and the configuration as they were, and
then the pin written if a signature verified. -/
theorem verifyCommand_state (env : CommandVerifyEnv) (call : VerifyCommand) (s : PinState) :
    ∃ s', s'.pin = s.pin ∧ s'.jwksUrl = s.jwksUrl ∧
      ((verifyCommand env call s).2 = s' ∨
        ∃ jwk, (verifyCommand env call s).2 = pinAfterVerified env jwk s') := by
  unfold verifyCommand
  split
  case h_2 => exact ⟨s, rfl, rfl, Or.inl rfl⟩
  case h_1 sig kid nonce queuedAt _ _ _ _ =>
    split
    case isTrue => exact ⟨s, rfl, rfl, Or.inl rfl⟩
    case isFalse =>
      split
      case h_2 => exact ⟨s, rfl, rfl, Or.inl rfl⟩
      case h_1 url message _ _ =>
        obtain ⟨hPin, hUrl⟩ := lookupSigningKey_frame env call url kid s
        refine ⟨(lookupSigningKey env call url kid s).2, hPin, hUrl, ?_⟩
        dsimp only
        split
        case h_1 => exact Or.inl rfl
        case h_2 jwk _ =>
          split
          case isTrue => exact Or.inl rfl
          case isFalse =>
            split
            case h_1 => exact Or.inl rfl
            case h_2 => exact Or.inr ⟨jwk, rfl⟩

theorem pinAfterVerified_of_pin {s : PinState} {d : PinFile} (jwk : Fields)
    (h : pinForThisCloud env s = some d) : pinAfterVerified env jwk s = s := by
  unfold pinAfterVerified
  rw [h]

/-- A call changes neither the pin of this cloud nor the configuration. -/
theorem verifyCommand_frame {d : PinFile} (call : VerifyCommand)
    (h : pinForThisCloud env s = some d) :
    (verifyCommand env call s).2.pin = s.pin ∧
      (verifyCommand env call s).2.jwksUrl = s.jwksUrl := by
  obtain ⟨s', hPin, hUrl, hEq | ⟨jwk, hEq⟩⟩ := verifyCommand_state env call s
  · rw [hEq]
    exact ⟨hPin, hUrl⟩
  · have hSame := pinAfterVerified_of_pin jwk ((pinForThisCloud_congr hPin hUrl).trans h)
    rw [hEq, hSame]
    exact ⟨hPin, hUrl⟩

/-- Under a pin, a command verifies under the key that the pin has for it. -/
theorem verifiesUnder_of_pin {d : PinFile} {a : Acceptance} (hPin : pinForThisCloud env s = some d)
    (hAccept : (verifyCommand env call s).1 = some a) : VerifiesUnder env d a := by
  obtain ⟨jwk, s', hPin', hUrl, _, hSlice, _, hAllows, hx, _, _, hVerify, _⟩ :=
    verifyCommand_some hAccept
  unfold pinAllows at hAllows
  rw [pinForThisCloud_congr hPin' hUrl, hPin, hx] at hAllows
  cases hKid : a.kid with
  | str kid =>
      rw [hKid] at hAllows
      exact ⟨kid, hKid, Json.fieldEq_str.mp hAllows, hVerify⟩
  | arr values =>
      rw [hKid] at hAllows
      cases hAllows
  | _ =>
      rw [hKid] at hSlice
      cases hSlice

/-- A key whose `kid` is a text is pinned under it. -/
theorem okpKey_of_str {jwk : Fields} {kid x : String}
    (hKid : Json.fieldEq (Json.get? jwk "kid") (some (.str kid)) = true)
    (hx : Json.get? jwk "x" = some (.str x))
    (hKty : Json.fieldEq (Json.get? jwk "kty") (some (.str "OKP")) = true)
    (hCrv : Json.fieldEq (Json.get? jwk "crv") (some (.str "Ed25519")) = true) :
    okpKey jwk = some (kid, .str x) := by
  unfold okpKey
  rw [hKty, hCrv, Json.fieldEq_str.mp hKid, hx]
  rfl

/-- A key whose `kid` is a list is not pinned. -/
theorem okpKey_of_arr {jwk : Fields} {values : List Json}
    (hKid : Json.fieldEq (Json.get? jwk "kid") (some (.arr values)) = true) :
    okpKey jwk = none := by
  unfold okpKey
  split
  · split
    case h_1 kid x hStr _ =>
      rw [hStr] at hKid
      simp [Json.fieldEq, Json.pyEq, Json.numberText] at hKid
    case h_2 => rfl
  · rfl

/-- Without a pin, what an accepted command leaves behind depends on whether
its `kid` is a text. -/
theorem verifyCommand_pins {a : Acceptance} (hNone : pinForThisCloud env s = none)
    (hAccept : (verifyCommand env call s).1 = some a) :
    (∃ kid, a.kid = .str kid ∧ (verifyCommand env call s).2.jwksUrl = s.jwksUrl ∧
        (verifyCommand env call s).2.pin =
          some ⟨some (.str (cloudHost env s.jwksUrl)), [(kid, .str a.x)]⟩) ∨
      (∃ values, a.kid = .arr values) ∧
        pinForThisCloud env (verifyCommand env call s).2 = none := by
  obtain ⟨jwk, s', hPin, hUrl, _, hSlice, hKid, _, hx, hKty, hCrv, _, hState⟩ :=
    verifyCommand_some hAccept
  have hNone' : pinForThisCloud env s' = none := (pinForThisCloud_congr hPin hUrl).trans hNone
  unfold pinAfterVerified at hState
  rw [hNone'] at hState
  dsimp only at hState
  cases hText : a.kid with
  | str kid =>
      rw [hText] at hKid
      rw [okpKey_of_str hKid hx hKty hCrv] at hState
      dsimp only at hState
      refine Or.inl ⟨kid, rfl, ?_, ?_⟩
      · rw [hState]
        exact hUrl
      · rw [hState, ← hUrl]
        rfl
  | arr values =>
      rw [hText] at hKid
      rw [okpKey_of_arr hKid] at hState
      dsimp only at hState
      refine Or.inr ⟨⟨values, rfl⟩, ?_⟩
      rw [hState]
      exact hNone'
  | _ =>
      rw [hText] at hSlice
      cases hSlice

end Accepted

section Later

variable {env : CommandVerifyEnv} {host : String} {d : PinFile}

/-- The pin of this cloud is in place, and all that was accepted verifies under
it. -/
structure Pinned (env : CommandVerifyEnv) (host : String) (d : PinFile) (w : PinWorld) : Prop where
  pin : w.state.pin = some d
  cloud : cloudHost env w.state.jwksUrl = host
  accepted : ∀ b ∈ w.accepted, VerifiesUnder env d b

theorem Pinned.pinForThisCloud {w : PinWorld} (h : Pinned env host d w)
    (hHost : d.host = some (.str host)) : pinForThisCloud env w.state = some d := by
  have hSame := Json.fieldEq_str.mpr (rfl : some (Json.str host) = _)
  unfold Cloud.pinForThisCloud
  simp [h.pin, h.cloud, hHost, hSame]

theorem Pinned.step {w : PinWorld} (h : Pinned env host d w) (hHost : d.host = some (.str host))
    {event : PinEvent} (hLeaves : LeavesPin env host event) :
    Pinned env host d (pinStep env w event) := by
  have hPin := h.pinForThisCloud hHost
  cases event with
  | verify call =>
      obtain ⟨hSame, hUrl⟩ := verifyCommand_frame call hPin
      refine ⟨hSame.trans h.pin, ?_, ?_⟩
      · simp only [pinStep]
        rw [hUrl]
        exact h.cloud
      · intro b hb
        rcases List.mem_append.mp hb with hNew | hOld
        · exact verifiesUnder_of_pin hPin (Option.mem_toList.mp hNew)
        · exact h.accepted b hOld
  | pinCurrentKeys force net =>
      have hNo : force = false := hLeaves
      subst hNo
      have hSame : pinCurrentKeys env false net w.state = w.state := by
        unfold Cloud.pinCurrentKeys
        simp [hPin]
      simp only [pinStep, hSame]
      exact h
  | clearPin => exact absurd hLeaves id
  | configure jwksUrl => exact ⟨h.pin, hLeaves, h.accepted⟩
  | fetch net jwksUrl force => exact ⟨h.pin, h.cloud, h.accepted⟩
  | restart => exact ⟨h.pin, h.cloud, h.accepted⟩

theorem Pinned.run {w : PinWorld} (h : Pinned env host d w) (hHost : d.host = some (.str host))
    {events : List PinEvent} (hLeaves : ∀ e ∈ events, LeavesPin env host e) :
    Pinned env host d (run (pinStep env) w events) := by
  induction events generalizing w with
  | nil => exact h
  | cons event events ih =>
      apply ih (h.step hHost (hLeaves event List.mem_cons_self))
      exact fun e he => hLeaves e (List.mem_cons_of_mem event he)

/-- While there is a pin for this cloud, every accepted command verifies under
the key that the pin has for its `kid`. Without one, an accepted command leaves
a pin for exactly its own key, that binds every later command until the pin is
cleared, forced anew or left behind with its cloud, if and only if its
`signing_kid` is a text. -/
theorem signing_pin_enforced (env : CommandVerifyEnv) (call : VerifyCommand) (s : PinState)
    (a : Acceptance) (hAccept : (verifyCommand env call s).1 = some a) :
    (∀ d, pinForThisCloud env s = some d → VerifiesUnder env d a) ∧
      (pinForThisCloud env s = none →
        (PinsExactly env call s a ↔
          ∃ kid, Json.get? call.cmd "signing_kid" = some (.str kid))) := by
  refine ⟨fun d hPin => verifiesUnder_of_pin hPin hAccept, fun hNone => ?_⟩
  obtain ⟨_, _, _, _, hKid, _⟩ := verifyCommand_some hAccept
  rw [hKid]
  rcases verifyCommand_pins hNone hAccept with ⟨kid, hText, hUrl, hPin⟩ | ⟨⟨values, hList⟩, hLeft⟩
  · refine ⟨fun _ => ⟨kid, by rw [hText]⟩, fun _ => ?_⟩
    have hPinned : Pinned env (cloudHost env s.jwksUrl)
        ⟨some (.str (cloudHost env s.jwksUrl)), [(kid, .str a.x)]⟩
        ⟨(verifyCommand env call s).2, []⟩ :=
      ⟨hPin, by rw [hUrl], nofun⟩
    refine ⟨_, hPinned.pinForThisCloud rfl, by rw [hText]; rfl, ?_⟩
    intro events hLeaves
    exact (hPinned.run rfl hLeaves).accepted
  · constructor
    · rintro ⟨d, hSome, _⟩
      rw [hLeft] at hSome
      cases hSome
    · rintro ⟨kid, hStr⟩
      rw [hList] at hStr
      cases hStr

/-- An appliance paired with one cloud. A signature is written as the key that
made it. -/
def pairedEnv : CommandVerifyEnv where
  web := { defaultEnv with urlsplit := fun _ => some ⟨"https", some "cloud.example", none, none, false⟩ }
  joinUrl := fun _ _ => none
  b64urlDecode := some
  loads := fun _ => none
  verifyKey := fun _ => true
  ed25519 := fun x _ signature => x == signature
  fromIsoformat := fun _ => some ⟨1000, true⟩
  intOf := fun _ => none
  strOf := fun _ => "n"
  dumpSigned := fun _ => "\x7b\x7d"

/-- Paired before pins existed. -/
def pairedState : PinState where
  jwks := .initial
  jwksUrl := some "https://cloud.example/oidc/jwks"
  pin := none
  lastForcedRefresh := none

/-- A command signed by the key `x`, while the JWKS holds that key under `kid`. -/
def commandSignedBy (kid : Json) (x : String) (monotonic : ℚ) : VerifyCommand :=
  let jwk := Json.obj [("kid", kid), ("kty", .str "OKP"), ("crv", .str "Ed25519"), ("x", .str x)]
  let net : NetworkUse :=
    { started := 1000
      ended := 1000
      replies := fun _ _ => .response 200 none (some (.obj [("keys", .arr [jwk])]))
      written := true }
  { cmd := [("id", .int 7), ("kind", .str "backup_now"), ("signature_b64", .str x),
      ("signing_kid", kid), ("nonce", .str "n"), ("queued_at", .str "1970-01-01T00:16:40")]
    applianceId := 1
    now := 1000
    monotonic := monotonic
    spent := false
    first := net
    second := net }

theorem signing_pin_enforced_text_kid :
    ∃ a, (verifyCommand pairedEnv (commandSignedBy (.str "k1") "xa" 0) pairedState).1 = some a ∧
      PinsExactly pairedEnv (commandSignedBy (.str "k1") "xa" 0) pairedState a := by
  have hSome : (verifyCommand pairedEnv (commandSignedBy (.str "k1") "xa" 0) pairedState).1.isSome =
      true := by decide +kernel
  obtain ⟨a, ha⟩ := Option.isSome_iff_exists.mp hSome
  have hEnforced := signing_pin_enforced pairedEnv _ pairedState a ha
  exact ⟨a, ha, (hEnforced.2 rfl).mpr ⟨"k1", rfl⟩⟩

/-- A command whose `signing_kid` is a list is accepted and leaves no pin, so
that the next one is accepted under another key. -/
theorem list_kid_leaves_no_pin :
    (∃ a, (verifyCommand pairedEnv (commandSignedBy (.arr [.str "k1"]) "xa" 0) pairedState).1 =
        some a ∧
      ¬ PinsExactly pairedEnv (commandSignedBy (.arr [.str "k1"]) "xa" 0) pairedState a) ∧
    (run (pinStep pairedEnv) ⟨pairedState, []⟩
      [.verify (commandSignedBy (.arr [.str "k1"]) "xa" 0),
        .verify (commandSignedBy (.arr [.str "k2"]) "xb" 100)]).accepted.map Acceptance.x =
      ["xb", "xa"] := by
  refine ⟨?_, by decide +kernel⟩
  have hSome : (verifyCommand pairedEnv (commandSignedBy (.arr [.str "k1"]) "xa" 0)
      pairedState).1.isSome = true := by decide +kernel
  have hNone : (pinForThisCloud pairedEnv (verifyCommand pairedEnv
      (commandSignedBy (.arr [.str "k1"]) "xa" 0) pairedState).2).isNone = true := by decide +kernel
  obtain ⟨a, ha⟩ := Option.isSome_iff_exists.mp hSome
  refine ⟨a, ha, ?_⟩
  rintro ⟨d, hPin, _⟩
  rw [hPin] at hNone
  cases hNone

end Later

end WattPost.Cloud
