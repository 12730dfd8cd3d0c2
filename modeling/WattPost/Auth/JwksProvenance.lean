import WattPost.Auth.Jwks
import WattPost.Lib.Runs

/-! Where the keys come from that verify a token. The caches outlive a change of
cloud and carry no host, so a call for one cloud may read the keys of another. -/
namespace WattPost.Auth

open Cloud Runs

section Histories

/-- A token that `verify_jwt` accepted: the call and the key it used. -/
structure AcceptedJwt where
  call : VerifyJwt
  jwk : Fields

structure JwksWorld where
  jwks : JwksState
  accepted : List AcceptedJwt

/-- What can happen: a call of `verify_jwt`, a fetch by another caller (commands
and the pin), a restart. The URL of a call is that of the configuration at the
time. -/
inductive JwksEvent where
  | verify (call : VerifyJwt)
  | fetch (net : NetworkUse) (jwksUrl : String) (force : Bool)
  | restart

def jwksStep (env : JwksEnv) (w : JwksWorld) : JwksEvent → JwksWorld
  | .verify call =>
      let (result, jwks) := verifyJwt env call w.jwks
      match result with
      | some (_, jwk) => { jwks := jwks, accepted := ⟨call, jwk⟩ :: w.accepted }
      | none => { w with jwks := jwks }
  | .fetch net jwksUrl force => { w with jwks := (fetchJwks env net jwksUrl force w.jwks).2 }
  | .restart => { w with jwks := { w.jwks with cache := none } }

/-- The token is signed under a key that the host of the call's URL sent. -/
def KeyFromHost (env : JwksEnv) (obtained : List (Option String × Json)) (a : AcceptedJwt) :
    Prop :=
  (hostOf env.web a.call.jwksUrl, Json.obj a.jwk) ∈ obtained ∧
    ∃ jwt x, parseJwt env a.call.token = some jwt ∧ verifyKeyFromJwk env a.jwk = some x ∧
      env.ed25519 x jwt.signingInput jwt.signature = true

/-- The cached keys that a fetch would return are from the host of its URL: the
memory cache while it is fresh, the file when the network fails. -/
def FetchMeets (env : JwksEnv) (net : NetworkUse) (jwksUrl : String) (force : Bool)
    (s : JwksState) : Prop :=
  match freshCache net.started force s with
  | some cache => cache.host = hostOf env.web jwksUrl
  | none => download env net jwksUrl = none →
      ∀ file, s.disk = some file → file.host = hostOf env.web jwksUrl

/-- Both fetches of a call, the second one only for an unknown `kid`. -/
def CallMeets (env : JwksEnv) (call : VerifyJwt) (s : JwksState) : Prop :=
  ∀ jwt, parseJwt env call.token = some jwt →
    FetchMeets env call.first call.jwksUrl false s ∧
      (findKid (Json.get? jwt.header "kid") (fetchJwks env call.first call.jwksUrl false s).1 =
          .ok none →
        FetchMeets env call.second call.jwksUrl true
          (fetchJwks env call.first call.jwksUrl false s).2)

/-- Every call of `verify_jwt` finds caches of its own cloud where it reads them. -/
def OwnCaches (env : JwksEnv) (_before : List JwksEvent) (w : JwksWorld) : JwksEvent → Prop
  | .verify call => CallMeets env call w.jwks
  | _ => True

end Histories

section Redirects

variable {env : JwksEnv}

/-- However it is redirected, the answer is from the host of the URL. -/
theorem getSameHost_host {origin : Option String} {replies : Nat → String → HttpReply}
    {fuel hop : Nat} {url : String} {answer : String × Nat × Option Json}
    (hUrl : hostOf env.web url = origin)
    (h : getSameHost env origin replies fuel hop url = some answer) :
    hostOf env.web answer.1 = origin := by
  induction fuel generalizing hop url with
  | zero => cases h
  | succ fuel ih =>
      unfold getSameHost at h
      split at h
      · cases h
      · split at h
        · cases h
          exact hUrl
        · split at h
          · cases h
            exact hUrl
          · split at h
            · cases h
            · split at h
              · cases h
              case isFalse hSame =>
                refine ih ?_ h
                simp only [Bool.or_eq_true, bne_iff_ne, not_or, not_not] at hSame
                exact hSame.1

theorem download_host {net : NetworkUse} {jwksUrl : String} {keys : List Json}
    {host : Option String} (h : download env net jwksUrl = some (keys, host)) :
    host = hostOf env.web jwksUrl := by
  unfold download at h
  split at h
  · cases h
  case h_2 url status body hGet =>
    obtain ⟨keys', _, hEq⟩ := Option.map_eq_some_iff.mp h
    have hHost := getSameHost_host rfl hGet
    rw [← (Prod.mk.inj hEq).2, hHost]

end Redirects

section Provenance

variable {env : JwksEnv} {s : JwksState}

/-- The keys in the caches were obtained from the hosts that they are marked
with. -/
structure MarkedKeys (s : JwksState) : Prop where
  cache : ∀ c, s.cache = some c → ∀ key ∈ c.keys, (c.host, key) ∈ s.obtained
  disk : ∀ f, s.disk = some f → ∀ key ∈ f.keys, (f.host, key) ∈ s.obtained

/-- What a fetch can do: return a fresh cache, fall back on the file, or bring
the keys of the URL's host and keep them. -/
theorem fetchJwks_cases (env : JwksEnv) (net : NetworkUse) (jwksUrl : String) (force : Bool)
    (s : JwksState) :
    (∃ c, s.cache = some c ∧ (FetchMeets env net jwksUrl force s → c.host = hostOf env.web jwksUrl) ∧
        fetchJwks env net jwksUrl force s = (c.keys, s)) ∨
      ((FetchMeets env net jwksUrl force s →
          ∀ file, s.disk = some file → file.host = hostOf env.web jwksUrl) ∧
        fetchJwks env net jwksUrl force s = ((diskLoadJwks s.disk).getD [], s)) ∨
      ∃ keys, fetchJwks env net jwksUrl force s =
        (keys,
          { cache := some ⟨net.ended, keys, hostOf env.web jwksUrl⟩
            disk := if net.written then some ⟨keys, hostOf env.web jwksUrl⟩ else s.disk
            obtained := keys.map (fun key => (hostOf env.web jwksUrl, key)) ++ s.obtained }) := by
  unfold fetchJwks FetchMeets
  cases hFresh : freshCache net.started force s with
  | some c =>
      refine Or.inl ⟨c, ?_, id, rfl⟩
      unfold freshCache at hFresh
      split at hFresh
      · cases hFresh
      · exact (Option.filter_eq_some_iff.mp hFresh).1
  | none =>
      cases hDownload : download env net jwksUrl with
      | none => exact Or.inr (Or.inl ⟨fun hMeets => hMeets rfl, rfl⟩)
      | some result =>
          obtain ⟨keys, host⟩ := result
          obtain rfl := download_host hDownload
          exact Or.inr (Or.inr ⟨keys, rfl⟩)

theorem fetchJwks_obtained (net : NetworkUse) (jwksUrl : String) (force : Bool)
    {entry : Option String × Json} (h : entry ∈ s.obtained) :
    entry ∈ (fetchJwks env net jwksUrl force s).2.obtained := by
  rcases fetchJwks_cases env net jwksUrl force s with ⟨c, _, _, hEq⟩ | ⟨_, hEq⟩ | ⟨keys, hEq⟩
  · rw [hEq]
    exact h
  · rw [hEq]
    exact h
  · rw [hEq]
    exact List.mem_append_right _ h

theorem MarkedKeys.fetchJwks (h : MarkedKeys s) (net : NetworkUse) (jwksUrl : String)
    (force : Bool) : MarkedKeys (fetchJwks env net jwksUrl force s).2 := by
  rcases fetchJwks_cases env net jwksUrl force s with ⟨c, _, _, hEq⟩ | ⟨_, hEq⟩ | ⟨keys, hEq⟩
  · rw [hEq]
    exact h
  · rw [hEq]
    exact h
  · rw [hEq]
    have hNew : ∀ key ∈ keys, (hostOf env.web jwksUrl, key) ∈
        keys.map (fun key => (hostOf env.web jwksUrl, key)) ++ s.obtained := fun key hKey =>
      List.mem_append_left _ (List.mem_map.mpr ⟨key, hKey, rfl⟩)
    constructor
    · intro c hc
      cases hc
      exact hNew
    · intro f hf
      dsimp only at hf
      split at hf
      · cases hf
        exact hNew
      · exact fun key hKey => List.mem_append_right _ (h.disk f hf key hKey)

/-- Where the condition holds, the keys that a fetch returns are from the host
of its URL. -/
theorem fetchJwks_keys (h : MarkedKeys s) {net : NetworkUse} {jwksUrl : String} {force : Bool}
    (hMeets : FetchMeets env net jwksUrl force s) :
    ∀ key ∈ (fetchJwks env net jwksUrl force s).1,
      (hostOf env.web jwksUrl, key) ∈ (fetchJwks env net jwksUrl force s).2.obtained := by
  rcases fetchJwks_cases env net jwksUrl force s with ⟨c, hc, hHost, hEq⟩ | ⟨hHost, hEq⟩ | ⟨keys, hEq⟩
  · rw [hEq]
    intro key hKey
    rw [← hHost hMeets]
    exact h.cache c hc key hKey
  · rw [hEq]
    intro key hKey
    cases hDisk : s.disk with
    | none => simp [diskLoadJwks, hDisk] at hKey
    | some file =>
        rw [← hHost hMeets file hDisk]
        refine h.disk file hDisk key ?_
        simp only [diskLoadJwks, hDisk] at hKey
        split at hKey
        · exact hKey
        · simp at hKey
  · rw [hEq]
    exact fun key hKey => List.mem_append_left _ (List.mem_map.mpr ⟨key, hKey, rfl⟩)

theorem findKid_mem {kid : Option Json} {keys : List Json} {jwk : Fields}
    (h : findKid kid keys = .ok (some jwk)) : Json.obj jwk ∈ keys := by
  induction keys with
  | nil => cases h
  | cons key keys ih =>
      cases key with
      | obj fields =>
          simp only [findKid] at h
          split at h
          · cases h
            exact List.mem_cons_self
          · exact List.mem_cons_of_mem _ (ih h)
      | _ => cases h

/-- A call's key was obtained from the host of its URL, where the caches that
it reads are its own. -/
theorem lookupKid_obtained (h : MarkedKeys s) {first second : NetworkUse} {jwksUrl : String}
    {kid : Option Json} {jwk : Fields}
    (hFirst : FetchMeets env first jwksUrl false s)
    (hSecond : findKid kid (fetchJwks env first jwksUrl false s).1 = .ok none →
      FetchMeets env second jwksUrl true (fetchJwks env first jwksUrl false s).2)
    (hFound : (lookupKid env first second jwksUrl kid s).1 = some jwk) :
    (hostOf env.web jwksUrl, Json.obj jwk) ∈
      (lookupKid env first second jwksUrl kid s).2.obtained := by
  unfold lookupKid at hFound ⊢
  dsimp only at hFound ⊢
  cases hKid : findKid kid (fetchJwks env first jwksUrl false s).1 with
  | error e =>
      rw [hKid] at hFound
      cases hFound
  | ok found =>
      cases found with
      | some jwk' =>
          simp only [hKid] at hFound ⊢
          cases hFound
          exact fetchJwks_keys h hFirst _ (findKid_mem hKid)
      | none =>
          simp only [hKid] at hFound ⊢
          have hMarked : MarkedKeys (fetchJwks env first jwksUrl false s).2 :=
            h.fetchJwks first jwksUrl false
          cases hAgain : findKid kid
              (fetchJwks env second jwksUrl true (fetchJwks env first jwksUrl false s).2).1 with
          | error e =>
              rw [hAgain] at hFound
              cases hFound
          | ok found =>
              simp only [hAgain] at hFound ⊢
              subst hFound
              exact fetchJwks_keys hMarked (hSecond hKid) _ (findKid_mem hAgain)

/-- The caches after a lookup are those after one fetch or after two. -/
theorem lookupKid_state (env : JwksEnv) (first second : NetworkUse) (jwksUrl : String)
    (kid : Option Json) (s : JwksState) :
    (lookupKid env first second jwksUrl kid s).2 = (fetchJwks env first jwksUrl false s).2 ∨
      (lookupKid env first second jwksUrl kid s).2 =
        (fetchJwks env second jwksUrl true (fetchJwks env first jwksUrl false s).2).2 := by
  unfold lookupKid
  dsimp only
  split
  · exact Or.inl rfl
  · exact Or.inl rfl
  · split
    · exact Or.inr rfl
    · exact Or.inr rfl

/-- What an accepted token went through. -/
theorem verifyJwt_some {call : VerifyJwt} {claims jwk : Fields}
    (h : (verifyJwt env call s).1 = some (claims, jwk)) :
    ∃ jwt x, parseJwt env call.token = some jwt ∧
      (lookupKid env call.first call.second call.jwksUrl (Json.get? jwt.header "kid") s).1 =
        some jwk ∧
      (verifyJwt env call s).2 =
        (lookupKid env call.first call.second call.jwksUrl (Json.get? jwt.header "kid") s).2 ∧
      verifyKeyFromJwk env jwk = some x ∧ env.ed25519 x jwt.signingInput jwt.signature = true := by
  unfold verifyJwt at h ⊢
  cases hParse : parseJwt env call.token with
  | none =>
      rw [hParse] at h
      cases h
  | some jwt =>
      simp only [hParse] at h ⊢
      split at h
      · cases h
      case isFalse hHeader =>
        rw [if_neg hHeader]
        cases hFound : (lookupKid env call.first call.second call.jwksUrl
            (Json.get? jwt.header "kid") s).1 with
        | none =>
            rw [hFound] at h
            cases h
        | some jwk' =>
            simp only [hFound] at h ⊢
            obtain ⟨claims', hCheck, hEq⟩ := Option.map_eq_some_iff.mp h
            cases hEq
            unfold checkJwt at hCheck
            split at hCheck
            case h_2 => cases hCheck
            case h_1 x claims'' hKey _ =>
              split at hCheck
              case isFalse => cases hCheck
              case isTrue hOk =>
                simp only [Bool.and_eq_true] at hOk
                exact ⟨jwt, x, rfl, hFound, rfl, hKey, hOk.1⟩

/-- The caches after a call: untouched, or those after its lookup. -/
theorem verifyJwt_state (env : JwksEnv) (call : VerifyJwt) (s : JwksState) :
    (verifyJwt env call s).2 = s ∨
      ∃ kid, (verifyJwt env call s).2 =
        (lookupKid env call.first call.second call.jwksUrl kid s).2 := by
  unfold verifyJwt
  split
  · exact Or.inl rfl
  case h_2 jwt _ =>
    dsimp only
    split
    · exact Or.inl rfl
    · refine Or.inr ⟨Json.get? jwt.header "kid", ?_⟩
      split <;> rfl

end Provenance

section Runs

variable {env : JwksEnv}

/-- Marked caches, and accepted tokens whose keys are from their own cloud. -/
structure ProvenanceInv (env : JwksEnv) (w : JwksWorld) : Prop where
  marked : MarkedKeys w.jwks
  accepted : ∀ a ∈ w.accepted, KeyFromHost env w.jwks.obtained a

theorem provenanceInv_initial : ProvenanceInv env ⟨.initial, []⟩ :=
  ⟨⟨by simp [JwksState.initial], by simp [JwksState.initial]⟩, by simp⟩

/-- Fetching keeps every fact about keys. -/
theorem ProvenanceInv.fetch {w : JwksWorld} (h : ProvenanceInv env w) (net : NetworkUse)
    (jwksUrl : String) (force : Bool) :
    ProvenanceInv env { w with jwks := (fetchJwks env net jwksUrl force w.jwks).2 } :=
  ⟨h.marked.fetchJwks net jwksUrl force, fun a ha =>
    ⟨fetchJwks_obtained net jwksUrl force (h.accepted a ha).1, (h.accepted a ha).2⟩⟩

theorem ProvenanceInv.verifyJwt {w : JwksWorld} (h : ProvenanceInv env w) (call : VerifyJwt) :
    ProvenanceInv env { w with jwks := (verifyJwt env call w.jwks).2 } := by
  rcases verifyJwt_state env call w.jwks with hSame | ⟨kid, hLookup⟩
  · rw [hSame]
    exact h
  · rw [hLookup]
    have hFirst := h.fetch call.first call.jwksUrl false
    rcases lookupKid_state env call.first call.second call.jwksUrl kid w.jwks with hOne | hTwo
    · rw [hOne]
      exact hFirst
    · rw [hTwo]
      exact hFirst.fetch call.second call.jwksUrl true

theorem ProvenanceInv.step {w : JwksWorld} (h : ProvenanceInv env w) (event : JwksEvent)
    (hOk : OwnCaches env [] w event) : ProvenanceInv env (jwksStep env w event) := by
  cases event with
  | verify call =>
      have hNext := h.verifyJwt call
      simp only [jwksStep]
      split
      case h_2 => exact hNext
      case h_1 claims jwk hResult =>
        refine ⟨hNext.marked, ?_⟩
        intro a ha
        rcases List.mem_cons.mp ha with rfl | hOld
        · obtain ⟨jwt, x, hParse, hFound, hState, hKey, hVerify⟩ := verifyJwt_some hResult
          refine ⟨?_, jwt, x, hParse, hKey, hVerify⟩
          dsimp only
          rw [hState]
          have hMeets := hOk jwt hParse
          exact lookupKid_obtained h.marked hMeets.1 hMeets.2 hFound
        · exact hNext.accepted a hOld
  | fetch net jwksUrl force => exact h.fetch net jwksUrl force
  | restart => exact ⟨⟨nofun, h.marked.disk⟩, h.accepted⟩

/-- Verification keys come from the configured cloud in every history in which
each call of `verify_jwt` that reads a cache finds it filled from the host of
its own URL. -/
theorem accepted_keys_from_host {events : List JwksEvent}
    (hOwn : StepsOk (jwksStep env) (OwnCaches env) ⟨.initial, []⟩ events) :
    ∀ a ∈ (run (jwksStep env) ⟨.initial, []⟩ events).accepted,
      KeyFromHost env (run (jwksStep env) ⟨.initial, []⟩ events).jwks.obtained a := by
  have hInit : ProvenanceInv env (run (jwksStep env) ⟨.initial, []⟩ []) := provenanceInv_initial
  have hStep : ∀ before event, ProvenanceInv env (run (jwksStep env) ⟨.initial, []⟩ before) →
      OwnCaches env before (run (jwksStep env) ⟨.initial, []⟩ before) event →
      ProvenanceInv env (run (jwksStep env) ⟨.initial, []⟩ (before ++ [event])) := by
    intro before event h hOk
    rw [run_concat]
    exact h.step event hOk
  exact (invariant hInit hStep hOwn).accepted

/-- Two clouds, each with a key of its own. A signature is written as the key
that made it. -/
def twoCloudsEnv : JwksEnv where
  web :=
    { defaultEnv with
      urlsplit := fun url =>
        if url = "https://a.example/oidc/jwks" then some ⟨"https", some "a.example", none, none, false⟩
        else if url = "https://b.example/oidc/jwks" then
          some ⟨"https", some "b.example", none, none, false⟩
        else none }
  joinUrl := fun _ _ => none
  b64urlDecode := some
  loads := fun text =>
    if text = "header" then some (.obj [("alg", .str "EdDSA"), ("kid", .str "key-a")])
    else if text = "claims" then some (.obj [("exp", .int 2000000000)])
    else none
  verifyKey := fun _ => true
  ed25519 := fun x _ signature => x == signature

/-- The JWKS of cloud A. -/
def cloudAKeys : Json :=
  .obj [("keys", .arr [.obj [("kid", .str "key-a"), ("kty", .str "OKP"), ("crv", .str "Ed25519"),
    ("x", .str "xa")]])]

/-- Cloud A answers at a given time. -/
def cloudAAnswers (now : ℚ) : NetworkUse where
  started := now
  ended := now
  replies := fun _ _ => .response 200 none (some cloudAKeys)
  written := true

def networkDown (now : ℚ) : NetworkUse where
  started := now
  ended := now
  replies := fun _ _ => .raised
  written := true

/-- A token that cloud A signed, presented to an appliance of a given cloud. -/
def tokenOfA (jwksUrl : String) (net : NetworkUse) : VerifyJwt where
  token := "header.claims.xa"
  jwksUrl := jwksUrl
  expectedIss := none
  expectedAud := none
  leeway := 60
  first := net
  second := net
  now := net.ended

/-- Cloud A's own appliance verifies the token. -/
def ownTokenOfA : List JwksEvent :=
  [.verify (tokenOfA "https://a.example/oidc/jwks" (cloudAAnswers 1000))]

theorem accepted_keys_from_host_own_token :
    (run (jwksStep twoCloudsEnv) ⟨.initial, []⟩ ownTokenOfA).accepted.length = 1 ∧
      ∀ a ∈ (run (jwksStep twoCloudsEnv) ⟨.initial, []⟩ ownTokenOfA).accepted,
        KeyFromHost twoCloudsEnv
          (run (jwksStep twoCloudsEnv) ⟨.initial, []⟩ ownTokenOfA).jwks.obtained a := by
  have hDownload : (download twoCloudsEnv (cloudAAnswers 1000)
      "https://a.example/oidc/jwks").isSome = true := by decide +kernel
  have hMeets : ∀ force s, freshCache (cloudAAnswers 1000).started force s = none →
      FetchMeets twoCloudsEnv (cloudAAnswers 1000) "https://a.example/oidc/jwks" force s := by
    intro force s hStale
    unfold FetchMeets
    rw [hStale]
    intro hNone
    rw [hNone] at hDownload
    cases hDownload
  have hOwn : StepsOk (jwksStep twoCloudsEnv) (OwnCaches twoCloudsEnv) ⟨.initial, []⟩
      ownTokenOfA := by
    have hEmpty : freshCache (cloudAAnswers 1000).started false .initial = none := rfl
    have hCall : CallMeets twoCloudsEnv
        (tokenOfA "https://a.example/oidc/jwks" (cloudAAnswers 1000)) .initial :=
      fun jwt _ => ⟨hMeets false _ hEmpty, fun _ => hMeets true _ (if_pos rfl)⟩
    unfold ownTokenOfA
    rw [stepsOk_cons]
    constructor
    · exact hCall
    · exact stepsOk_nil
  exact ⟨by decide +kernel, accepted_keys_from_host hOwn⟩

/-- The owner pairs with cloud B while the keys of cloud A are cached. A token
of cloud A is accepted for cloud B from memory, and again after a restart, with
the network down, from the file. -/
def repairedToB : List JwksEvent :=
  [.fetch (cloudAAnswers 1000) "https://a.example/oidc/jwks" true,
    .verify (tokenOfA "https://b.example/oidc/jwks" (networkDown 2000)),
    .restart,
    .verify (tokenOfA "https://b.example/oidc/jwks" (networkDown 3000))]

theorem foreign_keys_accepted :
    (run (jwksStep twoCloudsEnv) ⟨.initial, []⟩ repairedToB).accepted.length = 2 ∧
      ∀ a ∈ (run (jwksStep twoCloudsEnv) ⟨.initial, []⟩ repairedToB).accepted,
        ¬ KeyFromHost twoCloudsEnv
          (run (jwksStep twoCloudsEnv) ⟨.initial, []⟩ repairedToB).jwks.obtained a := by
  have hLength : (run (jwksStep twoCloudsEnv) ⟨.initial, []⟩ repairedToB).accepted.length = 2 := by
    decide +kernel
  refine ⟨hLength, ?_⟩
  intro a ha hFrom
  have hUrls : (run (jwksStep twoCloudsEnv) ⟨.initial, []⟩ repairedToB).accepted.map
      (fun a => hostOf twoCloudsEnv.web a.call.jwksUrl) = [some "b.example", some "b.example"] := by
    decide +kernel
  have hHosts : (run (jwksStep twoCloudsEnv) ⟨.initial, []⟩ repairedToB).jwks.obtained.map
      Prod.fst = [some "a.example"] := by decide +kernel
  have hHost : hostOf twoCloudsEnv.web a.call.jwksUrl ∈ [some "b.example", some "b.example"] := by
    rw [← hUrls]
    exact List.mem_map_of_mem ha
  have hObtained := List.mem_map_of_mem (f := Prod.fst) hFrom.1
  rw [hHosts, List.mem_singleton] at hObtained
  dsimp only at hObtained
  rw [hObtained] at hHost
  simp at hHost

end Runs

end WattPost.Auth
