import WattPost.Auth.WebAuth
import WattPost.Cloud.Json

/-! The cloud's published keys as the appliance gets and uses them: fetched over
the network, cached in memory and on disk, and looked up by `kid` to verify a
JWT. Each set of keys carries the host that it was obtained from; the code does
not look at it. -/
namespace WattPost.Auth

open Cloud

section Environment

/-- The libraries: `httpx.URL(url).join` (nothing where it raises), base64url
decoding, `json.loads` of decoded bytes, whether a decoded `x` makes a
`VerifyKey`, and Ed25519 as a fixed predicate on `x`, message and signature. -/
structure JwksEnv where
  web : WebEnv
  joinUrl : String → String → Option String
  b64urlDecode : String → Option String
  loads : String → Option Json
  verifyKey : String → Bool
  ed25519 : (x message signature : String) → Bool

/-- What a GET comes to. Without a body that parses, `r.json()` raises. -/
inductive HttpReply where
  | raised
  | response (status : Nat) (location : Option String) (body : Option Json)

/-- One use of the network: when it starts and ends, what each hop answers, and
whether the disk takes the file afterwards. -/
structure NetworkUse where
  started : ℚ
  ended : ℚ
  replies : Nat → String → HttpReply
  written : Bool

/-- `_CachedJwks`, with the host that the keys are from. -/
structure CachedJwks where
  fetchedAt : ℚ
  keys : List Json
  host : Option String

/-- The file `cloud_jwks.json`, with the host that its keys are from. -/
structure DiskJwks where
  keys : List Json
  host : Option String

/-- The caches, and every key that was ever obtained with the host that sent
it. -/
structure JwksState where
  cache : Option CachedJwks
  disk : Option DiskJwks
  obtained : List (Option String × Json)

def JwksState.initial : JwksState where
  cache := none
  disk := none
  obtained := []

end Environment

section Fetch

variable (env : JwksEnv)

/-- `JWKS_TTL_SECONDS`. -/
def jwksTtlSeconds : ℚ := 60 * 60 * 24

/-- `MAX_JWKS_REDIRECTS`. -/
def maxJwksRedirects : Nat := 3

/-- `scheme_ok`. -/
def schemeOk (url : String) : Bool :=
  match env.web.urlsplit (PyText.strip url) with
  | none => false
  | some u =>
      let host := hostOf env.web url
      host.isSome && (u.scheme == "https" || (u.scheme == "http" && isLoopbackHost host))

/-- `_get_same_host` from its `hop`th request on: the URL that answered, with
its status and body. -/
def getSameHost (origin : Option String) (replies : Nat → String → HttpReply) :
    Nat → Nat → String → Option (String × Nat × Option Json)
  | 0, _, _ => none
  | fuel + 1, hop, url =>
      match replies hop url with
      | .raised => none
      | .response status location body =>
          if ¬ (300 ≤ status ∧ status < 400) then some (url, status, body)
          else if location.getD "" = "" then some (url, status, body)
          else
            match env.joinUrl url (location.getD "") with
            | none => none
            | some next =>
                if hostOf env.web next != origin || !schemeOk env next then none
                else getSameHost origin replies fuel (hop + 1) next

/-- `raise_for_status`, and `keys` of the body: a list, or nothing that stands
for one. -/
def responseKeys (status : Nat) (body : Option Json) : Option (List Json) :=
  if 200 ≤ status ∧ status < 300 then
    match body with
    | some (.obj fields) =>
        let keys := Json.get? fields "keys"
        if Json.truthy keys then
          match keys with
          | some (.arr values) => some values
          | _ => none
        else some []
    | _ => none
  else none

/-- What a fetch over the network brings: the keys and the host that sent them. -/
def download (net : NetworkUse) (jwksUrl : String) : Option (List Json × Option String) :=
  match getSameHost env (hostOf env.web jwksUrl) net.replies (maxJwksRedirects + 1) 0 jwksUrl with
  | none => none
  | some (url, status, body) =>
      (responseKeys status body).map fun keys => (keys, hostOf env.web url)

def isObject : Json → Bool
  | .obj _ => true
  | _ => false

/-- `_disk_load_jwks`. -/
def diskLoadJwks (disk : Option DiskJwks) : Option (List Json) :=
  match disk with
  | some file => if file.keys.all isObject then some file.keys else none
  | none => none

/-- The cache in memory, if it may be used: no forced fetch, and not too old. -/
def freshCache (now : ℚ) (force : Bool) (s : JwksState) : Option CachedJwks :=
  if force then none else s.cache.filter fun c => decide (now - c.fetchedAt < jwksTtlSeconds)

/-- `fetch_jwks`. -/
def fetchJwks (net : NetworkUse) (jwksUrl : String) (force : Bool) (s : JwksState) :
    List Json × JwksState :=
  match freshCache net.started force s with
  | some cache => (cache.keys, s)
  | none =>
      match download env net jwksUrl with
      | none => ((diskLoadJwks s.disk).getD [], s)
      | some (keys, host) =>
          (keys,
            { cache := some ⟨net.ended, keys, host⟩
              disk := if net.written then some ⟨keys, host⟩ else s.disk
              obtained := keys.map (fun key => (host, key)) ++ s.obtained })

end Fetch

section Verify

variable (env : JwksEnv)

/-- The text of `x`, if the JWK makes an Ed25519 key: `_verify_key_from_jwk`. -/
def verifyKeyFromJwk (jwk : Fields) : Option String :=
  if Json.fieldEq (Json.get? jwk "kty") (some (.str "OKP")) &&
      Json.fieldEq (Json.get? jwk "crv") (some (.str "Ed25519")) then
    match Json.get? jwk "x" with
    | some (.str x) => if x != "" && env.verifyKey x then some x else none
    | _ => none
  else none

/-- `next((k for k in keys if k.get("kid") == kid), None)`. A member that is no
object raises when the search reaches it. -/
def findKid (kid : Option Json) : List Json → Except Unit (Option Fields)
  | [] => .ok none
  | .obj jwk :: keys =>
      if Json.fieldEq (Json.get? jwk "kid") kid then .ok (some jwk) else findKid kid keys
  | _ :: _ => .error ()

/-- The parts of a compact JWT. -/
structure Jwt where
  header : Fields
  claims : Json
  signature : String
  signingInput : String

/-- A token's three segments. Whatever does not decode raises, and so does
`header.get` where the header is no object. -/
def parseJwt (token : String) : Option Jwt :=
  match PyText.split token '.' with
  | [h, p, s] =>
      match (env.b64urlDecode h).bind env.loads, (env.b64urlDecode p).bind env.loads,
        env.b64urlDecode s with
      | some (.obj header), some claims, some signature =>
          some ⟨header, claims, signature, h ++ "." ++ p⟩
      | _, _, _ => none
  | _ => none

/-- `exp`, `nbf`, `iss` and `aud`. -/
def claimsOk (claims : Fields) (expectedIss expectedAud : Option String) (leeway now : Int) :
    Bool :=
  (Json.intValue (Json.get? claims "exp")).any (fun exp => decide (now ≤ exp + leeway)) &&
    (Json.intValue (Json.get? claims "nbf")).all (fun nbf => decide (nbf - leeway ≤ now)) &&
    expectedIss.all (fun iss => Json.fieldEq (Json.get? claims "iss") (some (.str iss))) &&
    expectedAud.all (fun aud => Json.fieldEq (Json.get? claims "aud") (some (.str aud)))

/-- A call of `verify_jwt`: its arguments, its two uses of the network (the
second one for an unknown `kid`) and the time it ends. -/
structure VerifyJwt where
  token : String
  jwksUrl : String
  expectedIss : Option String
  expectedAud : Option String
  leeway : Int
  first : NetworkUse
  second : NetworkUse
  now : ℚ

/-- The key that a call uses: looked up by `kid`, with one forced refresh. -/
def lookupKid (first second : NetworkUse) (jwksUrl : String) (kid : Option Json) (s : JwksState) :
    Option Fields × JwksState :=
  let (keys, s) := fetchJwks env first jwksUrl false s
  match findKid kid keys with
  | .error _ => (none, s)
  | .ok (some jwk) => (some jwk, s)
  | .ok none =>
      let (keys, s) := fetchJwks env second jwksUrl true s
      match findKid kid keys with
      | .error _ => (none, s)
      | .ok found => (found, s)

/-- The checks of `verify_jwt` once it has the key: the shape of the key, the
signature and the claims. -/
def checkJwt (call : VerifyJwt) (jwt : Jwt) (jwk : Fields) : Option Fields :=
  match verifyKeyFromJwk env jwk, jwt.claims with
  | some x, .obj claims =>
      if env.ed25519 x jwt.signingInput jwt.signature &&
          claimsOk claims call.expectedIss call.expectedAud call.leeway (Int.floor call.now) then
        some claims
      else none
  | _, _ => none

/-- `verify_jwt`: the claims and the key that verified them, or nothing where it
raises. -/
def verifyJwt (call : VerifyJwt) (s : JwksState) : Option (Fields × Fields) × JwksState :=
  match parseJwt env call.token with
  | none => (none, s)
  | some jwt =>
      let kid := Json.get? jwt.header "kid"
      if !Json.fieldEq (Json.get? jwt.header "alg") (some (.str "EdDSA")) || !Json.truthy kid then
        (none, s)
      else
        let (found, s) := lookupKid env call.first call.second call.jwksUrl kid s
        match found with
        | none => (none, s)
        | some jwk => ((checkJwt env call jwt jwk).map fun claims => (claims, jwk), s)

end Verify

end WattPost.Auth
