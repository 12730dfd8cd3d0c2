import Mathlib.Data.Rat.Floor
import Mathlib.Data.String.Basic
import WattPost.Lib.PyText
import WattPost.Lib.Table

/-! The local web login: the password file and its first-run marker, sessions
with an origin, kiosk tokens, the login backoff, and which requests count as
made on the box itself. -/
namespace WattPost.Auth

open Keyed PyText

section Environment

/-- argon2. A stored hash verifies the password it was made from and no other. -/
structure PasswordHasher where
  hash : (salt plaintext : String) → String
  verify : (stored plaintext : String) → Bool
  verify_hash : ∀ salt p q, verify (hash salt p) q = true ↔ p = q

/-- What `urllib.parse.urlsplit` reads off a URL. -/
structure SplitResult where
  scheme : String
  hostname : Option String
  username : Option String
  password : Option String
  junkPort : Bool

/-- The settings of the process, and the library functions that it calls.
`urlsplit` is `none` where it raises `ValueError`. -/
structure WebEnv where
  demo : Bool
  publicView : Bool
  trustLoopback : Bool
  hasher : PasswordHasher
  sha256Hex : String → String
  unquote : String → String
  urlsplit : String → Option SplitResult

/-- A hasher that shows the password, to evaluate the model with. -/
def plainHasher : PasswordHasher where
  hash _ plaintext := "$argon2id$" ++ plaintext
  verify stored plaintext := stored == "$argon2id$" ++ plaintext
  verify_hash _ p q := by
    rw [beq_iff_eq, String.ext_iff, String.ext_iff]
    simp

/-- An appliance with the default settings. -/
def defaultEnv : WebEnv where
  demo := false
  publicView := false
  trustLoopback := true
  hasher := plainHasher
  sha256Hex plaintext := "sha256:" ++ plaintext
  unquote := id
  urlsplit _ := none

end Environment

section UrlCheck

/-- Python's truth value of an optional string. -/
def truthy (s : Option String) : Bool := s.getD "" != ""

def loopbackHosts : List String := ["localhost", "127.0.0.1", "::1"]

/-- `host_of`. -/
def hostOf (env : WebEnv) (url : String) : Option String :=
  match env.urlsplit (strip url) with
  | none => none
  | some u =>
      if !(["http", "https"].contains u.scheme) || !truthy u.hostname || truthy u.username ||
          truthy u.password then none
      else if u.junkPort then none
      else u.hostname.map lower

/-- `is_loopback_host`. -/
def isLoopbackHost (host : Option String) : Bool :=
  truthy host && loopbackHosts.contains (lower (host.getD ""))

end UrlCheck

section State

inductive Origin where
  | «local»
  | kiosk
  | oidc
deriving DecidableEq

structure Session where
  issuedAt : ℚ
  origin : Origin
deriving DecidableEq

structure KioskToken where
  id : String
  name : String
  hash : String
  skin : String
  createdAt : ℚ
deriving DecidableEq

/-- A record of `_LOGIN_FAILS`. -/
structure LoginFails where
  n : Nat
  lockedUntil : ℚ
deriving DecidableEq

/-- The files in the password directory, and the memory of the daemon.
`firstRunMarker` is whether `web-password.autogen` exists. -/
structure AuthState where
  passwordHash : Option String
  firstRunMarker : Bool
  sessionsFile : Table String Session
  kioskTokens : List KioskToken
  sessions : Table String Session
  loginFails : Table String LoginFails

/-- An empty password directory. -/
def AuthState.empty : AuthState := ⟨none, false, .empty, [], .empty, .empty⟩

end State

section Password

def passwordIsSet (s : AuthState) : Bool := truthy s.passwordHash

def clearFirstRunMarker (s : AuthState) : AuthState := { s with firstRunMarker := false }

/-- `is_first_run`. A local session found next to the marker clears it. -/
def isFirstRun (env : WebEnv) (s : AuthState) : Bool × AuthState :=
  if env.demo then (false, s)
  else if !s.firstRunMarker then (false, s)
  else if s.sessions.rows.any (fun e => e.2.origin == .local) then
    (false, clearFirstRunMarker s)
  else (true, s)

def writePasswordHash (env : WebEnv) (salt plaintext : String) (s : AuthState) : AuthState :=
  { s with passwordHash := some (env.hasher.hash salt plaintext ++ "\n") }

def setUserWebPassword (env : WebEnv) (salt plaintext : String) (s : AuthState) : AuthState :=
  clearFirstRunMarker (writePasswordHash env salt plaintext s)

def verifyPassword (env : WebEnv) (s : AuthState) (plaintext : String) : Bool :=
  if !passwordIsSet s then false
  else
    let stored := strip (s.passwordHash.getD "")
    if stored = "" then false else env.hasher.verify stored plaintext

/-- `ensure_first_boot_password`, which the daemon calls at startup. -/
def ensureFirstBootPassword (env : WebEnv) (salt plaintext : String) (s : AuthState) :
    AuthState :=
  if env.demo then s
  else if passwordIsSet s then s
  else { writePasswordHash env salt plaintext s with firstRunMarker := true }

end Password

section KioskTokens

def kioskHash (env : WebEnv) (plaintext : String) : String := env.sha256Hex plaintext

/-- `create_kiosk_token`; the identifier and the plaintext are random. -/
def createKioskToken (env : WebEnv) (name skin tid plaintext : String) (now : ℚ) (s : AuthState) :
    AuthState :=
  { s with
    kioskTokens := s.kioskTokens ++
      [{ id := tid
         name := takeFirst (strip (if name = "" then "Kiosk" else name)) 60
         hash := kioskHash env plaintext
         skin := takeFirst (lower (strip skin)) 20
         createdAt := now }] }

/-- `revoke_kiosk_token`: whether there was such a token, and the state. -/
def revokeKioskToken (tid : String) (s : AuthState) : Bool × AuthState :=
  let kept := s.kioskTokens.filter (fun t => t.id != tid)
  if kept.length = s.kioskTokens.length then (false, s)
  else (true, { s with kioskTokens := kept })

def verifyKioskToken (env : WebEnv) (s : AuthState) (plaintext : String) : Bool :=
  if plaintext = "" then false
  else s.kioskTokens.any (fun t => t.hash == kioskHash env plaintext)

end KioskTokens

section Sessions

def sessionCookieName : String := "wp_local_session"

def sessionTtlSeconds : ℚ := 60 * 60 * 24 * 30

def expired (now : ℚ) (record : Session) : Bool := sessionTtlSeconds < now - record.issuedAt

def persistSessionsToDisk (s : AuthState) : AuthState := { s with sessionsFile := s.sessions }

/-- `_gc_sessions`. -/
def gcSessions (now : ℚ) (s : AuthState) : AuthState :=
  let old := (s.sessions.rows.filter (fun e => expired now e.2)).map Prod.fst
  if old.isEmpty then s
  else persistSessionsToDisk { s with sessions := s.sessions.filterKeys (!old.contains ·) }

/-- `issue_session`; the token is random. -/
def issueSession (now : ℚ) (token : String) (origin : Origin) (s : AuthState) : AuthState :=
  let s := gcSessions now s
  persistSessionsToDisk { s with sessions := s.sessions.insert token ⟨now, origin⟩ }

def revokeSession (token : String) (s : AuthState) : AuthState :=
  if (s.sessions.lookup token).isSome then
    persistSessionsToDisk { s with sessions := s.sessions.filterKeys (· != token) }
  else s

/-- `_session_record`: an expired session is dropped when it is looked up. -/
def sessionRecord (now : ℚ) (token : Option String) (s : AuthState) :
    Option Session × AuthState :=
  if !truthy token then (none, s)
  else
    match s.sessions.lookup (token.getD "") with
    | none => (none, s)
    | some record =>
        if expired now record then
          (none, persistSessionsToDisk
            { s with sessions := s.sessions.filterKeys (· != token.getD "") })
        else (some record, s)

def sessionOrigin (now : ℚ) (token : Option String) (s : AuthState) : Option Origin × AuthState :=
  let (record, s) := sessionRecord now token s
  (record.map Session.origin, s)

def isSessionValid (now : ℚ) (token : Option String) (s : AuthState) : Bool × AuthState :=
  let (record, s) := sessionRecord now token s
  (record.isSome, s)

/-- `_load_sessions_from_disk`, at import. -/
def loadSessionsFromDisk (now : ℚ) (file : Table String Session) :
    Table String Session :=
  Table.empty.insertAll (file.rows.filter (fun e => !expired now e.2))

/-- The session that a token stands for at this time. -/
def liveSession (s : AuthState) (now : ℚ) (token : Option String) : Option Session :=
  if !truthy token then none
  else (s.sessions.lookup (token.getD "")).filter (fun record => !expired now record)

@[simp] theorem sessionRecord_fst (now : ℚ) (token : Option String) (s : AuthState) :
    (sessionRecord now token s).1 = liveSession s now token := by
  unfold sessionRecord liveSession
  cases truthy token with
  | false => rfl
  | true =>
      cases s.sessions.lookup (token.getD "") with
      | none => rfl
      | some record => cases hOld : expired now record <;> simp [hOld, Option.filter]

/-- Looking a session up drops only what is dead already. -/
theorem liveSession_sessionRecord (now : ℚ) (token other : Option String) (s : AuthState) :
    liveSession (sessionRecord now token s).2 now other = liveSession s now other := by
  unfold sessionRecord
  cases truthy token with
  | false => rfl
  | true =>
      cases hFound : s.sessions.lookup (token.getD "") with
      | none => rfl
      | some record =>
          cases hOld : expired now record with
          | false => simp [hOld]
          | true =>
              by_cases hSame : other.getD "" = token.getD ""
              · simp [hOld, liveSession, persistSessionsToDisk, hSame, hFound, Option.filter]
              · simp [hOld, liveSession, persistSessionsToDisk, hSame]

theorem liveSession_sessionOrigin (now : ℚ) (token other : Option String) (s : AuthState) :
    liveSession (sessionOrigin now token s).2 now other = liveSession s now other :=
  liveSession_sessionRecord now token other s

@[simp] theorem isSessionValid_fst (now : ℚ) (token : Option String) (s : AuthState) :
    (isSessionValid now token s).1 = (liveSession s now token).isSome := by
  rw [← sessionRecord_fst]
  rfl

end Sessions

section Backoff

def loginFreeAttempts : Nat := 5

def loginBackoffCap : Nat := 300

/-- `login_locked_for`. -/
def loginLockedFor (s : AuthState) (ip : String) (now : ℚ) : ℚ :=
  match s.loginFails.lookup ip with
  | none => 0
  | some record =>
      let rem := record.lockedUntil - now
      if 0 < rem then rem else 0

def recordLoginFailure (ip : String) (now : ℚ) (s : AuthState) : AuthState :=
  let record := (s.loginFails.lookup ip).getD ⟨0, 0⟩
  let n := record.n + 1
  let lockedUntil :=
    if loginFreeAttempts < n then now + min loginBackoffCap (2 ^ (n - loginFreeAttempts))
    else record.lockedUntil
  { s with loginFails := s.loginFails.insert ip ⟨n, lockedUntil⟩ }

def recordLoginSuccess (ip : String) (s : AuthState) : AuthState :=
  { s with loginFails := s.loginFails.filterKeys (· != ip) }

end Backoff

section Source

/-- An ASGI connection scope. Header names and values, and the query string,
are read as latin-1. -/
structure Scope where
  type : String
  client : Option String
  method : String
  path : String
  queryString : String
  headers : List (String × String)

def proxyHeaders : List String :=
  ["via", "forwarded", "x-real-ip", "true-client-ip", "x-original-forwarded-for", "x-client-ip",
    "fastly-client-ip", "x-cluster-client-ip"]

def proxyHeaderPrefixes : List String := ["x-forwarded-", "cf-"]

/-- `_foreign_origin`. -/
def foreignOrigin (env : WebEnv) (value : String) : Bool :=
  let text := strip value
  if text = "" then false else !isLoopbackHost (hostOf env text)

def isProxied (env : WebEnv) (scope : Scope) : Bool :=
  scope.headers.any fun (k, v) =>
    let k := lower k
    proxyHeaders.contains k || startsWithAny k proxyHeaderPrefixes ||
      (["origin", "referer"].contains k && foreignOrigin env v)

def isLoopbackSource (env : WebEnv) (scope : Scope) : Bool :=
  if !env.trustLoopback then false
  else if !truthy scope.client then false
  else if !(["127.0.0.1", "::1", "::ffff:127.0.0.1"].contains (scope.client.getD "")) then false
  else !isProxied env scope

def anonymousPathPrefixes : List String :=
  ["/web/", "/metrics", "/login", "/manifest.webmanifest", "/service-worker.js", "/api/login",
    "/api/setup/first-run-password", "/api/kiosk/claim", "/auth/lan/login", "/auth/callback",
    "/api/system/oidc-available", "/api/system/auth-status", "/generate_204", "/gen_204",
    "/hotspot-detect.html", "/library/test/success.html", "/connecttest.txt", "/ncsi.txt",
    "/canonical.html"]

def isAnonymousPath (path : String) : Bool :=
  anonymousPathPrefixes.any (fun p => path == p || startsWith path p) || path == "/api/heartbeat"

end Source

end WattPost.Auth
