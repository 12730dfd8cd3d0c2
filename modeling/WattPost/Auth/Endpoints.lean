import WattPost.Auth.Middleware
import WattPost.Lib.Runs

/-! The endpoints that change the login state, and the appliance as a machine
that takes one request or restart after another. Behind the gate an endpoint
may be called in any state: a caller on the box always passes it. -/
namespace WattPost.Auth

open Keyed PyText

section Requests

/-- A value in a JSON request body: a string, or something else and its truth
value. -/
inductive Field where
  | missing
  | text (value : String)
  | other (truthy : Bool)
deriving DecidableEq

/-- `body.get(key) or default`; `none` is a value that is no string. -/
def Field.orElse (default : String) : Field → Option String
  | .missing => some default
  | .text value => some (if value = "" then default else value)
  | .other true => none
  | .other false => some default

/-- The fields of a body that the endpoints read. -/
structure Body where
  password : Field
  next : Field
  token : Field

structure Response where
  status : Nat
  ok : Bool
  detail : Option String := none
  redirect : Option String := none
  retryAfter : Option Int := none
  sessionCookie : Option String := none
deriving DecidableEq

def clientIp (scope : Scope) : String := scope.client.getD "?"

/-- Where to go after a login: a path on the appliance, else `/`. -/
def nextOf (body : Body) : String :=
  match body.next.orElse "/" with
  | some next => if !startsWith next "/" || startsWith next "//" then "/" else next
  | none => "/"

def tooManyAttempts (wait : ℚ) : Response :=
  { status := 429
    ok := false
    detail := some "too many attempts — try again shortly"
    retryAfter := some (⌊wait⌋ + 1) }

def signedIn (body : Body) (token : String) : Response :=
  { status := 200, ok := true, redirect := some (nextOf body), sessionCookie := some token }

/-- The caller is not on the box and has to wait. -/
def throttled (env : WebEnv) (now : ℚ) (scope : Scope) (s : AuthState) : Bool :=
  !isLoopbackSource env scope && decide (0 < loginLockedFor s (clientIp scope) now)

/-- A failure counts against a caller who is not on the box. -/
def countFailure (env : WebEnv) (now : ℚ) (scope : Scope) (s : AuthState) : AuthState :=
  if isLoopbackSource env scope then s else recordLoginFailure (clientIp scope) now s

end Requests

section Endpoints

/-- `do_login`. -/
def doLogin (env : WebEnv) (now : ℚ) (scope : Scope) (body : Body) (token : String)
    (s : AuthState) : Response × AuthState :=
  if throttled env now scope s then (tooManyAttempts (loginLockedFor s (clientIp scope) now), s)
  else if !(body.password.orElse "").any (verifyPassword env s) then
    ({ status := 401, ok := false, detail := some "wrong password" }, countFailure env now scope s)
  else
    let s := if isLoopbackSource env scope then s else recordLoginSuccess (clientIp scope) s
    (signedIn body token, issueSession now token .local (clearFirstRunMarker s))

/-- `first_run_password`. -/
def firstRunPassword (env : WebEnv) (now : ℚ) (scope : Scope) (body : Body) (salt token : String)
    (s : AuthState) : Response × AuthState :=
  if throttled env now scope s then (tooManyAttempts (loginLockedFor s (clientIp scope) now), s)
  else
    let (first, s) := isFirstRun env s
    if !first then
      ({ status := 409
         ok := false
         detail := some "already set up — sign in with your password" },
        countFailure env now scope s)
    else
      match (body.password.orElse "").filter (fun pw => 8 ≤ pw.length) with
      | none =>
          ({ status := 400
             ok := false
             detail := some "password must be at least 8 characters" }, s)
      | some pw =>
          (signedIn body token, issueSession now token .local (setUserWebPassword env salt pw s))

/-- `kiosk_claim`. Hashing a token that is no string raises. -/
def kioskClaim (env : WebEnv) (now : ℚ) (body : Body) (token : String) (s : AuthState) :
    Response × AuthState :=
  match body.token.orElse "" with
  | none => ({ status := 500, ok := false }, s)
  | some tok =>
      if !verifyKioskToken env s tok then
        ({ status := 401, ok := false, detail := some "invalid or revoked kiosk token" }, s)
      else
        ({ status := 200, ok := true, sessionCookie := some token },
          issueSession now token .kiosk s)

/-- The end of `auth_callback`: the checks of the redirect gave an error, or
the page to return to. -/
def authCallback (now : ℚ) (checked : Except Response String) (token : String) (s : AuthState) :
    Response × AuthState :=
  match checked with
  | .error response => (response, s)
  | .ok returnTo =>
      ({ status := 302, ok := true, redirect := some returnTo, sessionCookie := some token },
        issueSession now token .oidc s)

/-- `do_logout`. -/
def doLogout (cookie : Option String) (s : AuthState) : Response × AuthState :=
  ({ status := 200, ok := true }, if truthy cookie then revokeSession (cookie.getD "") s else s)

/-- `login_page`: which page is served. -/
def loginPage (env : WebEnv) (queryString : String) (s : AuthState) : String × AuthState :=
  let (first, s) := isFirstRun env s
  (if first && !contains queryString "signin=1" then "login-setup.html" else "login.html", s)

structure AuthStatus where
  authed : Bool
  origin : Option Origin
  firstRun : Option Bool

/-- `auth_status`. -/
def authStatus (env : WebEnv) (now : ℚ) (cookie : Option String) (s : AuthState) :
    AuthStatus × AuthState :=
  let (record, s) := sessionRecord now cookie s
  match record with
  | some record => (⟨true, some record.origin, none⟩, s)
  | none =>
      let (first, s) := isFirstRun env s
      (⟨false, none, some first⟩, s)

/-- `rotate_web_password`; the new password is random. -/
def rotateWebPassword (env : WebEnv) (salt plaintext : String) (s : AuthState) : AuthState :=
  clearFirstRunMarker (writePasswordHash env salt plaintext s)

structure KioskLink where
  id : String
  name : String
  skin : String
  token : String
  kioskPath : String

def validSkins : List String := ["halo", "ember", "command"]

/-- `kiosk_tokens_create`. -/
def kioskTokensCreate (env : WebEnv) (now : ℚ) (name skin tid plaintext : String) (s : AuthState) :
    Except Response KioskLink × AuthState :=
  let skin := lower (strip skin)
  if skin != "" && !validSkins.contains skin then
    (.error { status := 400
              ok := false
              detail := some "skin must be one of ('halo', 'ember', 'command')" }, s)
  else
    (.ok { id := tid
           name := takeFirst (strip (if name = "" then "Kiosk" else name)) 60
           skin := skin
           token := plaintext
           kioskPath := "/kiosk?token=" ++ plaintext },
      createKioskToken env name skin tid plaintext now s)

/-- `kiosk_tokens_revoke`. -/
def kioskTokensRevoke (tid : String) (s : AuthState) : Response × AuthState :=
  let (found, s) := revokeKioskToken tid s
  if !found then ({ status := 404, ok := false, detail := some "unknown kiosk token" }, s)
  else ({ status := 200, ok := true }, s)

/-- The daemon starts: sessions come back from their file, the backoff is
forgotten, and a password is made if there is none. -/
def restart (env : WebEnv) (now : ℚ) (salt plaintext : String) (s : AuthState) : AuthState :=
  ensureFirstBootPassword env salt plaintext
    { s with
      sessions := loadSessionsFromDisk now s.sessionsFile
      loginFails := .empty }

end Endpoints

section Machine

/-- What can happen to the appliance. Each event carries its time and the
random values that are drawn. -/
inductive Event where
  | request (now : ℚ) (scope : Scope)
  | doLogin (now : ℚ) (scope : Scope) (body : Body) (token : String)
  | firstRunPassword (now : ℚ) (scope : Scope) (body : Body) (salt token : String)
  | kioskClaim (now : ℚ) (body : Body) (token : String)
  | authCallback (now : ℚ) (checked : Except Response String) (token : String)
  | doLogout (cookie : Option String)
  | loginPage (queryString : String)
  | authStatus (now : ℚ) (cookie : Option String)
  | rotateWebPassword (salt plaintext : String)
  | kioskTokensCreate (now : ℚ) (name skin tid plaintext : String)
  | kioskTokensRevoke (tid : String)
  | restart (now : ℚ) (salt plaintext : String)

def step (env : WebEnv) (s : AuthState) : Event → AuthState
  | .request now scope => (localAuth env now scope s).2
  | .doLogin now scope body token => (doLogin env now scope body token s).2
  | .firstRunPassword now scope body salt token =>
      (firstRunPassword env now scope body salt token s).2
  | .kioskClaim now body token => (kioskClaim env now body token s).2
  | .authCallback now checked token => (authCallback now checked token s).2
  | .doLogout cookie => (doLogout cookie s).2
  | .loginPage queryString => (loginPage env queryString s).2
  | .authStatus now cookie => (authStatus env now cookie s).2
  | .rotateWebPassword salt plaintext => rotateWebPassword env salt plaintext s
  | .kioskTokensCreate now name skin tid plaintext =>
      (kioskTokensCreate env now name skin tid plaintext s).2
  | .kioskTokensRevoke tid => (kioskTokensRevoke tid s).2
  | .restart now salt plaintext => restart env now salt plaintext s

end Machine

end WattPost.Auth
