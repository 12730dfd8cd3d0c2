import WattPost.Auth.WebAuth

/-! The gate in front of every handler: `_LocalAuthMiddleware`, and the two
path predicates that it consults. -/
namespace WattPost.Auth

open PyText

section Predicates

def safeMethods : List String := ["GET", "HEAD", "OPTIONS"]

def kioskGetPaths : List String :=
  ["/kiosk", "/api/snapshot", "/api/devices", "/api/poll_run", "/api/today", "/api/energy/today",
    "/api/weather", "/api/kiosk/config", "/api/stream", "/web/", "/static/"]

/-- `kiosk_scope_allows`. -/
def kioskScopeAllows (method path : String) : Bool :=
  if !safeMethods.contains (upper method) then false
  else path == "/kiosk" || kioskGetPaths.any (startsWith path)

def publicViewDenyPrefixes : List String :=
  ["/api/system/", "/api/network", "/api/setup", "/api/cloud", "/api/exporters",
    "/api/forecast/config", "/api/weather/config", "/api/gps/config", "/api/hotspot",
    "/api/location", "/api/mqtt_in", "/api/alerts", "/api/devices/"]

def publicViewSystemAllow : List String :=
  ["/api/system/device-health", "/api/system/host-history", "/api/system/auth-status",
    "/api/system/oidc-available"]

/-- Whether one entry of the deny list refuses the path. Under `/api/devices/`
only the settings of a device are refused. -/
def publicViewDenies (path deny : String) : Bool :=
  if deny == "/api/devices/" then
    startsWith path deny &&
      (endsWith (rstrip path '/') "/settings" || contains path "/settings/")
  else path == rstrip deny '/' || startsWith path deny

/-- `public_view_allows`. -/
def publicViewAllows (method path : String) : Bool :=
  if !safeMethods.contains (upper method) then false
  else
    let p := squeeze (if path = "" then "/" else path) '/'
    if startsWith p "/api/system/" && startsWithAny p publicViewSystemAllow then true
    else !publicViewDenyPrefixes.any (publicViewDenies p)

end Predicates

section Credentials

/-- The session tokens in a `Cookie` header. -/
def sessionCookies (header : String) : List String :=
  (((split header ';').map strip).filter (startsWith · (sessionCookieName ++ "="))).map
    (afterFirst · '=')

/-- The header that the middleware reads: the first one. -/
def cookieHeader (scope : Scope) : String :=
  match scope.headers.find? (fun header => header.1 == "cookie") with
  | some header => header.2
  | none => ""

/-- The token that the middleware reads: the first one in that header. -/
def cookieToken (scope : Scope) : Option String := (sessionCookies (cookieHeader scope)).head?

/-- Every session token that the request carries. -/
def presentedTokens (scope : Scope) : List String :=
  (scope.headers.filter (fun header => header.1 == "cookie")).flatMap
    (fun header => sessionCookies header.2)

/-- The `token=` of the query string. -/
def queryToken (env : WebEnv) (scope : Scope) : Option String :=
  ((split scope.queryString '&').find? (startsWith · "token=")).map
    (fun part => env.unquote (dropFirst part 6))

theorem sessionCookies_empty : sessionCookies "" = [] := by decide

theorem cookieToken_presented {scope : Scope} {token : String}
    (h : cookieToken scope = some token) : token ∈ presentedTokens scope := by
  have hMem : token ∈ sessionCookies (cookieHeader scope) := List.mem_of_head? h
  unfold cookieHeader at hMem
  cases hFound : scope.headers.find? (fun header => header.1 == "cookie") with
  | none =>
      rw [hFound] at hMem
      simp only [sessionCookies_empty] at hMem
      cases hMem
  | some header =>
      rw [hFound] at hMem
      have hHeader : header ∈ scope.headers := List.mem_of_find?_eq_some hFound
      have hName : header.1 = "cookie" := by simpa using List.find?_some hFound
      exact List.mem_flatMap.mpr ⟨header, List.mem_filter.mpr ⟨hHeader, by simp [hName]⟩, hMem⟩

end Credentials

section Gate

/-- What the middleware does with a request. `raised` is an exception in the
middleware itself. -/
inductive Gate where
  | forward
  | reply (status : Nat) (headers : List (String × String)) (body : String)
  | raised
deriving DecidableEq

def jsonHeaders : List (String × String) := [("content-type", "application/json")]

/-- The answer on an appliance without a password. -/
def refuseUnconfigured (scope : Scope) : Gate :=
  if startsWith scope.path "/api/" then
    .reply 503 jsonHeaders ("\x7b\"detail\":\"local password not configured -- " ++
      "check /etc/wattpost/web-password.hash\"\x7d")
  else .reply 302 [("location", "/login")] ""

/-- The answer to a request without a session. -/
def refuse (scope : Scope) : Gate :=
  if startsWith scope.path "/api/" then
    .reply 401 jsonHeaders "\x7b\"detail\":\"login required\",\"login_url\":\"/login\"\x7d"
  else
    let full := scope.path ++ (if scope.queryString = "" then "" else "?" ++ scope.queryString)
    let location := "/login?next=" ++ full
    if isLatin1 location then .reply 302 [("location", location)] "" else .raised

/-- The grant of the kiosk allow-list, by session cookie or by `?token=`. -/
def kioskGrant (env : WebEnv) (now : ℚ) (scope : Scope) (s : AuthState) : Bool × AuthState :=
  if !kioskScopeAllows (upper scope.method) scope.path then (false, s)
  else
    let (origin, s) := sessionOrigin now (cookieToken scope) s
    if origin == some .kiosk then (true, s)
    else
      let qtok := queryToken env scope
      (truthy qtok && verifyKioskToken env s (qtok.getD ""), s)

/-- `_LocalAuthMiddleware.__call__`. -/
def localAuth (env : WebEnv) (now : ℚ) (scope : Scope) (s : AuthState) : Gate × AuthState :=
  if scope.type != "http" then (.forward, s)
  else if env.demo || isLoopbackSource env scope then (.forward, s)
  else if !passwordIsSet s then
    if !isAnonymousPath scope.path then (refuseUnconfigured scope, s) else (.forward, s)
  else if isAnonymousPath scope.path then (.forward, s)
  else if env.publicView && publicViewAllows (upper scope.method) scope.path then (.forward, s)
  else
    let (granted, s) := kioskGrant env now scope s
    if granted then (.forward, s)
    else
      let (valid, s) := isSessionValid now (cookieToken scope) s
      if valid then (.forward, s) else (refuse scope, s)

theorem refuseUnconfigured_ne_forward (scope : Scope) : refuseUnconfigured scope ≠ .forward := by
  unfold refuseUnconfigured
  split <;> simp

theorem refuse_ne_forward (scope : Scope) : refuse scope ≠ .forward := by
  unfold refuse
  dsimp only
  repeat' split
  all_goals simp

theorem liveSession_kioskGrant (env : WebEnv) (now : ℚ) (scope : Scope) (s : AuthState)
    (token : Option String) :
    liveSession (kioskGrant env now scope s).2 now token = liveSession s now token := by
  unfold kioskGrant
  split
  · rfl
  · dsimp only
    split <;> simp only [liveSession_sessionOrigin]

/-- Exactly the grants: on the box, an anonymous path, the public view, the
kiosk list for a kiosk credential, and any live session. -/
theorem localAuth_forward_iff (env : WebEnv) (now : ℚ) (scope : Scope) (s : AuthState)
    (hHttp : scope.type = "http") :
    (localAuth env now scope s).1 = .forward ↔
      env.demo = true ∨ isLoopbackSource env scope = true ∨ isAnonymousPath scope.path = true ∨
        passwordIsSet s = true ∧
          (env.publicView = true ∧ publicViewAllows (upper scope.method) scope.path = true ∨
            (kioskGrant env now scope s).1 = true ∨
            (liveSession s now (cookieToken scope)).isSome = true) := by
  unfold localAuth
  simp only [hHttp, bne_self_eq_false, Bool.false_eq_true, if_false]
  by_cases hBox : env.demo = true ∨ isLoopbackSource env scope = true
  · rcases hBox with hDemo | hLocal
    · simp [hDemo]
    · simp [hLocal]
  simp only [not_or, Bool.not_eq_true] at hBox
  simp only [hBox.1, hBox.2, Bool.or_self, Bool.false_eq_true, if_false, false_or]
  by_cases hAnon : isAnonymousPath scope.path = true
  · simp [hAnon]
  by_cases hSet : passwordIsSet s = true
  · by_cases hPublic : env.publicView = true ∧
        publicViewAllows (upper scope.method) scope.path = true
    · simp [hSet, hAnon, hPublic]
    by_cases hKiosk : (kioskGrant env now scope s).1 = true
    · simp [hSet, hAnon, hPublic, hKiosk]
    by_cases hValid : (liveSession s now (cookieToken scope)).isSome = true
    · simp [hSet, hAnon, hPublic, hKiosk, hValid, liveSession_kioskGrant]
    · simp [hSet, hAnon, hPublic, hKiosk, hValid, liveSession_kioskGrant, refuse_ne_forward]
  · simp [hSet, hAnon, refuseUnconfigured_ne_forward]

end Gate

end WattPost.Auth
