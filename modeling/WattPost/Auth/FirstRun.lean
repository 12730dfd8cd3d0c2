import WattPost.Auth.Endpoints

/-! The anonymous "create your password" window. It is open while the marker
of the generated password is there and nobody has a local session. -/
namespace WattPost.Auth

open Keyed

section Files

/-- The password file and the first-run marker: what decides whether the window
is open, sessions apart. -/
def passwordFiles (s : AuthState) : Option String × Bool := (s.passwordHash, s.firstRunMarker)

variable (env : WebEnv) (now : ℚ) (s : AuthState)

@[simp] theorem passwordFiles_gcSessions : passwordFiles (gcSessions now s) = passwordFiles s := by
  unfold gcSessions
  dsimp only
  split <;> rfl

@[simp] theorem passwordFiles_issueSession (token : String) (origin : Origin) :
    passwordFiles (issueSession now token origin s) = passwordFiles s :=
  passwordFiles_gcSessions now s

@[simp] theorem passwordFiles_revokeSession (token : String) :
    passwordFiles (revokeSession token s) = passwordFiles s := by
  unfold revokeSession
  split <;> rfl

@[simp] theorem passwordFiles_sessionRecord (token : Option String) :
    passwordFiles (sessionRecord now token s).2 = passwordFiles s := by
  unfold sessionRecord
  split
  · rfl
  · split
    · rfl
    · split <;> rfl

@[simp] theorem passwordFiles_sessionOrigin (token : Option String) :
    passwordFiles (sessionOrigin now token s).2 = passwordFiles s :=
  passwordFiles_sessionRecord now s token

@[simp] theorem passwordFiles_isSessionValid (token : Option String) :
    passwordFiles (isSessionValid now token s).2 = passwordFiles s :=
  passwordFiles_sessionRecord now s token

@[simp] theorem passwordFiles_countFailure (scope : Scope) :
    passwordFiles (countFailure env now scope s) = passwordFiles s := by
  unfold countFailure
  split <;> rfl

@[simp] theorem passwordFiles_kioskGrant (scope : Scope) :
    passwordFiles (kioskGrant env now scope s).2 = passwordFiles s := by
  unfold kioskGrant
  split
  · rfl
  · dsimp only
    split <;> simp only [passwordFiles_sessionOrigin]

@[simp] theorem passwordFiles_localAuth (scope : Scope) :
    passwordFiles (localAuth env now scope s).2 = passwordFiles s := by
  unfold localAuth
  dsimp only
  repeat' split
  all_goals simp

/-- A sign-in by OIDC leaves the password file and the marker as they are. -/
theorem passwordFiles_authCallback (checked : Except Response String) (token : String) :
    passwordFiles (authCallback now checked token s).2 = passwordFiles s := by
  cases checked with
  | error response => rfl
  | ok returnTo => exact passwordFiles_issueSession now s token .oidc

end Files

section Effects

variable {env : WebEnv} {s s' : AuthState}

/-- Everything that a step can do to the password file and the marker. -/
inductive PasswordEffect (s s' : AuthState) : Prop where
  | keeps (hFiles : passwordFiles s' = passwordFiles s)
  | closes (hHash : s'.passwordHash = s.passwordHash) (hMarker : s'.firstRunMarker = false)
  | writes (hSet : passwordIsSet s' = true) (hMarker : s'.firstRunMarker = false)
  | boots (hUnset : passwordIsSet s = false) (hSet : passwordIsSet s' = true)

theorem passwordIsSet_writePasswordHash (env : WebEnv) (s : AuthState) (salt plaintext : String) :
    passwordIsSet (writePasswordHash env salt plaintext s) = true := by
  simp [passwordIsSet, truthy, writePasswordHash]

/-- The window is open only with the marker there, and asking leaves it open. -/
theorem isFirstRun_open (h : (isFirstRun env s).1 = true) :
    env.demo = false ∧ s.firstRunMarker = true ∧ (isFirstRun env s).2 = s := by
  unfold isFirstRun at h ⊢
  by_cases hDemo : env.demo = true
  · simp [hDemo] at h
  by_cases hMarker : s.firstRunMarker = true
  · by_cases hLocal : s.sessions.rows.any (fun e => e.2.origin == .local) = true
    · rw [if_neg hDemo, if_neg (by simp [hMarker]), if_pos hLocal] at h
      cases h
    · rw [if_neg hDemo, if_neg (by simp [hMarker]), if_neg hLocal]
      exact ⟨by simpa using hDemo, hMarker, rfl⟩
  · simp [hDemo, hMarker] at h

/-- Asking whether the window is open may close it. -/
theorem isFirstRun_effect : PasswordEffect s (isFirstRun env s).2 := by
  unfold isFirstRun
  split
  · exact .keeps rfl
  · split
    · exact .keeps rfl
    · split
      · exact .closes rfl rfl
      · exact .keeps rfl

/-- The effect looks at nothing but the two files. -/
theorem PasswordEffect.of_files {t t' : AuthState} (h : PasswordEffect s s')
    (hBefore : passwordFiles t = passwordFiles s) (hAfter : passwordFiles t' = passwordFiles s') :
    PasswordEffect t t' := by
  have hHash : t'.passwordHash = s'.passwordHash := congrArg Prod.fst hAfter
  have hHash₀ : t.passwordHash = s.passwordHash := congrArg Prod.fst hBefore
  have hMarker : t'.firstRunMarker = s'.firstRunMarker := congrArg Prod.snd hAfter
  cases h with
  | keeps h => exact .keeps (hAfter.trans (h.trans hBefore.symm))
  | closes h h' => exact .closes (hHash.trans (h.trans hHash₀.symm)) (hMarker.trans h')
  | writes h h' => exact .writes ((congrArg truthy hHash).trans h) (hMarker.trans h')
  | boots h h' => exact .boots ((congrArg truthy hHash₀).trans h) ((congrArg truthy hHash).trans h')

theorem doLogin_effect (now : ℚ) (scope : Scope) (body : Body) (token : String) :
    PasswordEffect s (doLogin env now scope body token s).2 := by
  unfold doLogin
  split
  · exact .keeps rfl
  · split
    · exact .keeps (passwordFiles_countFailure env now s scope)
    · refine PasswordEffect.of_files (.closes ?_ ?_) rfl
        (passwordFiles_issueSession now _ token .local)
      · split <;> rfl
      · rfl

theorem firstRunPassword_effect (now : ℚ) (scope : Scope) (body : Body) (salt token : String) :
    PasswordEffect s (firstRunPassword env now scope body salt token s).2 := by
  unfold firstRunPassword
  split
  · exact .keeps rfl
  · dsimp only
    split
    · exact isFirstRun_effect.of_files rfl (passwordFiles_countFailure env now _ scope)
    · split
      · exact isFirstRun_effect
      · refine PasswordEffect.of_files (.writes ?_ ?_) rfl
          (passwordFiles_issueSession now _ token .local)
        · exact passwordIsSet_writePasswordHash env (isFirstRun env s).2 salt _
        · rfl

theorem restart_effect (now : ℚ) (salt plaintext : String) :
    PasswordEffect s (restart env now salt plaintext s) := by
  unfold restart ensureFirstBootPassword
  split
  · exact .keeps rfl
  · split
    · exact .keeps rfl
    case isFalse hUnset =>
      exact .boots (by simpa [passwordIsSet] using hUnset)
        (passwordIsSet_writePasswordHash env s salt plaintext)

theorem step_effect (env : WebEnv) (s : AuthState) (e : Event) :
    PasswordEffect s (step env s e) := by
  cases e with
  | request now scope => exact .keeps (passwordFiles_localAuth env now s scope)
  | doLogin now scope body token => exact doLogin_effect now scope body token
  | firstRunPassword now scope body salt token =>
      exact firstRunPassword_effect now scope body salt token
  | kioskClaim now body token =>
      apply PasswordEffect.keeps
      simp only [step, kioskClaim]
      repeat' split
      all_goals simp
  | authCallback now checked token =>
      exact .keeps (passwordFiles_authCallback now s checked token)
  | doLogout cookie =>
      apply PasswordEffect.keeps
      simp only [step, doLogout]
      split
      · exact passwordFiles_revokeSession s _
      · rfl
  | loginPage queryString => exact isFirstRun_effect
  | authStatus now cookie =>
      simp only [step, authStatus]
      split
      · exact .keeps (passwordFiles_sessionRecord now s cookie)
      · exact isFirstRun_effect.of_files (passwordFiles_sessionRecord now s cookie).symm rfl
  | rotateWebPassword salt plaintext =>
      exact .writes (passwordIsSet_writePasswordHash env s salt plaintext) rfl
  | kioskTokensCreate now name skin tid plaintext =>
      apply PasswordEffect.keeps
      simp only [step, kioskTokensCreate]
      split <;> rfl
  | kioskTokensRevoke tid =>
      apply PasswordEffect.keeps
      simp only [step, kioskTokensRevoke, revokeKioskToken]
      repeat' split
      all_goals rfl
  | restart now salt plaintext => exact restart_effect now salt plaintext

end Effects

section Window

variable {env : WebEnv} {s s' : AuthState}

/-- The window is closed, and not for want of a password. -/
structure Closed (s : AuthState) : Prop where
  isSet : passwordIsSet s = true
  marker : s.firstRunMarker = false

theorem PasswordEffect.passwordIsSet (h : PasswordEffect s s')
    (hSet : Auth.passwordIsSet s = true) : Auth.passwordIsSet s' = true := by
  cases h with
  | keeps hFiles =>
      have hHash : s'.passwordHash = s.passwordHash := congrArg Prod.fst hFiles
      exact (congrArg truthy hHash).trans hSet
  | closes hHash _ => exact (congrArg truthy hHash).trans hSet
  | writes hSet' _ => exact hSet'
  | boots _ hSet' => exact hSet'

theorem PasswordEffect.closed (h : PasswordEffect s s') (hClosed : Closed s) : Closed s' := by
  refine ⟨h.passwordIsSet hClosed.isSet, ?_⟩
  cases h with
  | keeps hFiles => exact (congrArg Prod.snd hFiles).trans hClosed.marker
  | closes _ hMarker => exact hMarker
  | writes _ hMarker => exact hMarker
  | boots hUnset _ => exact absurd hClosed.isSet (by simp [hUnset])

theorem run_passwordIsSet (env : WebEnv) (hSet : passwordIsSet s = true) (events : List Event) :
    passwordIsSet (Runs.run (step env) s events) = true :=
  @Runs.run_preserves _ _ (step env) (fun s => passwordIsSet s = true)
    (fun s e => (step_effect env s e).passwordIsSet) s hSet events

theorem run_closed (env : WebEnv) (hClosed : Closed s) (events : List Event) :
    Closed (Runs.run (step env) s events) :=
  Runs.run_preserves (fun s e => (step_effect env s e).closed) hClosed events

/-- No first-run request, now or after any further events, changes the
password. -/
def ClosedForGood (env : WebEnv) (s : AuthState) : Prop :=
  ∀ (events : List Event) (now : ℚ) (scope : Scope) (body : Body) (salt token : String),
    (firstRunPassword env now scope body salt token
        (Runs.run (step env) s events)).2.passwordHash =
      (Runs.run (step env) s events).passwordHash

/-- A first-run request that finds the window closed keeps the password. -/
theorem firstRunPassword_shut (h : (isFirstRun env s).1 = false) (now : ℚ) (scope : Scope)
    (body : Body) (salt token : String) :
    (firstRunPassword env now scope body salt token s).2.passwordHash = s.passwordHash := by
  unfold firstRunPassword
  split
  · rfl
  · simp only [h, Bool.not_false, if_true]
    have hFiles := passwordFiles_countFailure env now (isFirstRun env s).2 scope
    refine (congrArg Prod.fst hFiles).trans ?_
    unfold isFirstRun
    repeat' split
    all_goals rfl

theorem isFirstRun_shut (h : env.demo = true ∨ s.firstRunMarker = false) :
    (isFirstRun env s).1 = false := by
  rw [← Bool.not_eq_true]
  intro hOpen
  obtain ⟨hDemo, hMarker, _⟩ := isFirstRun_open hOpen
  simp [hDemo, hMarker] at h

theorem closedForGood_of_demo (hDemo : env.demo = true) : ClosedForGood env s := by
  intro events now scope body salt token
  exact firstRunPassword_shut (isFirstRun_shut (Or.inl hDemo)) now scope body salt token

theorem closedForGood_of_closed (hClosed : Closed s) : ClosedForGood env s := by
  intro events now scope body salt token
  have hMarker := (run_closed env hClosed events).marker
  exact firstRunPassword_shut (isFirstRun_shut (Or.inr hMarker)) now scope body salt token

end Window

section Claiming

variable {env : WebEnv} {s : AuthState}

/-- The event signs somebody in who is no kiosk, or sets the password by the
first-run request. -/
def Claims (env : WebEnv) (s : AuthState) : Event → Prop
  | .doLogin now scope body token => (doLogin env now scope body token s).1.status = 200
  | .firstRunPassword now scope body salt token =>
      (firstRunPassword env now scope body salt token s).1.status = 200
  | .authCallback _ (.ok _) _ => True
  | _ => False

def Event.isOidc : Event → Bool
  | .authCallback _ _ _ => true
  | _ => false

theorem doLogin_marker {now : ℚ} {scope : Scope} {body : Body} {token : String}
    (h : (doLogin env now scope body token s).1.status = 200) :
    (doLogin env now scope body token s).2.firstRunMarker = false := by
  revert h
  unfold doLogin
  split
  · exact nofun
  · split
    · exact nofun
    · intro _
      exact congrArg Prod.snd (passwordFiles_issueSession now _ token .local)

theorem firstRunPassword_marker {now : ℚ} {scope : Scope} {body : Body} {salt token : String}
    (h : (firstRunPassword env now scope body salt token s).1.status = 200) :
    (firstRunPassword env now scope body salt token s).2.firstRunMarker = false := by
  revert h
  unfold firstRunPassword
  split
  · exact nofun
  · dsimp only
    split
    · exact nofun
    · split
      · exact nofun
      · intro _
        exact congrArg Prod.snd (passwordFiles_issueSession now _ token .local)

/-- A password login and the first-run request take the marker away. -/
theorem closed_of_claims {e : Event} (hSet : passwordIsSet s = true) (hClaims : Claims env s e)
    (hOidc : e.isOidc = false) : Closed (step env s e) := by
  refine ⟨(step_effect env s e).passwordIsSet hSet, ?_⟩
  cases e with
  | doLogin now scope body token => exact doLogin_marker hClaims
  | firstRunPassword now scope body salt token => exact firstRunPassword_marker hClaims
  | authCallback now checked token => cases hOidc
  | _ => cases hClaims

/-- In the end every session has expired. -/
theorem exists_all_expired (rows : List (String × Session)) :
    ∃ now, ∀ row ∈ rows, expired now row.2 = true := by
  induction rows with
  | nil => exact ⟨0, by simp⟩
  | cons row rows ih =>
      obtain ⟨now, hNow⟩ := ih
      refine ⟨max now (row.2.issuedAt + sessionTtlSeconds + 1), ?_⟩
      have hLater : ∀ record : Session, sessionTtlSeconds < now - record.issuedAt →
          sessionTtlSeconds <
            max now (row.2.issuedAt + sessionTtlSeconds + 1) - record.issuedAt := by
        intro record h
        have := le_max_left now (row.2.issuedAt + sessionTtlSeconds + 1)
        linarith
      intro other hOther
      rcases List.mem_cons.mp hOther with rfl | hOther
      · have := le_max_right now (other.2.issuedAt + sessionTtlSeconds + 1)
        simp only [expired, decide_eq_true_eq]
        linarith
      · have hOld : sessionTtlSeconds < now - other.2.issuedAt := by
          simpa [expired] using hNow other hOther
        simpa [expired] using hLater other.2 hOld

theorem loadSessionsFromDisk_empty {now : ℚ} {file : Table String Session}
    (h : ∀ row ∈ file.rows, expired now row.2 = true) : loadSessionsFromDisk now file = .empty := by
  have hNone : file.rows.filter (fun row => !expired now row.2) = [] := by
    apply List.filter_eq_nil_iff.mpr
    intro row hRow
    simp [h row hRow]
  rw [loadSessionsFromDisk, hNone]
  rfl

/-- A first-run request of somebody on the network. -/
def lanScope : Scope where
  type := "http"
  client := some "192.168.1.66"
  method := "POST"
  path := "/api/setup/first-run-password"
  queryString := ""
  headers := []

def passwordBody (pw : String) : Body := ⟨.text pw, .missing, .missing⟩

/-- Once the sessions are gone, the next first-run request sets the password of
an appliance that still has its marker. -/
theorem firstRunPassword_reopened (hDemo : env.demo = false) (hMarker : s.firstRunMarker = true)
    (hSessions : s.sessions = .empty) (hFails : s.loginFails = .empty) {pw : String}
    (hLong : 8 ≤ pw.length) (now : ℚ) (salt token : String) :
    (firstRunPassword env now lanScope (passwordBody pw) salt token s).2.passwordHash =
      some (env.hasher.hash salt pw ++ "\n") := by
  have hFree : throttled env now lanScope s = false := by
    simp [throttled, loginLockedFor, hFails]
  have hOpen : isFirstRun env s = (true, s) := by
    simp [isFirstRun, hDemo, hMarker, hSessions, Table.empty]
  have hPw : (((passwordBody pw).password.orElse "").filter (fun pw => 8 ≤ pw.length)) =
      some pw := by
    have hNe : pw ≠ "" := by
      rintro rfl
      simp at hLong
    simp [passwordBody, Field.orElse, hNe, Option.filter, hLong]
  unfold firstRunPassword
  simp only [hFree, hOpen, hPw, Bool.false_eq_true, Bool.not_true, if_false]
  exact congrArg Prod.fst (passwordFiles_issueSession now _ token .local)

theorem hash_injective {salt p q : String}
    (h : env.hasher.hash salt p ++ "\n" = env.hasher.hash salt q ++ "\n") : p = q := by
  have hHash : env.hasher.hash salt p = env.hasher.hash salt q := by
    apply String.ext
    simpa using congrArg String.toList h
  apply (env.hasher.verify_hash salt p q).mp
  rw [hHash]
  exact (env.hasher.verify_hash salt q q).mpr rfl

/-- With the marker left in place the window opens again: when all sessions
have expired and the daemon has restarted, one of any two passwords gets in. -/
theorem not_closedForGood (hDemo : env.demo = false) (hSet : passwordIsSet s = true)
    (hMarker : s.firstRunMarker = true) : ¬ClosedForGood env s := by
  intro hGood
  obtain ⟨now, hExpired⟩ := exists_all_expired s.sessionsFile.rows
  have hRestarted : Runs.run (step env) s [.restart now "" ""] =
      { s with sessions := .empty, loginFails := .empty } := by
    show restart env now "" "" s = _
    rw [restart, loadSessionsFromDisk_empty hExpired, ensureFirstBootPassword,
      if_neg (by simp [hDemo])]
    exact if_pos hSet
  have hKept : ∀ pw : String, 8 ≤ pw.length →
      s.passwordHash = some (env.hasher.hash "" pw ++ "\n") := by
    intro pw hLong
    have hSame := hGood [.restart now "" ""] now lanScope (passwordBody pw) "" ""
    rw [hRestarted, firstRunPassword_reopened hDemo (by exact hMarker) rfl rfl hLong] at hSame
    exact hSame.symm
  exact absurd (hash_injective (Option.some.inj
    ((hKept "first-password" (by decide)).symm.trans (hKept "other-password" (by decide)))))
    (by decide)

/-- A sign-in closes the first-run window for good, except that a sign-in by
OIDC leaves a marker that is still there. -/
theorem first_run_closed_iff (env : WebEnv) (s₀ : AuthState) (hSet : passwordIsSet s₀ = true)
    (before : List Event) (e : Event) (hClaims : Claims env (Runs.run (step env) s₀ before) e) :
    ClosedForGood env (Runs.run (step env) s₀ (before ++ [e])) ↔
      env.demo = true ∨ e.isOidc = false ∨
        (Runs.run (step env) s₀ before).firstRunMarker = false := by
  rw [Runs.run_concat]
  have hSet' := run_passwordIsSet env hSet before
  generalize Runs.run (step env) s₀ before = s at hClaims hSet' ⊢
  constructor
  · intro hGood
    by_contra hOpen
    simp only [not_or, Bool.not_eq_true, Bool.not_eq_false] at hOpen
    obtain ⟨hDemo, hOidc, hMarker⟩ := hOpen
    have hLeft : (step env s e).firstRunMarker = true := by
      cases e with
      | authCallback now checked token =>
          exact (congrArg Prod.snd (passwordFiles_authCallback now s checked token)).trans hMarker
      | _ => cases hOidc
    exact not_closedForGood hDemo ((step_effect env s e).passwordIsSet hSet') hLeft hGood
  · rintro (hDemo | hOidc | hMarker)
    · exact closedForGood_of_demo hDemo
    · exact closedForGood_of_closed (closed_of_claims hSet' hClaims hOidc)
    · exact closedForGood_of_closed ((step_effect env s e).closed ⟨hSet', hMarker⟩)

/-- First boot: the password is generated and the marker written. -/
def firstBoot : List Event := [.restart 0 "salt" "first-boot-pass"]

/-- The owner logs in with the generated password. -/
def ownerLogin : Event := .doLogin 10 lanScope (passwordBody "first-boot-pass") "owner-session"

/-- Nobody gets in behind the owner. -/
theorem first_run_closed_owner :
    Claims defaultEnv (Runs.run (step defaultEnv) .empty firstBoot) ownerLogin ∧
      ClosedForGood defaultEnv
        (Runs.run (step defaultEnv) (Runs.run (step defaultEnv) .empty firstBoot)
          ([] ++ [ownerLogin])) := by
  have hClaims : Claims defaultEnv (Runs.run (step defaultEnv) .empty firstBoot) ownerLogin := by
    show (doLogin defaultEnv _ _ _ _ _).1.status = 200
    decide +kernel
  have hClosed := first_run_closed_iff defaultEnv (Runs.run (step defaultEnv) .empty firstBoot)
    (by decide +kernel) [] ownerLogin hClaims
  exact ⟨hClaims, hClosed.mpr (Or.inr (Or.inl rfl))⟩

/-- The owner signs in by OIDC; the next first-run request from the network
passes the gate and sets the password. -/
theorem oidc_leaves_window_open :
    passwordIsSet (Runs.run (step defaultEnv) .empty firstBoot) = true ∧
      Claims defaultEnv (Runs.run (step defaultEnv) .empty firstBoot)
        (.authCallback 10 (.ok "/") "owner-session") ∧
      (Runs.run (step defaultEnv) .empty
        (firstBoot ++ [.authCallback 10 (.ok "/") "owner-session"])).passwordHash =
          some "$argon2id$first-boot-pass\n" ∧
      (localAuth defaultEnv 20 lanScope (Runs.run (step defaultEnv) .empty
        (firstBoot ++ [.authCallback 10 (.ok "/") "owner-session"]))).1 = .forward ∧
      (firstRunPassword defaultEnv 20 lanScope (passwordBody "attacker-chosen-1") "salt" "session"
        (Runs.run (step defaultEnv) .empty
          (firstBoot ++ [.authCallback 10 (.ok "/") "owner-session"]))).2.passwordHash =
          some "$argon2id$attacker-chosen-1\n" := by
  exact ⟨by decide +kernel, trivial, by decide +kernel, by decide +kernel, by decide +kernel⟩

end Claiming

end WattPost.Auth
