import Mathlib.Tactic.Linarith
import WattPost.Auth.Endpoints

/-! The backoff of the two endpoints on which a caller without a session can try passwords.
A request reads the clock more than once: the lockout is checked first, and a failure is
recorded after the password was verified. -/
namespace WattPost.Auth

open Keyed

section Requests

/-- The clock in the course of a request. -/
structure Clock where
  checkedAt : ℚ
  verifiedAt : ℚ
  recordedAt : ℚ

/-- What a request leaves: the response, the state, and whether a password was verified. -/
structure Handled where
  response : Response
  state : AuthState
  verified : Bool

/-- `do_login`, with the readings of the clock at the check and at the end. -/
def doLoginTimed (env : WebEnv) (clock : Clock) (scope : Scope) (body : Body) (token : String)
    (s : AuthState) : Handled :=
  if throttled env clock.checkedAt scope s then
    ⟨tooManyAttempts (loginLockedFor s (clientIp scope) clock.checkedAt), s, false⟩
  else if !(body.password.orElse "").any (verifyPassword env s) then
    ⟨{ status := 401, ok := false, detail := some "wrong password" },
      countFailure env clock.recordedAt scope s, true⟩
  else
    let s := if isLoopbackSource env scope then s else recordLoginSuccess (clientIp scope) s
    ⟨signedIn body token, issueSession clock.recordedAt token .local (clearFirstRunMarker s), true⟩

/-- `first_run_password`, likewise. -/
def firstRunPasswordTimed (env : WebEnv) (clock : Clock) (scope : Scope) (body : Body)
    (salt token : String) (s : AuthState) : Handled :=
  if throttled env clock.checkedAt scope s then
    ⟨tooManyAttempts (loginLockedFor s (clientIp scope) clock.checkedAt), s, false⟩
  else
    let (first, s) := isFirstRun env s
    if !first then
      ⟨{ status := 409
         ok := false
         detail := some "already set up — sign in with your password" },
        countFailure env clock.recordedAt scope s, false⟩
    else
      match (body.password.orElse "").filter (fun pw => 8 ≤ pw.length) with
      | none =>
          ⟨{ status := 400
             ok := false
             detail := some "password must be at least 8 characters" }, s, false⟩
      | some pw =>
          ⟨signedIn body token,
            issueSession clock.recordedAt token .local (setUserWebPassword env salt pw s), false⟩

/-- With one reading these are the endpoints. -/
theorem doLoginTimed_once (env : WebEnv) (now : ℚ) (scope : Scope) (body : Body) (token : String)
    (s : AuthState) :
    ((doLoginTimed env ⟨now, now, now⟩ scope body token s).response,
      (doLoginTimed env ⟨now, now, now⟩ scope body token s).state) =
        doLogin env now scope body token s := by
  unfold doLoginTimed doLogin
  dsimp only
  split_ifs <;> rfl

theorem firstRunPasswordTimed_once (env : WebEnv) (now : ℚ) (scope : Scope) (body : Body)
    (salt token : String) (s : AuthState) :
    ((firstRunPasswordTimed env ⟨now, now, now⟩ scope body salt token s).response,
      (firstRunPasswordTimed env ⟨now, now, now⟩ scope body salt token s).state) =
        firstRunPassword env now scope body salt token s := by
  unfold firstRunPasswordTimed firstRunPassword
  dsimp only
  split_ifs
  · rfl
  · rfl
  · cases (body.password.orElse "").filter (fun pw => 8 ≤ pw.length) <;> rfl

inductive Attempt where
  | login (body : Body) (token : String)
  | firstRunPassword (body : Body) (salt token : String)

/-- A request to one of the two endpoints. -/
structure Request where
  scope : Scope
  clock : Clock
  attempt : Attempt

def handle (env : WebEnv) (r : Request) (s : AuthState) : Handled :=
  match r.attempt with
  | .login body token => doLoginTimed env r.clock r.scope body token s
  | .firstRunPassword body salt token =>
      firstRunPasswordTimed env r.clock r.scope body salt token s

/-- The state after some requests. -/
def served (env : WebEnv) (s : AuthState) (requests : List Request) : AuthState :=
  Runs.run (fun s r => (handle env r s).state) s requests

end Requests

section Watching

/-- The request recorded a failure, as its response shows. -/
def recordsFailure (env : WebEnv) (s : AuthState) (r : Request) : Bool :=
  !isLoopbackSource env r.scope &&
    ((handle env r s).response.status == 401 || (handle env r s).response.status == 409)

/-- The request was a login, and succeeded. -/
def succeeds (env : WebEnv) (s : AuthState) (r : Request) : Bool :=
  !isLoopbackSource env r.scope && (handle env r s).verified &&
    (handle env r s).response.status == 200

/-- The consecutive recorded failures of an address over some requests. -/
def streakFrom (env : WebEnv) (ip : String) : AuthState → Nat → List Request → Nat
  | _, n, [] => n
  | s, n, r :: rest =>
      streakFrom env ip (handle env r s).state
        (if clientIp r.scope ≠ ip then n
          else if recordsFailure env s r then n + 1
          else if succeeds env s r then 0
          else n) rest

def streak (env : WebEnv) (s : AuthState) (ip : String) (requests : List Request) : Nat :=
  streakFrom env ip s 0 requests

/-- The clock never goes back, neither in a request nor between two. -/
def InOrder : ℚ → List Request → Prop
  | _, [] => True
  | start, r :: rest =>
      start ≤ r.clock.checkedAt ∧ r.clock.checkedAt ≤ r.clock.verifiedAt ∧
        r.clock.verifiedAt ≤ r.clock.recordedAt ∧ InOrder r.clock.recordedAt rest

/-- How long the `k`-th failure in a row locks an address out. -/
def lockout (k : Nat) : ℚ := min 300 (2 ^ (k - 5))

/-- The promise of the backoff, over a run. -/
structure Throttles (env : WebEnv) (s : AuthState) (requests : List Request) : Prop where
  waits : ∀ before failure between attempt after,
    requests = before ++ failure :: (between ++ attempt :: after) →
    recordsFailure env (served env s before) failure = true →
    6 ≤ streak env s (clientIp failure.scope) (before ++ [failure]) →
    clientIp attempt.scope = clientIp failure.scope →
    isLoopbackSource env attempt.scope = false →
    (handle env attempt (served env s (before ++ failure :: between))).verified = true →
    failure.clock.recordedAt +
        lockout (streak env s (clientIp failure.scope) (before ++ [failure])) ≤
      attempt.clock.verifiedAt
  refuses : ∀ before r after, requests = before ++ r :: after →
    (handle env r (served env s before)).response.status = 429 →
    (handle env r (served env s before)).verified = false ∧
      (handle env r (served env s before)).state = served env s before
  apart : ∀ before r after, requests = before ++ r :: after →
    ∀ ip, ip ≠ clientIp r.scope → ∀ now,
      loginLockedFor (handle env r (served env s before)).state ip now =
        loginLockedFor (served env s before) ip now

end Watching

section Steps

variable {env : WebEnv} {s : AuthState} {r : Request}

theorem loginFails_gcSessions (now : ℚ) (s : AuthState) :
    (gcSessions now s).loginFails = s.loginFails := by
  unfold gcSessions
  dsimp only
  split_ifs <;> rfl

@[simp] theorem loginFails_issueSession (now : ℚ) (token : String) (origin : Origin)
    (s : AuthState) : (issueSession now token origin s).loginFails = s.loginFails :=
  loginFails_gcSessions now s

@[simp] theorem loginFails_isFirstRun (env : WebEnv) (s : AuthState) :
    (isFirstRun env s).2.loginFails = s.loginFails := by
  unfold isFirstRun
  split_ifs <;> rfl

theorem loginFails_countFailure {t : AuthState} (now : ℚ) (scope : Scope)
    (h : t.loginFails = s.loginFails) :
    (countFailure env now scope t).loginFails = (countFailure env now scope s).loginFails := by
  unfold countFailure
  split_ifs
  · exact h
  · simp only [recordLoginFailure, h]

/-- Everything that a request can do to the backoff. -/
inductive Effect (env : WebEnv) (s : AuthState) (r : Request) (h : Handled) : Prop where
  | refused (hWait : throttled env r.clock.checkedAt r.scope s = true)
      (hStatus : h.response.status = 429) (hState : h.state = s) (hVerified : h.verified = false)
  | failed (hFree : throttled env r.clock.checkedAt r.scope s = false)
      (hStatus : h.response.status = 401 ∨ h.response.status = 409)
      (hFails : h.state.loginFails = (countFailure env r.clock.recordedAt r.scope s).loginFails)
  | signedIn (hFree : throttled env r.clock.checkedAt r.scope s = false)
      (hStatus : h.response.status = 200) (hVerified : h.verified = true)
      (hFails : h.state.loginFails = (if isLoopbackSource env r.scope then s
        else recordLoginSuccess (clientIp r.scope) s).loginFails)
  | neither (hFree : throttled env r.clock.checkedAt r.scope s = false)
      (hStatus : h.response.status = 200 ∨ h.response.status = 400) (hVerified : h.verified = false)
      (hFails : h.state.loginFails = s.loginFails)

theorem handle_effect (env : WebEnv) (s : AuthState) (r : Request) :
    Effect env s r (handle env r s) := by
  obtain ⟨scope, clock, attempt⟩ := r
  cases attempt with
  | login body token =>
      show Effect env s _ (doLoginTimed env clock scope body token s)
      unfold doLoginTimed
      cases hWait : throttled env clock.checkedAt scope s with
      | true => exact .refused hWait rfl rfl rfl
      | false =>
          rw [if_neg Bool.false_ne_true]
          split_ifs with hWrong hLocal
          · exact .failed hWait (Or.inl rfl) rfl
          · refine .signedIn hWait rfl rfl ?_
            rw [if_pos hLocal]
            exact loginFails_issueSession _ _ _ _
          · refine .signedIn hWait rfl rfl ?_
            rw [if_neg hLocal]
            exact loginFails_issueSession _ _ _ _
  | firstRunPassword body salt token =>
      show Effect env s _ (firstRunPasswordTimed env clock scope body salt token s)
      unfold firstRunPasswordTimed
      cases hWait : throttled env clock.checkedAt scope s with
      | true => exact .refused hWait rfl rfl rfl
      | false =>
          rw [if_neg Bool.false_ne_true]
          dsimp only
          split_ifs
          · exact .failed hWait (Or.inr rfl)
              (loginFails_countFailure _ scope (loginFails_isFirstRun env s))
          · cases (body.password.orElse "").filter (fun pw => 8 ≤ pw.length) with
            | none => exact .neither hWait (Or.inr rfl) rfl (loginFails_isFirstRun env s)
            | some pw =>
                refine .neither hWait (Or.inl rfl) rfl ?_
                exact (loginFails_issueSession _ _ _ _).trans (loginFails_isFirstRun env s)

/-- A request leaves the records of all other addresses alone, and one from the box leaves all
of them alone. -/
theorem lookup_handle_of {ip : String}
    (h : ip ≠ clientIp r.scope ∨ isLoopbackSource env r.scope = true) :
    (handle env r s).state.loginFails.lookup ip = s.loginFails.lookup ip := by
  cases handle_effect env s r with
  | refused hWait hStatus hState hVerified => rw [hState]
  | failed hFree hStatus hFails =>
      rw [hFails, countFailure]
      split_ifs with hLocal
      · rfl
      · rw [recordLoginFailure, Table.lookup_insert, if_neg (h.resolve_right hLocal)]
  | signedIn hFree hStatus hVerified hFails =>
      rw [hFails]
      split_ifs with hLocal
      · rfl
      · simp [recordLoginSuccess, h.resolve_right hLocal]
  | neither hFree hStatus hVerified hFails => rw [hFails]

theorem throttled_iff : throttled env r.clock.checkedAt r.scope s = true ↔
    isLoopbackSource env r.scope = false ∧
      ∃ record, s.loginFails.lookup (clientIp r.scope) = some record ∧
        r.clock.checkedAt < record.lockedUntil := by
  rw [throttled, Bool.and_eq_true, Bool.not_eq_true', decide_eq_true_eq, loginLockedFor]
  refine and_congr_right fun _ => ?_
  cases s.loginFails.lookup (clientIp r.scope) with
  | none => simp
  | some record =>
      simp only [Option.some.injEq, exists_eq_left']
      split_ifs with hLocked
      · exact ⟨fun _ => sub_pos.mp hLocked, fun _ => hLocked⟩
      · exact ⟨fun h => absurd h (lt_irrefl 0), fun h => absurd (sub_pos.mpr h) hLocked⟩

end Steps

section Deadlines

variable {env : WebEnv} {s : AuthState} {r : Request} {ip : String} {start deadline : ℚ}

/-- The failures on record for an address. -/
def recorded (s : AuthState) (ip : String) : Nat :=
  ((s.loginFails.lookup ip).map LoginFails.n).getD 0

theorem recorded_countFailure (now : ℚ) {scope : Scope}
    (hRemote : isLoopbackSource env scope = false) :
    ∃ record, (countFailure env now scope s).loginFails.lookup (clientIp scope) = some record ∧
      record.n = recorded s (clientIp scope) + 1 ∧
        (5 < record.n → record.lockedUntil = now + lockout record.n) := by
  rw [countFailure, hRemote, if_neg Bool.false_ne_true]
  refine ⟨_, (Table.lookup_insert _ _ _ _).trans (if_pos rfl), ?_, fun hMany => ?_⟩
  · rw [recorded]
    cases s.loginFails.lookup (clientIp scope) <;> rfl
  · dsimp only at hMany ⊢
    rw [loginFreeAttempts, loginBackoffCap, if_pos hMany, lockout]
    push_cast
    rfl

/-- A failure that is seen is on record. -/
theorem lookup_of_recordsFailure (h : recordsFailure env s r = true) :
    ∃ record, (handle env r s).state.loginFails.lookup (clientIp r.scope) = some record ∧
      record.n = recorded s (clientIp r.scope) + 1 ∧
        (5 < record.n → record.lockedUntil = r.clock.recordedAt + lockout record.n) := by
  simp only [recordsFailure, Bool.and_eq_true, Bool.not_eq_true', Bool.or_eq_true,
    beq_iff_eq] at h
  obtain ⟨hRemote, hFailure⟩ := h
  cases handle_effect env s r with
  | refused hWait hStatus hState hVerified => omega
  | failed hFree hStatus hFails =>
      rw [hFails]
      exact recorded_countFailure _ hRemote
  | signedIn hFree hStatus hVerified hFails => omega
  | neither hFree hStatus hVerified hFails => omega

/-- No more failures are seen than are on record. -/
theorem streakFrom_le {n : Nat} (h : n ≤ recorded s ip) (requests : List Request) :
    streakFrom env ip s n requests ≤ recorded (served env s requests) ip := by
  induction requests generalizing s n with
  | nil => exact h
  | cons r rest ih =>
      apply ih
      split_ifs with hOther hFailure hSuccess
      · rwa [recorded, lookup_handle_of (Or.inl (Ne.symm hOther))]
      · obtain ⟨record, hLookup, hCount, -⟩ := lookup_of_recordsFailure hFailure
        have hIp : clientIp r.scope = ip := not_not.mp hOther
        rw [hIp] at hLookup hCount
        rw [recorded, hLookup, Option.map_some, Option.getD_some, hCount]
        exact Nat.succ_le_succ h
      · exact Nat.zero_le _
      · -- what records no failure and is no successful login keeps the record
        have hKept : (handle env r s).state.loginFails.lookup ip = s.loginFails.lookup ip := by
          cases hLocal : isLoopbackSource env r.scope with
          | true => exact lookup_handle_of (Or.inr hLocal)
          | false =>
              cases handle_effect env s r with
              | refused hWait hStatus hState hVerified => rw [hState]
              | failed hFree hStatus hFails => simp [recordsFailure, hLocal, hStatus] at hFailure
              | signedIn hFree hStatus hVerified hFails =>
                  simp [succeeds, hLocal, hStatus, hVerified] at hSuccess
              | neither hFree hStatus hVerified hFails => rw [hFails]
        rwa [recorded, hKept]

/-- Until the deadline the address is locked out, or the deadline has passed. -/
def Guarded (ip : String) (deadline start : ℚ) (s : AuthState) : Prop :=
  deadline ≤ start ∨
    ∃ record, s.loginFails.lookup ip = some record ∧ deadline ≤ record.lockedUntil

/-- A request of the address that is let through comes after the deadline. -/
theorem Guarded.passed (h : Guarded ip deadline start s) (hStart : start ≤ r.clock.checkedAt)
    (hIp : clientIp r.scope = ip) (hRemote : isLoopbackSource env r.scope = false)
    (hFree : throttled env r.clock.checkedAt r.scope s = false) :
    deadline ≤ r.clock.checkedAt := by
  rcases h with hPassed | ⟨record, hLookup, hLocked⟩
  · exact hPassed.trans hStart
  · by_contra hEarly
    have hWait : throttled env r.clock.checkedAt r.scope s = true :=
      throttled_iff.mpr ⟨hRemote, record, hIp ▸ hLookup, (not_le.mp hEarly).trans_le hLocked⟩
    rw [hFree] at hWait
    cases hWait

theorem Guarded.handle (h : Guarded ip deadline start s) (hStart : start ≤ r.clock.checkedAt)
    (hClock : r.clock.checkedAt ≤ r.clock.recordedAt) :
    Guarded ip deadline r.clock.recordedAt (handle env r s).state := by
  by_cases hSame : clientIp r.scope = ip ∧ isLoopbackSource env r.scope = false ∧
      throttled env r.clock.checkedAt r.scope s = false
  · obtain ⟨hIp, hRemote, hFree⟩ := hSame
    exact Or.inl ((h.passed hStart hIp hRemote hFree).trans hClock)
  · have hKept : (WattPost.Auth.handle env r s).state.loginFails.lookup ip =
        s.loginFails.lookup ip := by
      by_cases hIp : clientIp r.scope = ip
      · cases hLocal : isLoopbackSource env r.scope with
        | true => exact lookup_handle_of (Or.inr hLocal)
        | false =>
            have hWait : throttled env r.clock.checkedAt r.scope s = true := by
              simpa [hIp, hLocal] using hSame
            cases handle_effect env s r with
            | refused _ hStatus hState hVerified => rw [hState]
            | failed hFree => simp [hFree] at hWait
            | signedIn hFree => simp [hFree] at hWait
            | neither hFree => simp [hFree] at hWait
      · exact lookup_handle_of (Or.inl (Ne.symm hIp))
    rcases h with hPassed | ⟨record, hLookup, hLocked⟩
    · exact Or.inl (hPassed.trans (hStart.trans hClock))
    · exact Or.inr ⟨record, hKept.trans hLookup, hLocked⟩

/-- Over any requests in between, a verification waits for the deadline. -/
theorem Guarded.waits {between after : List Request} {attempt : Request}
    (h : Guarded ip deadline start s)
    (hOrder : InOrder start (between ++ attempt :: after)) (hIp : clientIp attempt.scope = ip)
    (hRemote : isLoopbackSource env attempt.scope = false)
    (hVerified : (WattPost.Auth.handle env attempt (served env s between)).verified = true) :
    deadline ≤ attempt.clock.verifiedAt := by
  induction between generalizing s start with
  | nil =>
      obtain ⟨hStart, hChecked, -⟩ := hOrder
      have hFree : throttled env attempt.clock.checkedAt attempt.scope s = false := by
        cases handle_effect env s attempt with
        | refused _ hStatus hState hRefused =>
            exact absurd (hRefused.symm.trans hVerified) (by simp)
        | failed hFree => exact hFree
        | signedIn hFree => exact hFree
        | neither hFree => exact hFree
      exact (h.passed hStart hIp hRemote hFree).trans hChecked
  | cons r rest ih =>
      obtain ⟨hStart, hChecked, hRecorded, hRest⟩ := hOrder
      exact ih (h.handle hStart (hChecked.trans hRecorded)) hRest hVerified

theorem InOrder.tail {requests rest : List Request}
    (h : InOrder start (requests ++ r :: rest)) : InOrder r.clock.recordedAt rest := by
  induction requests generalizing start with
  | nil => exact h.2.2.2
  | cons first requests ih => exact ih h.2.2.2

theorem lockout_mono {j k : Nat} (h : j ≤ k) : lockout j ≤ lockout k :=
  min_le_min_left 300 (pow_le_pow_right₀ one_le_two (Nat.sub_le_sub_right h 5))

theorem served_append (env : WebEnv) (s : AuthState) (xs ys : List Request) :
    served env s (xs ++ ys) = served env (served env s xs) ys := Runs.run_append s xs ys

/-- A failure on record locks its address out. -/
theorem guarded_of_failure {k : Nat} (hFailure : recordsFailure env s r = true) (hMany : 6 ≤ k)
    (hStreak : k ≤ recorded (handle env r s).state (clientIp r.scope)) :
    Guarded (clientIp r.scope) (r.clock.recordedAt + lockout k) r.clock.recordedAt
      (handle env r s).state := by
  obtain ⟨record, hLookup, -, hLocked⟩ := lookup_of_recordsFailure hFailure
  have hCount : k ≤ record.n := by
    rw [recorded, hLookup] at hStreak
    exact hStreak
  refine Or.inr ⟨record, hLookup, ?_⟩
  rw [hLocked (by omega)]
  exact add_le_add_right (lockout_mono hCount) _

end Deadlines

/-- Whatever the addresses, the passwords and the state before: after six and more failures in
a row an address waits, a refused request does nothing, and no address locks another. -/
theorem login_throttling (env : WebEnv) (s : AuthState) (start : ℚ) (requests : List Request)
    (hOrder : InOrder start requests) : Throttles env s requests := by
  constructor
  · intro before failure between attempt after hSplit hFailure hMany hIp hRemote hVerified
    rw [hSplit] at hOrder
    have hStreak : streak env s (clientIp failure.scope) (before ++ [failure]) ≤
        recorded (served env s (before ++ [failure])) (clientIp failure.scope) :=
      streakFrom_le (Nat.zero_le _) (before ++ [failure])
    rw [served_append] at hStreak
    have hGuarded := guarded_of_failure hFailure hMany hStreak
    rw [served_append] at hVerified
    exact hGuarded.waits hOrder.tail hIp hRemote hVerified
  · intro before r after _ hStatus
    cases handle_effect env (served env s before) r with
    | refused _ _ hState hVerified => exact ⟨hVerified, hState⟩
    | failed _ hOther => omega
    | signedIn _ hOther => omega
    | neither _ hOther => omega
  · intro before r after _ ip hOther now
    rw [loginLockedFor, loginLockedFor, lookup_handle_of (Or.inl hOther)]

/-- A guess from the network, at the time it is made. -/
def guess (seconds : ℚ) (password : String) : Request where
  scope :=
    { type := "http"
      client := some "192.168.1.66"
      method := "POST"
      path := "/api/login"
      queryString := ""
      headers := [] }
  clock := ⟨seconds, seconds, seconds + 1 / 2⟩
  attempt := .login ⟨.text password, .missing, .missing⟩ "session"

def claimed : AuthState :=
  { AuthState.empty with passwordHash := some "$argon2id$right\n" }

/-- Six wrong guesses, one that comes too early, and one after the two seconds. -/
def guesses : List Request :=
  [1, 2, 3, 4, 5, 6].map (guess · "wrong") ++ [guess 7 "right", guess 9 "right"]

theorem login_throttling_guesses :
    Throttles defaultEnv claimed guesses ∧
      streak defaultEnv claimed "192.168.1.66" (guesses.take 6) = 6 ∧
      (handle defaultEnv (guess 7 "right") (served defaultEnv claimed (guesses.take 6))).verified =
        false ∧
      (handle defaultEnv (guess 9 "right") (served defaultEnv claimed (guesses.take 7))).verified =
        true := by
  have hOrder : InOrder 0 guesses := by
    simp only [guesses, guess, List.map_cons, List.map_nil, List.cons_append, List.nil_append,
      InOrder]
    norm_num
  exact ⟨login_throttling defaultEnv claimed 0 guesses hOrder, by decide +kernel,
    by decide +kernel, by decide +kernel⟩

end WattPost.Auth
