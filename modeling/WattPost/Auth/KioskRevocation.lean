import WattPost.Auth.Endpoints

/-! Revoking a kiosk token. A wall display exchanges its token for a session
once; revoking the token takes it out of the token file and leaves the sessions
that were exchanged for it. -/
namespace WattPost.Auth

open Keyed

section Exchange

variable (env : WebEnv) (s : AuthState)

/-- The identifier of the kiosk token that a claim is accepted for. -/
def claimedToken (body : Body) : Option String :=
  ((body.token.orElse "").filter (· != "")).bind fun tok =>
    (s.kioskTokens.find? (fun t => t.hash == kioskHash env tok)).map KioskToken.id

/-- The session that an event issues. -/
def issued : Event → Option String
  | .doLogin now scope body token => (doLogin env now scope body token s).1.sessionCookie
  | .firstRunPassword now scope body salt token =>
      (firstRunPassword env now scope body salt token s).1.sessionCookie
  | .kioskClaim now body token => (kioskClaim env now body token s).1.sessionCookie
  | .authCallback _ (.ok _) token => some token
  | _ => none

/-- Some event of the run issues the session. -/
def IssuedIn (events : List Event) (token : String) : Prop :=
  ∃ before e after, events = before ++ e :: after ∧
    issued env (Runs.run (step env) s before) e = some token

/-- The run issued the session in exchange for this kiosk token, and not again
since. -/
def ExchangedFor (events : List Event) (token tid : String) : Prop :=
  ∃ before now body after, events = before ++ .kioskClaim now body token :: after ∧
    claimedToken env (Runs.run (step env) s before) body = some tid ∧
    ¬ IssuedIn env (Runs.run (step env) s (before ++ [.kioskClaim now body token])) after token

/-- A claim gets a session exactly when there is a token it is accepted for. -/
theorem issued_kioskClaim (now : ℚ) (body : Body) (token : String) :
    issued env s (.kioskClaim now body token) =
      if (claimedToken env s body).isSome then some token else none := by
  simp only [issued, kioskClaim]
  split
  case h_1 hTok => simp [claimedToken, hTok]
  case h_2 tok hTok =>
    by_cases hEmpty : tok = ""
    · simp [claimedToken, hTok, hEmpty, verifyKioskToken]
    · have hVerify : verifyKioskToken env s tok =
          (s.kioskTokens.find? (fun t => t.hash == kioskHash env tok)).isSome := by
        rw [verifyKioskToken, if_neg hEmpty, Bool.eq_iff_iff, List.any_eq_true, List.find?_isSome]
      have hClaimed : claimedToken env s body =
          (s.kioskTokens.find? (fun t => t.hash == kioskHash env tok)).map KioskToken.id := by
        simp [claimedToken, hTok, hEmpty, Option.filter]
      rw [hVerify, hClaimed, Option.isSome_map]
      cases s.kioskTokens.find? (fun t => t.hash == kioskHash env tok) with
      | none => rfl
      | some t => rfl

end Exchange

section Records

/-- The record of a session is in memory or on disk. -/
def Held (s : AuthState) (c : String) (r : Session) : Prop :=
  s.sessions.lookup c = some r ∨ s.sessionsFile.lookup c = some r

/-- From the first state to the second no session is issued but this one, and
the kiosk tokens stay. -/
structure IssuesOnly (cookie : Option String) (s s' : AuthState) : Prop where
  held : ∀ c r, Held s' c r → Held s c r ∨ cookie = some c
  tokens : s'.kioskTokens = s.kioskTokens

variable {env : WebEnv} {s s' s'' : AuthState} {now : ℚ} {token : String} {cookie : Option String}

/-- Only the two copies of the sessions and the token file count. -/
theorem IssuesOnly.of_eq (hMemory : s'.sessions = s.sessions)
    (hDisk : s'.sessionsFile = s.sessionsFile) (hTokens : s'.kioskTokens = s.kioskTokens) :
    IssuesOnly cookie s s' := by
  refine ⟨fun c r h => Or.inl ?_, hTokens⟩
  rwa [Held, hMemory, hDisk] at h

theorem IssuesOnly.refl (s : AuthState) : IssuesOnly cookie s s := .of_eq rfl rfl rfl

theorem IssuesOnly.trans (h : IssuesOnly none s s') (h' : IssuesOnly cookie s' s'') :
    IssuesOnly cookie s s'' := by
  refine ⟨fun c r hHeld => ?_, h'.tokens.trans h.tokens⟩
  rcases h'.held c r hHeld with hBefore | hNew
  · exact Or.inl ((h.held c r hBefore).resolve_right (by simp))
  · exact Or.inr hNew

theorem IssuesOnly.branch {α : Type} {p : Prop} [Decidable p] {x y : α × AuthState}
    (hThen : IssuesOnly cookie s x.2) (hElse : IssuesOnly cookie s y.2) :
    IssuesOnly cookie s (if p then x else y).2 := by
  split
  · exact hThen
  · exact hElse

theorem issuesOnly_filterKeys (p : String → Bool) :
    IssuesOnly cookie s
      (persistSessionsToDisk { s with sessions := s.sessions.filterKeys p }) := by
  refine ⟨fun c r h => Or.inl (Or.inl ?_), rfl⟩
  have hLookup : (s.sessions.filterKeys p).lookup c = some r := h.elim id id
  rw [Table.lookup_filterKeys] at hLookup
  split at hLookup
  · exact hLookup
  · cases hLookup

theorem issuesOnly_gcSessions : IssuesOnly cookie s (gcSessions now s) := by
  unfold gcSessions
  dsimp only
  split
  · exact .refl s
  · exact issuesOnly_filterKeys _

theorem issuesOnly_issueSession {origin : Origin} :
    IssuesOnly (some token) s (issueSession now token origin s) := by
  have hOld : IssuesOnly (some token) s (gcSessions now s) := issuesOnly_gcSessions
  refine ⟨fun c r h => ?_, hOld.tokens⟩
  have hLookup : ((gcSessions now s).sessions.insert token ⟨now, origin⟩).lookup c = some r :=
    h.elim id id
  by_cases hSame : token = c
  · exact Or.inr (congrArg some hSame)
  · rw [Table.lookup_insert, if_neg (Ne.symm hSame)] at hLookup
    exact hOld.held c r (Or.inl hLookup)

theorem issuesOnly_revokeSession : IssuesOnly cookie s (revokeSession token s) := by
  unfold revokeSession
  split
  · exact issuesOnly_filterKeys _
  · exact .refl s

theorem issuesOnly_sessionRecord (presented : Option String) :
    IssuesOnly cookie s (sessionRecord now presented s).2 := by
  unfold sessionRecord
  split
  · exact .refl s
  · split
    · exact .refl s
    · split
      · exact issuesOnly_filterKeys _
      · exact .refl s

theorem issuesOnly_sessionOrigin (presented : Option String) :
    IssuesOnly cookie s (sessionOrigin now presented s).2 := issuesOnly_sessionRecord presented

theorem issuesOnly_kioskGrant (scope : Scope) :
    IssuesOnly cookie s (kioskGrant env now scope s).2 := by
  have hOrigin : IssuesOnly cookie s (sessionOrigin now (cookieToken scope) s).2 :=
    issuesOnly_sessionOrigin _
  unfold kioskGrant
  dsimp only
  generalize sessionOrigin now (cookieToken scope) s = origin at hOrigin ⊢
  exact .branch (.refl s) (.branch hOrigin hOrigin)

theorem issuesOnly_isSessionValid (presented : Option String) :
    IssuesOnly cookie s (isSessionValid now presented s).2 := issuesOnly_sessionRecord presented

theorem issuesOnly_localAuth (scope : Scope) :
    IssuesOnly cookie s (localAuth env now scope s).2 := by
  have hGrant : IssuesOnly none s (kioskGrant env now scope s).2 := issuesOnly_kioskGrant scope
  have hRecord : IssuesOnly cookie (kioskGrant env now scope s).2
      (isSessionValid now (cookieToken scope) (kioskGrant env now scope s).2).2 :=
    issuesOnly_isSessionValid _
  have hCheck := hGrant.trans hRecord
  have hGranted : IssuesOnly cookie s (kioskGrant env now scope s).2 := issuesOnly_kioskGrant scope
  unfold localAuth
  dsimp only
  -- Both results stay opaque, else they are evaluated while the branches are matched.
  generalize isSessionValid now (cookieToken scope) (kioskGrant env now scope s).2 = checked
    at hCheck ⊢
  generalize kioskGrant env now scope s = granted at hGranted ⊢
  refine .branch (.refl s) (.branch (.refl s) (.branch ?_ ?_))
  · exact .branch (.refl s) (.refl s)
  · exact .branch (.refl s) (.branch (.refl s) (.branch hGranted (.branch hCheck hCheck)))

theorem issuesOnly_isFirstRun : IssuesOnly cookie s (isFirstRun env s).2 := by
  unfold isFirstRun
  repeat' split
  all_goals exact .of_eq rfl rfl rfl

theorem issuesOnly_countFailure (scope : Scope) :
    IssuesOnly cookie s (countFailure env now scope s) := by
  unfold countFailure
  split <;> exact .of_eq rfl rfl rfl

/-- A session that comes back at a start is in the file and not too old. -/
theorem lookup_loadSessions {file : Table String Session} {c : String} {r : Session} :
    (loadSessionsFromDisk now file).lookup c = some r ↔
      file.lookup c = some r ∧ expired now r = false := by
  rw [loadSessionsFromDisk, Table.lookup_insertAll_sorted (file.sorted.filter _),
    List.mem_filter, Table.lookup_eq_some_iff, Bool.not_eq_true']

/-- A start loads the sessions; making a password leaves them alone. -/
theorem sessions_restart (env : WebEnv) (now : ℚ) (salt plaintext : String) (s : AuthState) :
    (restart env now salt plaintext s).sessions = loadSessionsFromDisk now s.sessionsFile := by
  unfold restart ensureFirstBootPassword
  repeat' split
  all_goals rfl

theorem issuesOnly_restart (salt plaintext : String) :
    IssuesOnly cookie s (restart env now salt plaintext s) := by
  have hDisk : (restart env now salt plaintext s).sessionsFile = s.sessionsFile ∧
      (restart env now salt plaintext s).kioskTokens = s.kioskTokens := by
    unfold restart ensureFirstBootPassword
    repeat' split
    all_goals exact ⟨rfl, rfl⟩
  refine ⟨?_, hDisk.2⟩
  rintro c r (h | h)
  · rw [sessions_restart, lookup_loadSessions] at h
    exact Or.inl (Or.inr h.1)
  · rw [hDisk.1] at h
    exact Or.inl (Or.inr h)

end Records

section Steps

variable {env : WebEnv} {s : AuthState} {c tid : String} {r : Session}

theorem issuesOnly_doLogin (now : ℚ) (scope : Scope) (body : Body) (token : String) :
    IssuesOnly (doLogin env now scope body token s).1.sessionCookie s
      (doLogin env now scope body token s).2 := by
  unfold doLogin
  split
  · exact .refl s
  · split
    · exact issuesOnly_countFailure scope
    · have hReset : IssuesOnly none s (clearFirstRunMarker
          (if isLoopbackSource env scope then s else recordLoginSuccess (clientIp scope) s)) := by
        split <;> exact .of_eq rfl rfl rfl
      exact hReset.trans issuesOnly_issueSession

theorem issuesOnly_firstRunPassword (now : ℚ) (scope : Scope) (body : Body) (salt token : String) :
    IssuesOnly (firstRunPassword env now scope body salt token s).1.sessionCookie s
      (firstRunPassword env now scope body salt token s).2 := by
  have hAsked : IssuesOnly none s (isFirstRun env s).2 := issuesOnly_isFirstRun
  unfold firstRunPassword
  split
  · exact .refl s
  · dsimp only
    split
    · exact hAsked.trans (issuesOnly_countFailure scope)
    · split
      case h_1 => exact issuesOnly_isFirstRun
      case h_2 pw _ =>
        have hSet : IssuesOnly none (isFirstRun env s).2
            (setUserWebPassword env salt pw (isFirstRun env s).2) := .of_eq rfl rfl rfl
        exact (hAsked.trans hSet).trans issuesOnly_issueSession

theorem issuesOnly_kioskClaim (now : ℚ) (body : Body) (token : String) :
    IssuesOnly (kioskClaim env now body token s).1.sessionCookie s
      (kioskClaim env now body token s).2 := by
  unfold kioskClaim
  split
  · exact .refl s
  · split
    · exact .refl s
    · exact issuesOnly_issueSession

theorem issuesOnly_authStatus (now : ℚ) (presented : Option String) :
    IssuesOnly none s (authStatus env now presented s).2 := by
  have hRecord : IssuesOnly none s (sessionRecord now presented s).2 :=
    issuesOnly_sessionRecord presented
  unfold authStatus
  dsimp only
  split
  · exact hRecord
  · exact hRecord.trans issuesOnly_isFirstRun

/-- The event makes or revokes a kiosk token. -/
def Event.editsTokens : Event → Prop
  | .kioskTokensCreate _ _ _ _ _ => True
  | .kioskTokensRevoke _ => True
  | _ => False

/-- An event issues the session that it answers with and no other. -/
theorem issuesOnly_step (env : WebEnv) (s : AuthState) {e : Event} (hTokens : ¬ e.editsTokens) :
    IssuesOnly (issued env s e) s (step env s e) := by
  cases e with
  | request now scope => exact issuesOnly_localAuth scope
  | doLogin now scope body token => exact issuesOnly_doLogin now scope body token
  | firstRunPassword now scope body salt token =>
      exact issuesOnly_firstRunPassword now scope body salt token
  | kioskClaim now body token => exact issuesOnly_kioskClaim now body token
  | authCallback now checked token =>
      cases checked with
      | error response => exact .refl s
      | ok returnTo => exact issuesOnly_issueSession
  | doLogout presented =>
      simp only [step, doLogout]
      split
      · exact issuesOnly_revokeSession
      · exact .refl s
  | loginPage queryString => exact issuesOnly_isFirstRun
  | authStatus now presented => exact issuesOnly_authStatus now presented
  | rotateWebPassword salt plaintext => exact .of_eq rfl rfl rfl
  | kioskTokensCreate now name skin tid plaintext => exact absurd trivial hTokens
  | kioskTokensRevoke tid => exact absurd trivial hTokens
  | restart now salt plaintext => exact issuesOnly_restart salt plaintext

theorem step_kioskTokensCreate (env : WebEnv) (s : AuthState) (now : ℚ)
    (name skin tid plaintext : String) :
    step env s (.kioskTokensCreate now name skin tid plaintext) = s ∨
      step env s (.kioskTokensCreate now name skin tid plaintext) =
        createKioskToken env name (PyText.lower (PyText.strip skin)) tid plaintext now s := by
  simp only [step, kioskTokensCreate]
  split
  · exact Or.inl rfl
  · exact Or.inr rfl

/-- The token file without the revoked tokens, whether there were any or not. -/
theorem step_kioskTokensRevoke (tid : String) :
    step env s (.kioskTokensRevoke tid) =
      { s with kioskTokens := s.kioskTokens.filter (fun t => t.id != tid) } := by
  simp only [step, kioskTokensRevoke, revokeKioskToken]
  by_cases hLength : (s.kioskTokens.filter (fun t => t.id != tid)).length = s.kioskTokens.length
  · have hAll := List.filter_eq_self.mpr (List.length_filter_eq_length_iff.mp hLength)
    simp [hAll]
  · simp [hLength]

/-- After an event, a session was there before it or is the one it issues. -/
theorem held_step {e : Event} (h : Held (step env s e) c r) :
    Held s c r ∨ issued env s e = some c := by
  by_cases hTokens : e.editsTokens
  · cases e with
    | kioskTokensCreate now name skin tid plaintext =>
        rcases step_kioskTokensCreate env s now name skin tid plaintext with hEq | hEq
        all_goals
          rw [hEq] at h
          exact Or.inl h
    | kioskTokensRevoke tid =>
        rw [step_kioskTokensRevoke] at h
        exact Or.inl h
    | _ => exact hTokens.elim
  · exact (issuesOnly_step env s hTokens).held c r h

/-- After a run, a session was there before it or the run issued it. -/
theorem held_run {events : List Event} (h : Held (Runs.run (step env) s events) c r) :
    Held s c r ∨ IssuedIn env s events c := by
  induction events using List.reverseRecOn with
  | nil => exact Or.inl h
  | append_singleton events e ih =>
      rw [Runs.run_concat] at h
      rcases held_step h with hBefore | hIssued
      · refine (ih hBefore).imp_right ?_
        rintro ⟨before, e', after, rfl, hAt⟩
        exact ⟨before, e', after ++ [e], by simp, hAt⟩
      · exact Or.inr ⟨events, e, [], rfl, hIssued⟩

end Steps

section Tokens

variable {env : WebEnv} {s : AuthState} {tid : String}

/-- No kiosk token has this identifier. -/
def NoToken (s : AuthState) (tid : String) : Prop := ∀ t ∈ s.kioskTokens, t.id ≠ tid

/-- The event gives the identifier to a new kiosk token. -/
def Event.creates (tid : String) : Event → Prop
  | .kioskTokensCreate _ _ _ drawn _ => drawn = tid
  | _ => False

theorem noToken_revoked : NoToken (step env s (.kioskTokensRevoke tid)) tid := by
  intro t hMem
  rw [step_kioskTokensRevoke] at hMem
  simpa using (List.mem_filter.mp hMem).2

/-- A token comes into the file under the identifier drawn for it. -/
theorem noToken_step {e : Event} (h : NoToken s tid) (hNew : ¬ e.creates tid) :
    NoToken (step env s e) tid := by
  by_cases hTokens : e.editsTokens
  · cases e with
    | kioskTokensCreate now name skin drawn plaintext =>
        rcases step_kioskTokensCreate env s now name skin drawn plaintext with hEq | hEq
        · rwa [hEq]
        · rw [hEq]
          intro t hMem
          rcases List.mem_append.mp hMem with hOld | hAdded
          · exact h t hOld
          · rw [List.mem_singleton.mp hAdded]
            exact hNew
    | kioskTokensRevoke other =>
        rw [step_kioskTokensRevoke]
        exact fun t hMem => h t (List.mem_filter.mp hMem).1
    | _ => exact hTokens.elim
  · rw [NoToken, (issuesOnly_step env s hTokens).tokens]
    exact h

theorem noToken_run {events : List Event} (h : NoToken s tid)
    (hNew : ∀ e ∈ events, ¬ e.creates tid) : NoToken (Runs.run (step env) s events) tid := by
  induction events generalizing s with
  | nil => exact h
  | cons e events ih =>
      exact ih (noToken_step h (hNew e List.mem_cons_self))
        (fun e' hMem => hNew e' (List.mem_cons_of_mem _ hMem))

/-- A claim is accepted for a token that is in the file. -/
theorem claimedToken_ne {body : Body} (h : NoToken s tid) :
    claimedToken env s body ≠ some tid := by
  intro hClaimed
  obtain ⟨tok, _, hFound⟩ := Option.bind_eq_some_iff.mp hClaimed
  obtain ⟨t, hFind, hId⟩ := Option.map_eq_some_iff.mp hFound
  exact h t (List.mem_of_find?_eq_some hFind) hId

end Tokens

section Revocation

variable (env : WebEnv) (s : AuthState) (before : List Event) (tid : String) (returned : ℚ)

/-- The revocation of a kiosk token that comes after these events and returns
at this time takes effect: whatever happens next, no session exchanged for the
token before is accepted, and nothing is exchanged for it again. -/
structure RevocationEffective : Prop where
  sessions : ∀ (after : List Event) (token : String) (now : ℚ),
    ExchangedFor env s before token tid →
    ¬ IssuedIn env (Runs.run (step env) s (before ++ [.kioskTokensRevoke tid])) after token →
    returned ≤ now →
    (isSessionValid now (some token)
      (Runs.run (step env) s (before ++ .kioskTokensRevoke tid :: after))).1 = false
  claims : ∀ (after : List Event) (body : Body), (∀ e ∈ after, ¬ e.creates tid) →
    claimedToken env (Runs.run (step env) s (before ++ .kioskTokensRevoke tid :: after)) body ≠
      some tid

/-- Every session that was exchanged for the token is gone from memory and disk
at the time of the revocation, or past its thirty days. -/
def SessionsOver : Prop :=
  ∀ token r, token ≠ "" → ExchangedFor env s before token tid →
    Held (Runs.run (step env) s before) token r → sessionTtlSeconds < returned - r.issuedAt

variable {env s before tid returned}

theorem isSessionValid_eq_true {t : AuthState} {token : String} {now : ℚ} :
    (isSessionValid now (some token) t).1 = true ↔
      token ≠ "" ∧ ∃ r, t.sessions.lookup token = some r ∧ expired now r = false := by
  rw [isSessionValid_fst, liveSession]
  by_cases hEmpty : token = ""
  · simp [truthy, hEmpty]
  · cases hFound : t.sessions.lookup token with
    | none => simp [truthy, hEmpty, hFound]
    | some r => cases hOld : expired now r <;> simp [truthy, hEmpty, hFound, hOld, Option.filter]

theorem expired_eq_false {now : ℚ} {r : Session} (h : ¬ sessionTtlSeconds < now - r.issuedAt) :
    expired now r = false := by
  simp [expired, h]

theorem not_issuedIn_nil (token : String) : ¬ IssuedIn env s [] token := by
  rintro ⟨earlier, e, later, hSplit, _⟩
  cases earlier <;> cases hSplit

theorem not_issuedIn_restart (now : ℚ) (salt plaintext token : String) :
    ¬ IssuedIn env s [.restart now salt plaintext] token := by
  rintro ⟨earlier, e, later, hSplit, hIssued⟩
  cases earlier with
  | nil =>
      cases hSplit
      cases hIssued
  | cons first earlier =>
      have hRest := (List.cons.inj hSplit).2
      cases earlier <;> cases hRest

/-- The state in which the revocation returns. -/
theorem run_revoked (after : List Event) :
    Runs.run (step env) s (before ++ .kioskTokensRevoke tid :: after) =
      Runs.run (step env)
        (step env (Runs.run (step env) s before) (.kioskTokensRevoke tid)) after := by
  rw [Runs.run_append]
  rfl

/-- A session that the revocation leaves behind is accepted, at once or after
the next start. -/
theorem sessionsOver_of_effective (h : RevocationEffective env s before tid returned) :
    SessionsOver env s before tid returned := by
  intro token r hToken hExchanged hHeld
  by_contra hYoung
  have hLive := expired_eq_false hYoung
  rcases hHeld with hMemory | hDisk
  · have hRefused := h.sessions [] token returned hExchanged (not_issuedIn_nil token) le_rfl
    rw [run_revoked, Runs.run_nil, step_kioskTokensRevoke, ← Bool.not_eq_true,
      isSessionValid_eq_true] at hRefused
    exact hRefused ⟨hToken, r, hMemory, hLive⟩
  · have hRefused := h.sessions [.restart returned "" ""] token returned hExchanged
      (not_issuedIn_restart returned "" "" token) le_rfl
    rw [run_revoked, step_kioskTokensRevoke, ← Bool.not_eq_true, isSessionValid_eq_true]
      at hRefused
    refine hRefused ⟨hToken, r, ?_, hLive⟩
    exact (congrArg (Table.lookup · token) (sessions_restart env returned "" "" _)).trans
      (lookup_loadSessions.mpr ⟨hDisk, hLive⟩)

/-- What is accepted later was held when the revocation returned, and has the
same record. -/
theorem effective_of_sessionsOver (h : SessionsOver env s before tid returned) :
    RevocationEffective env s before tid returned := by
  refine ⟨?_, ?_⟩
  · intro after token now hExchanged hSame hLater
    rw [← Bool.not_eq_true, isSessionValid_eq_true]
    rintro ⟨hToken, r, hFound, hLive⟩
    have hHeld : Held (Runs.run (step env) s (before ++ .kioskTokensRevoke tid :: after)) token r :=
      Or.inl hFound
    rw [run_revoked] at hHeld
    rw [Runs.run_concat] at hSame
    have hReturned := (held_run hHeld).resolve_right hSame
    rw [step_kioskTokensRevoke] at hReturned
    have hOver := h token r hToken hExchanged hReturned
    have hExpired : expired now r = true := by
      simp only [expired, decide_eq_true_eq]
      linarith
    rw [hExpired] at hLive
    cases hLive
  · intro after body hNew
    rw [run_revoked]
    exact claimedToken_ne (noToken_run noToken_revoked hNew)

/-- Revoking a kiosk token takes effect exactly when no session exchanged for it
is left. -/
theorem revocation_effective_iff (env : WebEnv) (s : AuthState) (before : List Event)
    (tid : String) (returned : ℚ) :
    RevocationEffective env s before tid returned ↔ SessionsOver env s before tid returned :=
  ⟨sessionsOver_of_effective, effective_of_sessionsOver⟩

/-- A display that claimed its token before the revocation goes on reading. -/
theorem revoked_display_still_reads :
    ¬ RevocationEffective defaultEnv .empty
      [.kioskTokensCreate 0 "Wall" "" "t1" "secret",
        .kioskClaim 10 ⟨.missing, .missing, .text "secret"⟩ "cookie"] "t1" 20 := by
  intro h
  have hRefused := h.sessions [] "cookie" 30
    ⟨[.kioskTokensCreate 0 "Wall" "" "t1" "secret"], 10, _, [], rfl, by decide,
      not_issuedIn_nil "cookie"⟩ (not_issuedIn_nil "cookie") (by norm_num)
  revert hRefused
  decide +kernel

end Revocation

end WattPost.Auth
