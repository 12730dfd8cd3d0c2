import WattPost.Auth.Endpoints

/-! What a kiosk credential opens. The middleware grants the kiosk allow-list
to a kiosk session, and then lets any live session through. -/
namespace WattPost.Auth

open PyText

section Scope

variable (env : WebEnv) (now : ℚ) (scope : Scope) (s : AuthState)

/-- Every live session that the request presents is a kiosk session. -/
def KioskOnly : Prop :=
  ∀ token ∈ presentedTokens scope,
    (liveSession s now (some token)).all (fun record => record.origin == .kiosk) = true

/-- Where a kiosk credential may go: the kiosk allow-list, and what needs no
credential at all. -/
def InKioskScope : Prop :=
  kioskScopeAllows (upper scope.method) scope.path = true ∨ isAnonymousPath scope.path = true ∨
    env.publicView = true ∧ publicViewAllows (upper scope.method) scope.path = true

/-- The session cookie that the middleware reads is a live kiosk session. -/
def ReadsKioskSession : Prop :=
  (liveSession s now (cookieToken scope)).map Session.origin = some .kiosk

instance : Decidable (KioskOnly now scope s) := by
  unfold KioskOnly
  infer_instance

instance : Decidable (InKioskScope env scope) := by
  unfold InKioskScope
  infer_instance

instance : Decidable (ReadsKioskSession now scope s) := by
  unfold ReadsKioskSession
  infer_instance

variable {env now scope s}

/-- The kiosk grant keeps to the allow-list. -/
theorem inKioskScope_of_kioskGrant (h : (kioskGrant env now scope s).1 = true) :
    InKioskScope env scope := by
  unfold kioskGrant at h
  cases hAllow : kioskScopeAllows (upper scope.method) scope.path with
  | true => exact Or.inl hAllow
  | false => simp [hAllow] at h

theorem readsKioskSession_of_live (hKiosk : KioskOnly now scope s)
    (hLive : (liveSession s now (cookieToken scope)).isSome = true) :
    ReadsKioskSession now scope s := by
  obtain ⟨record, hRecord⟩ := Option.isSome_iff_exists.mp hLive
  cases hToken : cookieToken scope with
  | none =>
      rw [hToken] at hRecord
      simp [liveSession, truthy] at hRecord
  | some token =>
      have hOrigin := hKiosk token (cookieToken_presented hToken)
      rw [← hToken, hRecord] at hOrigin
      simpa [ReadsKioskSession, hRecord] using hOrigin

theorem isSome_of_readsKioskSession (h : ReadsKioskSession now scope s) :
    (liveSession s now (cookieToken scope)).isSome = true := by
  unfold ReadsKioskSession at h
  cases hLive : liveSession s now (cookieToken scope) with
  | none => simp [hLive] at h
  | some record => rfl

end Scope

/-- A request with kiosk sessions only stays in the kiosk scope unless the
middleware finds a kiosk session in it: then it is forwarded anywhere. -/
theorem kiosk_confined_iff (env : WebEnv) (s₀ : AuthState) (events : List Event) (now : ℚ)
    (scope : Scope) (hHttp : scope.type = "http") (hDemo : env.demo = false)
    (hRemote : isLoopbackSource env scope = false)
    (hKiosk : KioskOnly now scope (Runs.run (step env) s₀ events)) :
    ((localAuth env now scope (Runs.run (step env) s₀ events)).1 = .forward →
        InKioskScope env scope) ↔
      InKioskScope env scope ∨ passwordIsSet (Runs.run (step env) s₀ events) = false ∨
        ¬ReadsKioskSession now scope (Runs.run (step env) s₀ events) := by
  generalize Runs.run (step env) s₀ events = s at hKiosk ⊢
  rw [localAuth_forward_iff env now scope s hHttp]
  simp only [hDemo, hRemote, Bool.false_eq_true, false_or]
  constructor
  · intro hConfined
    by_contra hNot
    simp only [not_or, not_not, Bool.not_eq_false] at hNot
    obtain ⟨hOutside, hSet, hReads⟩ := hNot
    exact hOutside (hConfined (Or.inr ⟨hSet, Or.inr (Or.inr (isSome_of_readsKioskSession hReads))⟩))
  · rintro hWhen (hAnon | ⟨hSet, hPublic | hGrant | hLive⟩)
    · exact Or.inr (Or.inl hAnon)
    · exact Or.inr (Or.inr hPublic)
    · exact inKioskScope_of_kioskGrant hGrant
    · rcases hWhen with hIn | hUnset | hReads
      · exact hIn
      · rw [hUnset] at hSet
        cases hSet
      · exact absurd (readsKioskSession_of_live hKiosk hLive) hReads

/-- First boot, a kiosk link, and a wall display that claims it. -/
def wallDisplay : List Event :=
  [.restart 0 "salt" "first-boot-pass", .kioskTokensCreate 10 "Wall" "" "t1" "kiosk-secret",
    .kioskClaim 20 ⟨.missing, .missing, .text "kiosk-secret"⟩ "kiosk-session"]

/-- A request of the wall display. -/
def displayRequest (method path : String) : Scope where
  type := "http"
  client := some "192.168.1.50"
  method := method
  path := path
  queryString := ""
  headers := [("cookie", "wp_local_session=kiosk-session")]

/-- The display reads the snapshot, which is in its scope. -/
theorem kiosk_confined_snapshot :
    KioskOnly 30 (displayRequest "GET" "/api/snapshot")
        (Runs.run (step defaultEnv) .empty wallDisplay) ∧
      (localAuth defaultEnv 30 (displayRequest "GET" "/api/snapshot")
        (Runs.run (step defaultEnv) .empty wallDisplay)).1 = .forward ∧
      InKioskScope defaultEnv (displayRequest "GET" "/api/snapshot") := by
  have hKiosk : KioskOnly 30 (displayRequest "GET" "/api/snapshot")
      (Runs.run (step defaultEnv) .empty wallDisplay) := by decide +kernel
  have hForward : (localAuth defaultEnv 30 (displayRequest "GET" "/api/snapshot")
      (Runs.run (step defaultEnv) .empty wallDisplay)).1 = .forward := by decide +kernel
  have hConfined := kiosk_confined_iff defaultEnv .empty wallDisplay 30
    (displayRequest "GET" "/api/snapshot") rfl rfl (by decide) hKiosk
  exact ⟨hKiosk, hForward, hConfined.mpr (Or.inl (by decide)) hForward⟩

/-- The display resets the password of the appliance: the last check of the
middleware takes its session for a login. -/
theorem display_rotates_password :
    defaultEnv.demo = false ∧
      isLoopbackSource defaultEnv (displayRequest "POST" "/api/system/web-password/rotate") =
        false ∧
      KioskOnly 30 (displayRequest "POST" "/api/system/web-password/rotate")
        (Runs.run (step defaultEnv) .empty wallDisplay) ∧
      (localAuth defaultEnv 30 (displayRequest "POST" "/api/system/web-password/rotate")
        (Runs.run (step defaultEnv) .empty wallDisplay)).1 = .forward ∧
      ¬InKioskScope defaultEnv (displayRequest "POST" "/api/system/web-password/rotate") := by
  decide +kernel

end WattPost.Auth
