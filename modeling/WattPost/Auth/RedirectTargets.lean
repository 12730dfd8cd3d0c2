import WattPost.Auth.Endpoints
import WattPost.Lib.WebUrl

/-! Where a browser ends up after a login: the page that the login was asked to return to,
read as the browser reads it. -/
namespace WattPost.Auth

open PyText

section ReturnTo

/-- `_safe_return_to`. -/
def safeReturnTo : Option String → String
  | none => "/"
  | some raw =>
      if raw = "" then "/"
      else if !startsWith raw "/" || startsWith raw "//" then "/"
      else raw

/-- What the flows of a login answer, asked to return to `s`. -/
inductive Target (s : String) : String → Prop
  | doLogin {env : WebEnv} {now : ℚ} {scope : Scope} {body : Body} {token r : String}
      {state : AuthState} (hNext : body.next = .text s)
      (hRedirect : (doLogin env now scope body token state).1.redirect = some r) : Target s r
  | firstRunPassword {env : WebEnv} {now : ℚ} {scope : Scope} {body : Body}
      {salt token r : String} {state : AuthState} (hNext : body.next = .text s)
      (hRedirect : (firstRunPassword env now scope body salt token state).1.redirect = some r) :
      Target s r
  | oidc : Target s (safeReturnTo (some s))

/-- A single slash, and nothing that a browser reads otherwise than it stands. -/
def Plain (s : String) : Prop :=
  ∃ rest, s.toList = '/' :: rest ∧ rest.head? ≠ some '/' ∧
    ∀ c ∈ rest, c ≠ '\\' ∧ WebUrl.isTabOrNewline c = false

/-- Behind the single slash a browser reads another one, and the address of another server. -/
def Escapes (hostParse : List Char → Option String) (base : WebUrl.Origin) (s : String) : Prop :=
  ∃ rest c more, s.toList = '/' :: rest ∧ rest.head? ≠ some '/' ∧
    (rest.rdropWhile WebUrl.isControlOrSpace).filter (!WebUrl.isTabOrNewline ·) = c :: more ∧
    WebUrl.isSlash c = true ∧
    WebUrl.ignoreSlashes hostParse base.scheme more ≠ some base

end ReturnTo

section Answers

variable {s r : String}

/-- The three checks of the page are one. -/
theorem nextOf_text {body : Body} (h : body.next = .text s) :
    nextOf body = safeReturnTo (some s) := by
  unfold nextOf safeReturnTo
  rw [h]
  dsimp only [Field.orElse]
  by_cases hEmpty : s = ""
  · rw [if_pos hEmpty, if_pos hEmpty]
    decide
  · rw [if_neg hEmpty, if_neg hEmpty]

theorem doLogin_redirect {env : WebEnv} {now : ℚ} {scope : Scope} {body : Body} {token : String}
    {state : AuthState} (h : (doLogin env now scope body token state).1.redirect = some r) :
    r = nextOf body := by
  unfold doLogin at h
  -- The refusals redirect nowhere.
  split_ifs at h
  · exact absurd h nofun
  all_goals exact (Option.some.inj h).symm

theorem firstRunPassword_redirect {env : WebEnv} {now : ℚ} {scope : Scope} {body : Body}
    {salt token : String} {state : AuthState}
    (h : (firstRunPassword env now scope body salt token state).1.redirect = some r) :
    r = nextOf body := by
  unfold firstRunPassword at h
  dsimp only at h
  split_ifs at h
  · exact absurd h nofun
  · split at h
    · exact absurd h nofun
    · exact (Option.some.inj h).symm

theorem Target.eq_safeReturnTo (h : Target s r) : r = safeReturnTo (some s) := by
  cases h with
  | doLogin hNext hRedirect => exact (doLogin_redirect hRedirect).trans (nextOf_text hNext)
  | firstRunPassword hNext hRedirect =>
      exact (firstRunPassword_redirect hRedirect).trans (nextOf_text hNext)
  | oidc => rfl

/-- The page to return to is the one that was asked for, if that is a path by its first
characters, else the front page. -/
theorem safeReturnTo_cases (s : String) :
    (∃ rest, s.toList = '/' :: rest ∧ rest.head? ≠ some '/' ∧ safeReturnTo (some s) = s) ∨
    ((∀ rest, s.toList = '/' :: rest → rest.head? = some '/') ∧
      safeReturnTo (some s) = "/") := by
  cases hList : s.toList with
  | nil =>
      have hEmpty : s = "" := String.toList_eq_nil_iff.mp hList
      refine Or.inr ⟨fun rest h => absurd h (List.cons_ne_nil _ _).symm, ?_⟩
      rw [safeReturnTo, if_pos hEmpty]
  | cons c rest =>
      have hFull : s ≠ "" := fun h => by rw [h] at hList; cases hList
      have hOne : startsWith s "/" = ('/' == c) := by
        rw [startsWith, hList]
        exact Bool.and_true _
      have hTwo : startsWith s "//" = ('/' == c && decide (rest.head? = some '/')) := by
        rw [startsWith, hList]
        cases rest with
        | nil => rfl
        | cons d rest =>
            calc ('/' == c && ('/' == d && true))
                = ('/' == c && d == '/') := by rw [Bool.and_true, Bool.beq_comm (a := '/') (b := d)]
              _ = ('/' == c && decide (some d = some '/')) := by
                  simp only [Option.some.injEq]
                  rfl
      rw [safeReturnTo, if_neg hFull, hOne, hTwo]
      by_cases hSlash : c = '/'
      · subst hSlash
        by_cases hHead : rest.head? = some '/'
        · refine Or.inr ⟨fun rest' h => ?_, ?_⟩
          · cases h
            exact hHead
          · simp [hHead]
        · refine Or.inl ⟨rest, rfl, hHead, ?_⟩
          simp [hHead]
      · refine Or.inr ⟨fun rest' h => ?_, ?_⟩
        · cases h
          exact absurd rfl hSlash
        · simp [Ne.symm hSlash]

end Answers

section Browser

open WebUrl (resolve relativeSlash ignoreSlashes isSlash isControlOrSpace isTabOrNewline)

variable (hostParse : List Char → Option String) (base : WebUrl.Origin)

/-- The front page is on the appliance. -/
theorem resolve_front : resolve hostParse base "/".toList = some base := by
  have hFront : "/".toList = '/' :: [] := by decide
  rw [hFront, WebUrl.resolve_slash]
  rfl

/-- A path leads away only where it escapes. -/
theorem resolve_path_iff {s : String} {rest : List Char} (hList : s.toList = '/' :: rest)
    (hHead : rest.head? ≠ some '/') :
    resolve hostParse base s.toList = some base ↔ ¬ Escapes hostParse base s := by
  have hTail : ∀ {rest'}, s.toList = '/' :: rest' → rest' = rest := fun h =>
    (List.cons.inj (h.symm.trans hList)).2
  rw [hList, WebUrl.resolve_slash]
  cases hLeft : (rest.rdropWhile isControlOrSpace).filter (!isTabOrNewline ·) with
  | nil =>
      refine iff_of_true rfl ?_
      rintro ⟨rest', c, more, hList', -, hLeft', -⟩
      rw [hTail hList', hLeft] at hLeft'
      cases hLeft'
  | cons c more =>
      by_cases hSlash : isSlash c = true
      · have hStep : relativeSlash hostParse base (c :: more) =
            ignoreSlashes hostParse base.scheme more := if_pos hSlash
        rw [hStep]
        constructor
        · rintro hBase ⟨rest', c', more', hList', -, hLeft', -, hAway⟩
          rw [hTail hList', hLeft] at hLeft'
          cases hLeft'
          exact hAway hBase
        · intro hStays
          by_contra hAway
          exact hStays ⟨rest, c, more, hList, hHead, hLeft, hSlash, hAway⟩
      · refine iff_of_true (if_neg hSlash) ?_
        rintro ⟨rest', c', more', hList', -, hLeft', hSlash', -⟩
        rw [hTail hList', hLeft] at hLeft'
        cases hLeft'
        exact hSlash hSlash'

/-- Nothing of a plain path goes missing in front of a slash. -/
theorem Plain.not_escapes {s : String} (h : Plain s) : ¬ Escapes hostParse base s := by
  obtain ⟨rest, hList, hHead, hPlain⟩ := h
  rintro ⟨rest', c, more, hList', -, hLeft, hSlash, -⟩
  cases hList.symm.trans hList'
  have hKept : (rest.rdropWhile isControlOrSpace).filter (!isTabOrNewline ·) =
      rest.rdropWhile isControlOrSpace := by
    refine List.filter_eq_self.mpr fun d hd => ?_
    rw [(hPlain d ((List.rdropWhile_prefix _ _).subset hd)).2]
    rfl
  rw [hKept] at hLeft
  have hFirst : rest.head? = some c := by
    obtain ⟨tail, hTail⟩ := List.rdropWhile_prefix isControlOrSpace rest
    rw [← hTail, hLeft]
    rfl
  have hMem : c ∈ rest := List.mem_of_mem_head? hFirst
  rcases Bool.or_eq_true_iff.mp hSlash with hc | hc
  · exact hHead (by rw [hFirst, of_decide_eq_true hc])
  · exact (hPlain c hMem).1 (of_decide_eq_true hc)

def loginScope : Scope where
  type := "http"
  client := some "192.168.1.20"
  method := "POST"
  path := "/api/login"
  queryString := ""
  headers := []

/-- The owner logs in and asks for the page `next`. -/
def loginAt (next : String) : Response :=
  (doLogin defaultEnv 10 loginScope ⟨.text "secret", .text next, .missing⟩ "cookie"
    { AuthState.empty with passwordHash := some "$argon2id$secret\n" }).1

/-- An appliance in the house. -/
def applianceOrigin : WebUrl.Origin := ⟨.http, "wattpost.local", 8000⟩

/-- The host parser, on the names of domains. -/
def domainName (host : List Char) : Option String := some (String.ofList (host.map Char.toLower))

/-- A login ends on the appliance unless the page asked for escapes, and a plain path is kept
as it is. -/
theorem target_stays_iff {s r : String} (h : Target s r) :
    (resolve hostParse base r.toList = some base ∧ (Plain s → r = s)) ↔
      ¬ Escapes hostParse base s := by
  cases h.eq_safeReturnTo
  rcases safeReturnTo_cases s with ⟨rest, hList, hHead, hKept⟩ | ⟨hNoPath, hFront⟩
  · rw [hKept, resolve_path_iff hostParse base hList hHead]
    exact and_iff_left fun _ => rfl
  · rw [hFront]
    refine iff_of_true ⟨resolve_front hostParse base, ?_⟩ ?_
    · rintro ⟨rest, hList, hHead, -⟩
      exact absurd (hNoPath rest hList) hHead
    · rintro ⟨rest, -, -, hList, hHead, -⟩
      exact hHead (hNoPath rest hList)

theorem target_stays_devices :
    Target "/devices" "/devices" ∧
      ((resolve domainName applianceOrigin "/devices".toList = some applianceOrigin ∧
          (Plain "/devices" → "/devices" = "/devices")) ↔
        ¬ Escapes domainName applianceOrigin "/devices") := by
  have hTarget : Target "/devices" "/devices" := by
    have hLogin : (loginAt "/devices").redirect = some "/devices" := by decide +kernel
    exact .doLogin rfl hLogin
  exact ⟨hTarget, target_stays_iff domainName applianceOrigin hTarget⟩

/-- The password was right, and the next page is served by someone else. -/
theorem backslash_leads_away :
    ¬ ∀ r, Target "/\\evil.example" r →
      resolve domainName applianceOrigin r.toList = some applianceOrigin := by
  intro h
  have hLogin : (loginAt "/\\evil.example").redirect = some "/\\evil.example" := by decide +kernel
  have hThere : resolve domainName applianceOrigin "/\\evil.example".toList =
      some ⟨.http, "evil.example", 80⟩ := by decide +kernel
  have hStays := h _ (.doLogin rfl hLogin)
  rw [hThere] at hStays
  exact absurd hStays (by decide)

end Browser

end WattPost.Auth
