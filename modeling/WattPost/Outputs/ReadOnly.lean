import WattPost.Auth.Middleware
import WattPost.Outputs.SafetyGate

/-! The read-only scopes of the output routes. A visitor without a session, of the
public view or with a kiosk credential, may read; reading the pause rule also
evaluates it. -/
namespace WattPost.Outputs

open SolarPause (BankSnapshot)

section Scopes

structure HttpRequest where
  method : String
  path : String
  query : String
  body : String

/-- The router of the web framework: a handler is called for its own method. -/
structure Router where
  route : HttpRequest → Option Endpoint
  method_matches : ∀ r e, route r = some e →
    r.method = e.method ∨ r.method = "HEAD" ∧ e.method = "GET"

/-- `public_view_allows` or `kiosk_scope_allows`, as the middleware asks them. -/
def admitted (r : HttpRequest) : Bool :=
  Auth.publicViewAllows (PyText.upper r.method) r.path ||
    Auth.kioskScopeAllows (PyText.upper r.method) r.path

/-- A turn of the appliance: something of its own, an owner's request included, or
a visitor's request. -/
inductive Turn where
  | own (e : Happening)
  | visit (r : HttpRequest) (c : Circumstance)

def Turn.isOwn : Turn → Bool
  | .own _ => true
  | .visit _ _ => false

variable (router : Router) (zone : LocalTime.Zone)

def takeTurn (a : Appliance) : Turn → Appliance
  | .own e => happen zone a e
  | .visit r c =>
      if admitted r then (router.route r).elim a (fun endpoint => (handle a endpoint c).2) else a

/-- At every moment of the run the appliance is as if no visitor had come. -/
def VisitsChangeNothing (a : Appliance) (turns : List Turn) : Prop :=
  ∀ before after, turns = before ++ after →
    Runs.run (takeTurn router zone) a before =
      Runs.run (takeTurn router zone) a (before.filter Turn.isOwn)

end Scopes

section Reads

/-- What a row says about its output apart from its state. -/
def definitionOf (row : OutputRow) : Discovered :=
  ⟨row.id, row.deviceLabel, row.name, row.kind, row.capabilities⟩

/-- The output has its row, and the row says what the discovery says. -/
def Agrees (outputs : List OutputRow) (d : Discovered) : Prop :=
  (findRow outputs d.id).isSome = true ∧ ∀ row ∈ outputs, row.id = d.id → definitionOf row = d

/-- A discovery would find what is known and registered. -/
def AlreadyRegistered (a : Appliance) (found : Discovery) : Prop :=
  a.known = found.ids ∧ ∀ d ∈ found.outputs, Agrees a.service.outputs d

/-- The pause rule calls for no change, or its toggle ends before the adapter and
registers nothing new. -/
def PauseIdle (a : Appliance) (c : Circumstance) : Prop :=
  ∀ ask, pauseAsks a c.bank = some ask →
    (ask.1 ∈ a.known ∧ c.way.dispatch.reachesAdapter = false) ∨
      (ask.1 ∉ a.known ∧ AlreadyRegistered a c.way.found)

/-- A visitor who reads the pause rule finds it idle. -/
def Harmless (router : Router) (a : Appliance) : Turn → Prop
  | .own _ => True
  | .visit r c => admitted r = true → router.route r = some .getSolarPause → PauseIdle a c

variable {outputs : List OutputRow} {d d' : Discovered}

theorem agrees_upsertOutput (outputs : List OutputRow) (d : Discovered) :
    Agrees (upsertOutput outputs d) d := by
  unfold upsertOutput
  split
  case isTrue hRow =>
    refine ⟨?_, ?_⟩
    · rw [findRow_updateRow]
      · simpa using hRow
      · exact fun _ => rfl
    · intro row hMem hId
      obtain ⟨old, _, rfl⟩ := List.mem_map.mp hMem
      split at hId
      case isTrue hOld => rw [if_pos hOld, definitionOf, hOld]
      case isFalse hOld => exact absurd hId hOld
  case isFalse hNone =>
    have hMissing : ∀ row ∈ outputs, row.id ≠ d.id := by
      simpa [findRow, List.find?_eq_none] using hNone
    refine ⟨by simp [findRow], ?_⟩
    intro row hMem hId
    rcases List.mem_append.mp hMem with hOld | hNew
    · exact absurd hId (hMissing row hOld)
    · rw [List.mem_singleton.mp hNew]
      rfl

theorem Agrees.upsertOutput_other (h : Agrees outputs d) (hId : d.id ≠ d'.id) :
    Agrees (upsertOutput outputs d') d := by
  obtain ⟨hRow, hSays⟩ := h
  unfold upsertOutput
  split
  case isTrue =>
    refine ⟨?_, ?_⟩
    · rw [findRow_updateRow]
      · simpa using hRow
      · exact fun _ => rfl
    · intro row hMem hSame
      obtain ⟨old, hOld, rfl⟩ := List.mem_map.mp hMem
      split at hSame
      case isTrue hOther => exact absurd (hSame.symm.trans hOther) hId
      case isFalse hOther =>
        rw [if_neg hOther]
        exact hSays old hOld hSame
  case isFalse =>
    refine ⟨?_, ?_⟩
    · rw [findRow, List.find?_append, Option.isSome_or]
      exact Bool.or_eq_true_iff.mpr (Or.inl hRow)
    · intro row hMem hSame
      rcases List.mem_append.mp hMem with hOld | hNew
      · exact hSays row hOld hSame
      · rw [List.mem_singleton.mp hNew] at hSame
        exact absurd hSame.symm hId

/-- Registering what the row says already changes nothing. -/
theorem Agrees.upsertOutput_eq (h : Agrees outputs d) : upsertOutput outputs d = outputs := by
  rw [upsertOutput, if_pos h.1, updateRow]
  have hRows : ∀ row ∈ outputs, (if row.id = d.id then
      { row with
        deviceLabel := d.deviceLabel, name := d.name, kind := d.kind
        capabilities := d.capabilities } else row) = id row := by
    intro row hRow
    split
    case isTrue hId =>
      rw [← h.2 row hRow hId]
      rfl
    case isFalse => rfl
  rw [List.map_congr_left hRows, List.map_id]

/-- Each registered output agrees with its row until another comes under its id. -/
theorem agrees_foldl_upsertOutput {found : List Discovered}
    (hNodup : (found.map Discovered.id).Nodup) (outputs : List OutputRow) :
    ∀ d ∈ found, Agrees (found.foldl upsertOutput outputs) d := by
  induction found using List.reverseRecOn with
  | nil => exact fun d hMem => nomatch hMem
  | append_singleton found last ih =>
      rw [List.map_append, List.nodup_append] at hNodup
      obtain ⟨hFound, _, hDisjoint⟩ := hNodup
      intro d hMem
      rw [List.foldl_append]
      rcases List.mem_append.mp hMem with hOld | hLast
      · have hId : d.id ≠ last.id :=
          hDisjoint d.id (List.mem_map_of_mem hOld) last.id (List.mem_singleton_self _)
        exact (ih hFound d hOld).upsertOutput_other hId
      · rw [List.mem_singleton.mp hLast]
        exact agrees_upsertOutput _ last

theorem foldl_upsertOutput_of_agrees {found : List Discovered}
    (h : ∀ d ∈ found, Agrees outputs d) : found.foldl upsertOutput outputs = outputs := by
  induction found with
  | nil => rfl
  | cons d found ih =>
      rw [List.foldl_cons, (h d List.mem_cons_self).upsertOutput_eq]
      exact ih (fun d' hMem => h d' (List.mem_cons_of_mem _ hMem))

theorem discoverAll_eq_iff (a : Appliance) (found : Discovery) :
    discoverAll a found = a ↔ AlreadyRegistered a found := by
  constructor
  · intro h
    have hKnown : found.ids = a.known := congrArg Appliance.known h
    have hRows : found.outputs.foldl upsertOutput a.service.outputs = a.service.outputs :=
      congrArg (fun b => b.service.outputs) h
    refine ⟨hKnown.symm, fun d hMem => ?_⟩
    rw [← hRows]
    exact agrees_foldl_upsertOutput found.nodup a.service.outputs d hMem
  · rintro ⟨hKnown, hAgree⟩
    rw [discoverAll, foldl_upsertOutput_of_agrees hAgree, ← hKnown]

/-- A command is remembered. -/
theorem sendCommand_issued_ne (a b : Appliance) (hIssued : b.service.issued = a.service.issued)
    (outputId : String) (on : Bool) (issuer : String) (delay : Nat) (result : WriteResult) :
    sendCommand b outputId on issuer delay result ≠ a := by
  intro h
  have hLength := congrArg (fun x => x.service.issued.length) h
  simp [sendCommand, applyWrite, hIssued] at hLength

/-- The toggle of a known output changes something when it reaches the adapter. -/
theorem toggleOutput_known {a : Appliance} {outputId : String} (hKnown : outputId ∈ a.known)
    (on : Bool) (issuer : String) (m : Meet) :
    (toggleOutput a outputId on issuer m).2 = a ↔ m.dispatch.reachesAdapter = false := by
  have hContains : a.known.contains outputId = true := by simpa using hKnown
  simp only [toggleOutput, hContains, if_true, Bool.not_true, Bool.false_eq_true, if_false]
  cases m.dispatch with
  | noDevice label => exact iff_of_true rfl rfl
  | noTransport id => exact iff_of_true rfl rfl
  | wrote result =>
      exact iff_of_false (sendCommand_issued_ne a a rfl _ _ _ _ _) (by simp [Dispatch.reachesAdapter])
  | crashed message =>
      exact iff_of_false (sendCommand_issued_ne a a rfl _ _ _ _ _) (by simp [Dispatch.reachesAdapter])

/-- That of an unknown output discovers first. -/
theorem toggleOutput_unknown {a : Appliance} {outputId : String} (hUnknown : outputId ∉ a.known)
    (on : Bool) (issuer : String) (m : Meet) :
    (toggleOutput a outputId on issuer m).2 = a ↔ AlreadyRegistered a m.found := by
  have hContains : a.known.contains outputId = false := by simpa using hUnknown
  rw [← discoverAll_eq_iff]
  simp only [toggleOutput, hContains, Bool.false_eq_true, if_false]
  by_cases hFound : outputId ∈ m.found.ids
  · have hLearns : ∀ b : Appliance, b.known = m.found.ids → b ≠ a := by
      rintro b hKnown rfl
      exact hUnknown (hKnown ▸ hFound)
    refine iff_of_false (hLearns _ ?_) (hLearns _ rfl)
    have hNow : (discoverAll a m.found).known.contains outputId = true := by
      simpa [discoverAll] using hFound
    simp only [hNow, Bool.not_true, Bool.false_eq_true, if_false]
    cases m.dispatch <;> rfl
  · have hStill : (discoverAll a m.found).known.contains outputId = false := by
      simpa [discoverAll] using hFound
    simp only [hStill, Bool.not_false, if_true]

/-- Reading the pause rule changes nothing exactly when the rule is idle. -/
theorem evaluateSolarPause_eq_iff (a : Appliance) (c : Circumstance) :
    (evaluateSolarPause a c.bank c.way).2 = a ↔ PauseIdle a c := by
  rw [evaluateSolarPause_snd, PauseIdle]
  cases pauseAsks a c.bank with
  | none => simp
  | some ask =>
      simp only [Option.elim_some, Option.some.injEq, forall_eq']
      by_cases hKnown : ask.1 ∈ a.known
      · simp [hKnown, toggleOutput_known hKnown]
      · simp [hKnown, toggleOutput_unknown hKnown]

end Reads

section Visits

variable {router : Router} {zone : LocalTime.Zone} {a : Appliance} {t : Turn}

/-- The scopes admit the methods that read. -/
theorem safe_of_admitted {r : HttpRequest} (h : admitted r = true) :
    PyText.upper (PyText.upper r.method) ∈ Auth.safeMethods := by
  by_contra hUnsafe
  have hContains : Auth.safeMethods.contains (PyText.upper (PyText.upper r.method)) = false := by
    simpa using hUnsafe
  simp only [admitted, Auth.publicViewAllows, Auth.kioskScopeAllows, hContains, Bool.not_false,
    if_true, Bool.or_self, Bool.false_eq_true] at h

/-- An admitted request reaches a handler that reads. -/
theorem method_of_admitted {r : HttpRequest} {endpoint : Endpoint} (h : admitted r = true)
    (hRoute : router.route r = some endpoint) : endpoint.method = "GET" := by
  rcases router.method_matches r endpoint hRoute with hSame | ⟨_, hGet⟩
  · have hSafe := safe_of_admitted h
    rw [hSame] at hSafe
    have hMethods : ∀ method ∈ ["GET", "POST", "PUT", "DELETE"],
        PyText.upper (PyText.upper method) ∈ Auth.safeMethods → method = "GET" := by decide
    exact hMethods endpoint.method (by cases endpoint <;> simp [Endpoint.method]) hSafe
  · exact hGet

/-- A visit changes nothing exactly when it is harmless. -/
theorem takeTurn_visit_eq_iff (r : HttpRequest) (c : Circumstance) :
    takeTurn router zone a (.visit r c) = a ↔ Harmless router a (.visit r c) := by
  simp only [takeTurn, Harmless]
  cases hAdmitted : admitted r with
  | false => simp
  | true =>
      simp only [if_true, forall_true_left]
      cases hRoute : router.route r with
      | none => simp
      | some endpoint =>
          have hGet := method_of_admitted hAdmitted hRoute
          rw [Option.elim_some]
          cases endpoint with
          | listOutputs device => simp [handle]
          | listOutputSchedules outputId =>
              simp only [handle]
              split <;> simp
          | getSolarPause =>
              rw [show handle a .getSolarPause c = getSolarPause a c from rfl]
              exact (evaluateSolarPause_eq_iff a c).trans (by simp)
          | _ => exact absurd hGet (by simp [Endpoint.method])

/-- The kiosk list has none of the output routes: such a visitor comes by the
public view. -/
theorem kioskScope_refuses_outputs {method path : String}
    (hPath : PyText.startsWith path "/api/outputs" = true) :
    Auth.kioskScopeAllows method path = false := by
  rw [PyText.startsWith, List.isPrefixOf_iff_prefix] at hPath
  obtain ⟨rest, hRest⟩ := hPath
  have hOther : ∀ p ∈ Auth.kioskGetPaths, PyText.startsWith path p = false := by
    intro p hMem
    rw [PyText.startsWith, ← hRest]
    simp only [Auth.kioskGetPaths, List.mem_cons, List.not_mem_nil, or_false] at hMem
    rcases hMem with rfl | rfl | rfl | rfl | rfl | rfl | rfl | rfl | rfl | rfl | rfl
    all_goals simp [List.isPrefixOf]
  have hKiosk : (path == "/kiosk") = false := by
    rw [beq_eq_false_iff_ne]
    rintro rfl
    simp at hRest
  unfold Auth.kioskScopeAllows
  split
  · rfl
  · rw [hKiosk, Bool.false_or, List.any_eq_false]
    simpa using hOther

theorem visitsChangeNothing_of_harmless {turns : List Turn}
    (h : Runs.StepsOk (takeTurn router zone) (fun _ => Harmless router) a turns) :
    Runs.run (takeTurn router zone) a turns =
      Runs.run (takeTurn router zone) a (turns.filter Turn.isOwn) := by
  induction turns using List.reverseRecOn with
  | nil => rfl
  | append_singleton turns t ih =>
      have hBefore := ih h.of_append
      rw [List.filter_append, Runs.run_concat, hBefore]
      cases t with
      | own e => exact (Runs.run_concat _ _ _).symm
      | visit r c =>
          have hHarmless := h turns _ [] rfl
          rw [hBefore] at hHarmless
          rw [(takeTurn_visit_eq_iff r c).mpr hHarmless]
          simp [Turn.isOwn]

/-- Visitors change nothing exactly when each finds the pause rule idle. -/
theorem visitsChangeNothing_iff (router : Router) (zone : LocalTime.Zone) (a : Appliance)
    (turns : List Turn) :
    VisitsChangeNothing router zone a turns ↔
      Runs.StepsOk (takeTurn router zone) (fun _ => Harmless router) a turns := by
  constructor
  · rintro h before t after rfl
    cases t with
    | own e => trivial
    | visit r c =>
        rw [← takeTurn_visit_eq_iff]
        have hBefore := h before (.visit r c :: after) rfl
        have hAfter := h (before ++ [.visit r c]) after (by simp)
        rw [Runs.run_concat, List.filter_append] at hAfter
        rw [hAfter, hBefore]
        simp [Turn.isOwn]
  · rintro h before after rfl
    exact visitsChangeNothing_of_harmless h.of_append

/-- The two routes that answer a GET without a parameter. -/
def outputsRouter : Router where
  route r :=
    if r.method ≠ "GET" then none
    else if r.path = "/api/outputs" then some (.listOutputs none)
    else if r.path = "/api/outputs/solar_pause" then some .getSolarPause
    else none
  method_matches := by
    intro r e h
    split_ifs at h with hMethod hList hPause
    · cases h
      exact Or.inl (not_not.mp hMethod)
    · cases h
      exact Or.inl (not_not.mp hMethod)

/-- The heater is the charger of an enabled pause rule, and it is off. -/
def heaterCharger : Appliance :=
  { heaterPlug with pause := { enabled := true, chargerOutputId := some "plug.heater" } }

/-- A visitor of the public view reads the pause rule while the bank is low, and the
charger goes on. -/
theorem visitor_switches_charger :
    ¬ VisitsChangeNothing outputsRouter (LocalTime.Zone.fixed 0) heaterCharger
      [.visit ⟨"GET", "/api/outputs/solar_pause", "", ""⟩
        ⟨some ⟨20, 0, 0⟩, heaterSwitched, true⟩] := by
  intro h
  have hSame := congrArg (fun a => a.service.issued.length) (h [_] [] rfl)
  revert hSame
  decide +kernel

end Visits

end WattPost.Outputs
