import WattPost.Alerts.QuietHours
import WattPost.Cloud.RecentAlerts
import WattPost.Lib.Runs

/-! When every alert reaches the cloud: what the cursor and the pending marker may
pass over. -/
namespace WattPost.Cloud.RecentAlerts

open Alerts Runs

variable {N V : Type}

/-! ### The cursor -/

/-- The buffered events that are newer, the newest first, up to the first that is
not. -/
def newer (s : Service N) (ts : Int) : List (AlertEvent N) :=
  s.engine.eventHistory.reverse.takeWhile fun e => ts < e.ts

/-- Those that the cursor has not passed. -/
def waiting (s : Service N) : List (AlertEvent N) := newer s s.uploadedTs

/-- The event was in a body that the cloud answered successfully. -/
def Answered (s : Service N) (event : AlertEvent N) : Prop :=
  ∃ body ∈ s.answered, event ∈ body.map Prod.fst

/-- An event is newer than the cursor when it fires, and the full buffer gives up
none that is; a heartbeat collects at most 20; and a marker that is promoted passes
over nothing but the events of the heartbeat that promotes it. -/
def StepOk (s : Service N) : Op N V → Prop
  | .fire event =>
      s.uploadedTs < event.ts ∧
        ∀ old, 200 ≤ s.engine.eventHistory.length → s.engine.eventHistory.head? = some old →
          ¬ s.uploadedTs < old.ts
  | .collect h => s.flights h = none → (waiting s).length ≤ 20
  | .promote h =>
      ∀ alerts ts, s.flights h = some ⟨.answered, alerts⟩ → s.pendingTs = some ts →
        ∀ e ∈ waiting s, e ∈ (alerts.getD []).map Prod.fst ∨ e ∈ newer s ts
  | _ => True

/-- Later no event fires, and a heartbeat begins, keeps its alerts and is answered. -/
structure ReportsAfter (bytes : Extras N V → Nat) (s : Service N) (later : List (Op N V)) :
    Prop where
  quiet : ∀ event, .fire event ∉ later
  heartbeat : ∃ first h between last,
    later = first ++ .collect h :: (between ++ .respond h true :: last) ∧
      (run (Service.step bytes) s first).flights h = none ∧
        (run (Service.step bytes) s (first ++ .collect h :: between)).flights h =
          some ⟨.sent, (run (Service.step bytes) s first).collected⟩

theorem recent_eq (s : Service N) : s.recent = ((waiting s).take 20).reverse := by
  unfold Service.recent AlertEngine.recentEventsSince waiting newer
  refine List.take_of_length_le ?_
  rw [List.length_reverse]
  exact List.length_take_le _ _

/-- What is collected is all that waits, if it is not too much. -/
theorem mem_collected {s : Service N} (hFew : (waiting s).length ≤ 20) {event : AlertEvent N}
    (h : event ∈ waiting s) : event ∈ (s.collected.getD []).map Prod.fst := by
  have hRecent : event ∈ s.recent := by
    rw [recent_eq, List.take_of_length_le hFew]
    exact List.mem_reverse.mpr h
  have hSome : s.recent.isEmpty = false := by
    cases hList : s.recent with
    | nil =>
        rw [hList] at hRecent
        cases hRecent
    | cons first rest => rfl
  unfold Service.collected
  rw [hSome]
  simpa using hRecent

theorem takeWhile_concat_of_not {α : Type} (p : α → Bool) {x : α} (hx : p x = false)
    (xs : List α) : (xs ++ [x]).takeWhile p = xs.takeWhile p := by
  induction xs with
  | nil => simp [hx]
  | cons y ys ih =>
      rw [List.cons_append, List.takeWhile_cons, List.takeWhile_cons, ih]

/-! ### Steps -/

section Step

variable {bytes : Extras N V → Nat} {s : Service N}

/-- What an operation other than a firing leaves alone. -/
theorem step_frame {op : Op N V} (hOp : ∀ event, op ≠ .fire event) :
    (s.step bytes op).engine = s.engine ∧ (s.step bytes op).fired = s.fired := by
  cases op with
  | fire event => exact absurd rfl (hOp event)
  | setRules rules => exact ⟨rfl, rfl⟩
  | collect h =>
      simp only [Service.step]
      split <;> exact ⟨rfl, rfl⟩
  | trim h before after =>
      simp only [Service.step]
      split
      · split <;> exact ⟨rfl, rfl⟩
      · exact ⟨rfl, rfl⟩
  | respond h ok =>
      simp only [Service.step]
      split
      · split
        · cases ok <;> exact ⟨rfl, rfl⟩
        · exact ⟨rfl, rfl⟩
      · exact ⟨rfl, rfl⟩
  | promote h =>
      simp only [Service.step]
      split
      · split
        · unfold Service.promote
          split <;> exact ⟨rfl, rfl⟩
        · exact ⟨rfl, rfl⟩
      · exact ⟨rfl, rfl⟩

theorem answered_mono (op : Op N V) : s.answered ⊆ (s.step bytes op).answered := by
  cases op with
  | fire event => exact fun _ h => h
  | setRules rules => exact fun _ h => h
  | collect h =>
      simp only [Service.step]
      split <;> exact fun _ h => h
  | trim h before after =>
      simp only [Service.step]
      split
      · split <;> exact fun _ h => h
      · exact fun _ h => h
  | respond h ok =>
      simp only [Service.step]
      split
      · split
        · cases ok with
          | false => exact fun _ h => h
          | true => exact List.subset_append_left _ _
        · exact fun _ h => h
      · exact fun _ h => h
  | promote h =>
      simp only [Service.step]
      split
      · split
        · unfold Service.promote
          split <;> exact fun _ h => h
        · exact fun _ h => h
      · exact fun _ h => h

end Step

/-! ### The invariant -/

/-- Every event was answered or waits, and what an answered heartbeat carries was
answered. -/
structure Inv (s : Service N) : Prop where
  accounted : ∀ event ∈ s.fired, Answered s event ∨ event ∈ waiting s
  flights : ∀ h alerts, s.flights h = some ⟨.answered, alerts⟩ → alerts.getD [] ∈ s.answered
  size : s.engine.eventHistory.length ≤ 200

section Inv

variable {s s' : Service N}

theorem Answered.mono {event : AlertEvent N} (h : Answered s event)
    (hAnswered : s.answered ⊆ s'.answered) : Answered s' event := by
  obtain ⟨body, hMem, hEvent⟩ := h
  exact ⟨body, hAnswered hMem, hEvent⟩

/-- The flights after one of them changed. -/
theorem Inv.setFlight (h : Inv s) (hAnswered : s.answered ⊆ s'.answered) {i : Nat}
    {flight : Option (Flight N)} (hFlights : s'.flights = Function.update s.flights i flight)
    (hFlight : ∀ alerts, flight = some ⟨.answered, alerts⟩ → alerts.getD [] ∈ s'.answered) :
    ∀ j alerts, s'.flights j = some ⟨.answered, alerts⟩ → alerts.getD [] ∈ s'.answered := by
  intro j alerts hj
  rw [hFlights] at hj
  by_cases hSame : j = i
  · rw [hSame, Function.update_self] at hj
    exact hFlight alerts hj
  · rw [Function.update_of_ne hSame] at hj
    exact hAnswered (h.flights j alerts hj)

/-- Nothing fired and the cursor stayed. -/
theorem Inv.of_same (h : Inv s) (hEngine : s'.engine = s.engine) (hFired : s'.fired = s.fired)
    (hCursor : s'.uploadedTs = s.uploadedTs) (hAnswered : s.answered ⊆ s'.answered)
    (hFlights : ∀ j alerts, s'.flights j = some ⟨.answered, alerts⟩ →
      alerts.getD [] ∈ s'.answered) : Inv s' := by
  refine ⟨?_, hFlights, hEngine ▸ h.size⟩
  intro event hMem
  rw [hFired] at hMem
  have hWaiting : waiting s' = waiting s := by rw [waiting, waiting, newer, newer, hEngine, hCursor]
  rw [hWaiting]
  exact (h.accounted event hMem).imp_left fun hEvent => hEvent.mono hAnswered

/-- A new event joins those that wait. -/
theorem waiting_fire {event : AlertEvent N} (hSize : s.engine.eventHistory.length ≤ 200)
    (hNew : s.uploadedTs < event.ts)
    (hOld : ∀ old, 200 ≤ s.engine.eventHistory.length → s.engine.eventHistory.head? = some old →
      ¬ s.uploadedTs < old.ts) : waiting (s.fire event) = event :: waiting s := by
  unfold waiting newer Service.fire AlertEngine.record
  dsimp only
  generalize s.engine.eventHistory = history at hSize hOld ⊢
  by_cases hFull : history.length = 200
  · cases history with
    | nil => cases hFull
    | cons old rest =>
        have hOldest : ¬ s.uploadedTs < old.ts := hOld old hFull.ge rfl
        have hDrop : (old :: rest ++ [event]).drop ((old :: rest ++ [event]).length - 200) =
            rest ++ [event] := by
          have hOne : 200 + [event].length - 200 = 1 := Nat.add_sub_cancel_left 200 1
          rw [List.length_append, hFull, hOne, List.cons_append, List.drop_one, List.tail_cons]
        have hTail : (old :: rest).reverse.takeWhile (fun e => s.uploadedTs < e.ts) =
            rest.reverse.takeWhile (fun e => s.uploadedTs < e.ts) := by
          rw [List.reverse_cons]
          exact takeWhile_concat_of_not (fun e : AlertEvent N => decide (s.uploadedTs < e.ts))
            (decide_eq_false hOldest) _
        rw [hDrop, List.reverse_append, hTail]
        exact List.takeWhile_cons_of_pos (decide_eq_true hNew)
  · have hDrop : (history ++ [event]).drop ((history ++ [event]).length - 200) =
        history ++ [event] := by
      have hNone : (history ++ [event]).length - 200 = 0 := by
        rw [List.length_append, List.length_singleton]
        omega
      rw [hNone, List.drop_zero]
    rw [hDrop, List.reverse_append]
    exact List.takeWhile_cons_of_pos (decide_eq_true hNew)

theorem Inv.fire (h : Inv s) {event : AlertEvent N} (hOk : StepOk s (.fire event : Op N V)) :
    Inv (s.fire event) := by
  obtain ⟨hNew, hOld⟩ := hOk
  have hWaiting := waiting_fire h.size hNew hOld
  refine ⟨?_, h.flights, ?_⟩
  · intro event' hMem
    rw [hWaiting]
    rcases List.mem_append.mp hMem with hBefore | hNow
    · exact (h.accounted event' hBefore).imp_right (List.mem_cons_of_mem _)
    · exact Or.inr (List.mem_singleton.mp hNow ▸ List.mem_cons_self)
  · simp only [Service.fire, AlertEngine.record, List.length_drop]
    omega

theorem Inv.promote (h : Inv s) {i : Nat} {alerts : Option (List (Notice N))}
    (hFlight : s.flights i = some ⟨.answered, alerts⟩)
    (hOk : StepOk s (.promote i : Op N V)) : Inv (s.promote i) := by
  have hNone : ∀ alerts', (none : Option (Flight N)) = some ⟨.answered, alerts'⟩ →
      alerts'.getD [] ∈ s.answered := fun _ hEq => nomatch hEq
  unfold Service.promote
  cases hPending : s.pendingTs with
  | none =>
      exact h.of_same rfl rfl rfl (fun _ hMem => hMem)
        (h.setFlight (fun _ hMem => hMem) rfl hNone)
  | some ts =>
      refine ⟨?_, h.setFlight (fun _ hMem => hMem) rfl hNone, h.size⟩
      intro event hMem
      rcases h.accounted event hMem with hAnswered | hWaiting
      · exact Or.inl hAnswered
      · rcases hOk alerts ts hFlight hPending event hWaiting with hOwn | hNewer
        · exact Or.inl ⟨_, h.flights i alerts hFlight, hOwn⟩
        · exact Or.inr hNewer

theorem Inv.step (h : Inv s) (bytes : Extras N V → Nat) {op : Op N V} (hOk : StepOk s op) :
    Inv (s.step bytes op) := by
  have hNot : ∀ {stage : Stage} {alerts : Option (List (Notice N))}, stage ≠ .answered →
      ∀ alerts', (some ⟨stage, alerts⟩ : Option (Flight N)) = some ⟨.answered, alerts'⟩ →
        alerts'.getD [] ∈ s.answered := by
    intro stage alerts hStage alerts' hEq
    cases hEq
    exact absurd rfl hStage
  cases op with
  | fire event => exact h.fire hOk
  | setRules rules => exact h.of_same rfl rfl rfl (fun _ hMem => hMem) h.flights
  | collect i =>
      simp only [Service.step]
      split
      · exact h.of_same rfl rfl rfl (fun _ hMem => hMem)
          (h.setFlight (fun _ hMem => hMem) rfl (hNot (by decide)))
      · exact h
  | trim i before after =>
      simp only [Service.step]
      split
      · split
        · exact h.of_same rfl rfl rfl (fun _ hMem => hMem)
            (h.setFlight (fun _ hMem => hMem) rfl (hNot (by decide)))
        · exact h
      · exact h
  | respond i ok =>
      simp only [Service.step]
      split
      · split
        · rename_i flight _ _
          cases ok with
          | false =>
              exact h.of_same rfl rfl rfl (fun _ hMem => hMem)
                (h.setFlight (fun _ hMem => hMem) rfl fun _ hEq => nomatch hEq)
          | true =>
              have hSub : s.answered ⊆ s.answered ++ [flight.alerts.getD []] :=
                List.subset_append_left _ _
              refine h.of_same rfl rfl rfl hSub (h.setFlight hSub rfl ?_)
              intro alerts' hEq
              cases hEq
              exact List.mem_append_right _ List.mem_cons_self
        · exact h
      · exact h
  | promote i =>
      simp only [Service.step]
      split
      · split
        · rename_i flight hFlight hStage
          obtain ⟨stage, alerts⟩ := flight
          cases hStage
          exact h.promote hFlight hOk
        · exact h
      · exact h

end Inv

/-! ### Runs -/

section Run

variable {bytes : Extras N V → Nat} {s : Service N}

theorem inv_run (h : Inv s) {ops : List (Op N V)}
    (hOps : StepsOk (Service.step bytes) (fun _ s op => StepOk s op) s ops) :
    Inv (run (Service.step bytes) s ops) :=
  hOps.preserves h fun _ _ _ hInv hOk => hInv.step bytes hOk

theorem answered_run {event : AlertEvent N} (h : Answered s event) (ops : List (Op N V)) :
    Answered (run (Service.step bytes) s ops) event := by
  have hStep : ∀ (s : Service N) (op : Op N V), Answered s event →
      Answered (s.step bytes op) event :=
    fun _ op hAnswered => hAnswered.mono (answered_mono op)
  exact run_preserves hStep h ops

theorem fired_run {ops : List (Op N V)} (hOps : ∀ event, .fire event ∉ ops) :
    (run (Service.step bytes) s ops).fired = s.fired := by
  induction ops generalizing s with
  | nil => rfl
  | cons op ops ih =>
      have hFirst : ∀ event, op ≠ .fire event := fun event hEq =>
        hOps event (hEq ▸ List.mem_cons_self)
      exact (ih fun event hMem => hOps event (List.mem_cons_of_mem _ hMem)).trans
        (step_frame hFirst).2

/-- A new service. -/
def start (engine : AlertEngine N) (rules : List (AlertRuleCfg N)) : Service N :=
  { engine := { engine with eventHistory := [] }, rules := rules }

theorem inv_start (engine : AlertEngine N) (rules : List (AlertRuleCfg N)) :
    Inv (start engine rules) := by
  constructor
  case accounted => exact fun _ hMem => nomatch hMem
  case flights => exact fun _ _ hEq => nomatch hEq
  case size => exact Nat.zero_le _

/-- In a run whose steps all meet the condition, every event that has fired was in
the body of a heartbeat that the cloud answered, once a heartbeat that began after
the last of them was answered with its alerts. -/
theorem alerts_reach_cloud (bytes : Extras N V → Nat) (engine : AlertEngine N)
    (rules : List (AlertRuleCfg N)) {before later : List (Op N V)}
    (hOps : StepsOk (Service.step bytes) (fun _ s op => StepOk s op) (start engine rules)
      (before ++ later))
    (hLater : ReportsAfter bytes (run (Service.step bytes) (start engine rules) before) later) :
    ∀ event ∈ (run (Service.step bytes) (start engine rules) (before ++ later)).fired,
      Answered (run (Service.step bytes) (start engine rules) (before ++ later)) event := by
  obtain ⟨hQuiet, first, h, between, last, rfl, hFree, hSent⟩ := hLater
  generalize hStart : start engine rules = s₀ at *
  have hSplit : before ++ (first ++ .collect h :: (between ++ .respond h true :: last)) =
      before ++ first ++ .collect h :: (between ++ .respond h true :: last) := by
    rw [List.append_assoc]
  rw [hSplit] at hOps ⊢
  have hBegin : run (Service.step bytes) (run (Service.step bytes) s₀ before) first =
      run (Service.step bytes) s₀ (before ++ first) := (run_append s₀ before first).symm
  rw [hBegin] at hFree
  rw [run_append, hBegin] at hSent
  rw [run_append]
  have hInv : Inv (run (Service.step bytes) s₀ (before ++ first)) :=
    inv_run (hStart ▸ inv_start engine rules) hOps.of_append
  have hFew := hOps (before ++ first) (.collect h) _ rfl hFree
  generalize run (Service.step bytes) s₀ (before ++ first) = s₁ at hFree hSent hInv hFew ⊢
  have hRest : ∀ event, .fire event ∉ .collect h :: (between ++ .respond h true :: last) :=
    fun event hMem => hQuiet event (List.mem_append_right _ hMem)
  rw [fired_run hRest, ← List.cons_append, run_append]
  intro event hFired
  rcases hInv.accounted event hFired with hAnswered | hWaiting
  · exact answered_run (answered_run hAnswered _) _
  · generalize run (Service.step bytes) s₁ (.collect h :: between) = s₂ at hSent ⊢
    have hRespond : s₂.step bytes (.respond h true) = s₂.respond h ⟨.sent, s₁.collected⟩ true := by
      simp [Service.step, hSent]
    change Answered (run (Service.step bytes) (s₂.step bytes (.respond h true)) last) event
    rw [hRespond]
    refine answered_run ⟨s₁.collected.getD [], ?_, mem_collected hFew hWaiting⟩ last
    exact List.mem_append_right _ List.mem_cons_self

end Run

/-! ### A tie -/

def noOthers : Others Unit := ⟨[], fun _ hMem => nomatch hMem⟩

def sampleEvent (name : String) (ts : Int) : AlertEvent ℚ :=
  { ruleId := name, name := name, severity := "warn", metric := "bank.soc_pct", value := 40
    threshold := 50, op := "lt", ts := ts }

/-- A heartbeat from its beginning to its end. -/
def beat : List (Op ℚ Unit) :=
  [.collect 0, .trim 0 noOthers noOthers, .respond 0 true, .promote 0]

def emptyService : Service ℚ := start (AlertEngine.init [] [] none) []

/-- An event fires, the heartbeat that carries it gets no answer, a second event fires,
and the next heartbeat is answered. -/
def secondBeat : List (Op ℚ Unit) :=
  [.fire (sampleEvent "half" 100), .collect 0, .trim 0 noOthers noOthers, .respond 0 false,
    .fire (sampleEvent "quarter" 160)] ++ beat

theorem alerts_reach_cloud_one :
    Answered (run (Service.step fun _ => 0) emptyService secondBeat) (sampleEvent "half" 100) ∧
      Answered (run (Service.step fun _ => 0) emptyService secondBeat)
        (sampleEvent "quarter" 160) := by
  have hAll : ∀ event ∈ [sampleEvent "half" 100, sampleEvent "quarter" 160],
      Answered (run (Service.step fun _ => 0) emptyService secondBeat) event := by
    intro event hMem
    refine alerts_reach_cloud (fun _ => 0) _ _ ?_ ⟨?_, ?_⟩ event hMem
    · simp only [beat, List.cons_append, List.nil_append, stepsOk_cons, stepsOk_nil]
      refine ⟨⟨by decide, fun _ hFull => absurd hFull (by decide)⟩, fun _ => by decide, trivial,
        trivial, ⟨by decide, fun _ hFull => absurd hFull (by decide)⟩, fun _ => by decide, trivial,
        trivial, ?_, trivial⟩
      intro alerts ts hFlight _ event hMem
      obtain ⟨_, hAlerts⟩ := Flight.mk.inj (Option.some.inj hFlight)
      left
      rw [← hAlerts]
      exact List.mem_reverse.mp hMem
    · simp [beat]
    · exact ⟨[], 0, [.trim 0 noOthers noOthers], [.promote 0], rfl, rfl, rfl⟩
  exact ⟨hAll _ List.mem_cons_self, hAll _ (List.mem_cons_of_mem _ List.mem_cons_self)⟩

/-- Nothing to report and no heartbeat under way. -/
structure Idle (s : Service ℚ) : Prop where
  recent : s.recent = []
  flight : s.flights 0 = none
  pending : s.pendingTs = none

theorem Idle.after_beat {s : Service ℚ} (h : Idle s) :
    Idle (run (Service.step fun _ => 0) s beat) ∧
      (run (Service.step fun _ => 0) s beat).answered = s.answered ++ [[]] := by
  have hCollected : s.collected = none := by
    unfold Service.collected
    rw [h.recent]
    rfl
  have hCollect : s.step (fun _ => 0) (.collect 0 : Op ℚ Unit) =
      s.setFlight 0 (some ⟨.building, none⟩) := by
    simp [Service.step, h.flight, Service.collect, hCollected, h.recent, Service.setFlight]
  have hTrim : (s.setFlight 0 (some ⟨.building, none⟩)).step (fun _ => 0)
      (.trim 0 noOthers noOthers) = s.setFlight 0 (some ⟨.sent, none⟩) := by
    simp [Service.step, Service.trim, Service.setFlight, noOthers, shed, h.pending]
  have hRespond : (s.setFlight 0 (some ⟨.sent, none⟩)).step (fun _ => 0)
      (.respond 0 true : Op ℚ Unit) =
        { s.setFlight 0 (some ⟨.answered, none⟩) with answered := s.answered ++ [[]] } := by
    simp [Service.step, Service.respond, Service.setFlight]
  have hBeat : run (Service.step fun _ => 0) s beat =
      { s.setFlight 0 none with answered := s.answered ++ [[]] } := by
    change ((((s.step (fun _ => 0) (.collect 0)).step (fun _ => 0) (.trim 0 noOthers noOthers)).step
      (fun _ => 0) (.respond 0 true)).step (fun _ => 0) (.promote 0 : Op ℚ Unit)) = _
    rw [hCollect, hTrim, hRespond]
    simp [Service.step, Service.promote, Service.setFlight, h.pending]
  rw [hBeat]
  exact ⟨⟨h.recent, by simp [Service.setFlight], h.pending⟩, rfl⟩

def beats (k : Nat) : List (Op ℚ Unit) := (List.replicate k beat).flatten

theorem Idle.after_beats {s : Service ℚ} (h : Idle s) (k : Nat) :
    Idle (run (Service.step fun _ => 0) s (beats k)) ∧
      ∀ event, Answered (run (Service.step fun _ => 0) s (beats k)) event → Answered s event := by
  induction k generalizing s with
  | zero => exact ⟨h, fun _ hAnswered => hAnswered⟩
  | succ k ih =>
      obtain ⟨hIdle, hAnswers⟩ := h.after_beat
      have hSplit : beats (k + 1) = beat ++ beats k := by
        rw [beats, List.replicate_succ, List.flatten_cons]
        rfl
      obtain ⟨hLater, hOnly⟩ := ih hIdle
      rw [hSplit, run_append]
      refine ⟨hLater, ?_⟩
      intro event hAnswered
      obtain ⟨body, hMem, hEvent⟩ := hOnly event hAnswered
      rw [hAnswers] at hMem
      rcases List.mem_append.mp hMem with hOld | hNew
      · exact ⟨body, hOld, hEvent⟩
      · cases List.mem_singleton.mp hNew
        cases hEvent

/-- An event fires, a heartbeat collects it, another event fires in the same second,
and the heartbeat is answered. -/
def tiedRun : List (Op ℚ Unit) :=
  [.fire (sampleEvent "half" 100), .collect 0, .fire (sampleEvent "drift" 100),
    .trim 0 noOthers noOthers, .respond 0 true, .promote 0]

/-- The second event is not reported by any number of later heartbeats that are all
answered. -/
theorem tied_event_never_reported :
    sampleEvent "drift" 100 ∈ (run (Service.step fun _ => 0) emptyService tiedRun).fired ∧
      ∀ k, (0 < k → ReportsAfter (fun _ => 0)
            (run (Service.step fun _ => 0) emptyService tiedRun) (beats k)) ∧
        ¬ Answered (run (Service.step fun _ => 0) emptyService (tiedRun ++ beats k))
          (sampleEvent "drift" 100) := by
  have hIdle : Idle (run (Service.step fun _ => 0) emptyService tiedRun) := ⟨rfl, rfl, rfl⟩
  refine ⟨List.mem_cons_of_mem _ List.mem_cons_self, ?_⟩
  intro k
  constructor
  · intro hk
    obtain ⟨n, rfl⟩ := Nat.exists_eq_succ_of_ne_zero hk.ne'
    refine ⟨?_, [], 0, [.trim 0 noOthers noOthers], .promote 0 :: beats n, rfl, rfl, rfl⟩
    intro event hMem
    obtain ⟨ops, hOps, hEvent⟩ := List.mem_flatten.mp hMem
    rw [(List.mem_replicate.mp hOps).2] at hEvent
    simp [beat] at hEvent
  · intro hAnswered
    rw [run_append] at hAnswered
    obtain ⟨body, hMem, hEvent⟩ := (hIdle.after_beats k).2 _ hAnswered
    have hBody : body = [(sampleEvent "half" 100, [])] := List.mem_singleton.mp hMem
    rw [hBody] at hEvent
    simp [sampleEvent] at hEvent

end WattPost.Cloud.RecentAlerts
