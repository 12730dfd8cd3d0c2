import WattPost.Alerts.Engine
import WattPost.Lib.Runs

/-! What quiet hours do over any sequence of evaluations and reloads: every event is
handed over once or waits in the buffer, in firing order. -/
namespace WattPost.Alerts

open LocalTime PyDict Runs

variable {N : Type}

/-! ### The log of a run -/

/-- One call of `evaluate`: what fired, what was handed over, and the buffer that
it left. -/
structure EvalCall (N : Type) where
  now : Int
  inQuiet : Bool
  fired : List (Firing N)
  dispatched : List (Notice N)
  buffer : List (Notice N)

inductive Entry (N : Type) where
  | call (c : EvalCall N)
  | reload (rules : List (AlertRule N))

/-- An engine and what was done with it. -/
structure World (N : Type) where
  engine : AlertEngine N
  log : List (Entry N)

inductive EngineOp (N : Type) where
  | evaluate (now : Int) (snapshot : Snapshot N)
  | reload (rules : List (AlertRule N))

def World.step [PyNumber N] (zone : Zone) (w : World N) : EngineOp N → World N
  | .evaluate now snapshot =>
      let pass := evaluate zone w.engine now snapshot
      { engine := pass.engine
        log := w.log ++
          [.call ⟨now, w.engine.isQuietNow zone now, pass.fired, pass.dispatched,
            pass.engine.pending⟩] }
  | .reload rules =>
      { engine := w.engine.reloadRules rules, log := w.log ++ [.reload rules] }

def Entry.fired : Entry N → List (Firing N)
  | .call c => c.fired
  | .reload _ => []

def Entry.dispatched : Entry N → List (Notice N)
  | .call c => c.dispatched
  | .reload _ => []

/-- Quiet hours hold the event back. -/
def Firing.held (inQuiet : Bool) (firing : Firing N) : Bool :=
  inQuiet && firing.event.severity ≠ "alarm"

/-- What the calls since the last one outside quiet hours held back, in firing
order. -/
def heldBack (log : List (Entry N)) : List (Notice N) :=
  log.foldl
    (fun held entry =>
      match entry with
      | .reload _ => held
      | .call c =>
          if c.inQuiet then held ++ (c.fired.filter (Firing.held true)).map Firing.notice
          else []) []

/-- Whether the last call was in quiet hours. -/
def lastQuiet (log : List (Entry N)) : Option Bool :=
  log.foldl
    (fun last entry =>
      match entry with
      | .reload _ => last
      | .call c => some c.inQuiet) none

/-- The firings and the reloads of a run, in order. -/
inductive Trace (N : Type) where
  | fired (firing : Firing N)
  | reloaded (rules : List (AlertRule N))

def Entry.trace : Entry N → List (Trace N)
  | .call c => c.fired.map .fired
  | .reload rules => [.reloaded rules]

/-- Nothing is lost, doubled or reordered. -/
structure QuietHoursFaithful (log : List (Entry N)) (pending : List (Notice N)) : Prop where
  accounted : (log.flatMap Entry.dispatched ++ pending).Perm
    ((log.flatMap Entry.fired).map Firing.notice)
  flushed : ∀ before c after, log = before ++ .call c :: after → c.inQuiet = false →
    c.dispatched = heldBack before ++ c.fired.map Firing.notice ∧ c.buffer = []
  alarms : ∀ c, .call c ∈ log →
    ((c.fired.filter fun f => f.event.severity = "alarm").map Firing.notice).Sublist c.dispatched
  cooldown : ∀ before f between g after,
    log.flatMap Entry.trace = before ++ .fired f :: (between ++ .fired g :: after) →
      f.event.ruleId = g.event.ruleId →
        (∀ h, .fired h ∈ between → h.event.ruleId ≠ f.event.ruleId) →
          (∀ rules, .reloaded rules ∈ between → f.event.ruleId ∈ rules.map AlertRule.id) →
            g.rule.cooldownSeconds ≤ g.event.ts - f.event.ts

/-! ### The held-back events -/

@[simp] theorem heldBack_reload (log : List (Entry N)) (rules : List (AlertRule N)) :
    heldBack (log ++ [.reload rules]) = heldBack log := by
  simp [heldBack]

@[simp] theorem heldBack_call (log : List (Entry N)) (c : EvalCall N) :
    heldBack (log ++ [.call c]) =
      if c.inQuiet then
        heldBack log ++ (c.fired.filter (Firing.held true)).map Firing.notice
      else [] := by
  simp [heldBack]

@[simp] theorem lastQuiet_reload (log : List (Entry N)) (rules : List (AlertRule N)) :
    lastQuiet (log ++ [.reload rules]) = lastQuiet log := by
  simp [lastQuiet]

@[simp] theorem lastQuiet_call (log : List (Entry N)) (c : EvalCall N) :
    lastQuiet (log ++ [.call c]) = some c.inQuiet := by
  simp [lastQuiet]

/-- Outside quiet hours nothing waits. -/
theorem heldBack_eq_nil {log : List (Entry N)} (h : lastQuiet log ≠ some true) :
    heldBack log = [] := by
  induction log using List.reverseRecOn with
  | nil => rfl
  | append_singleton log entry ih =>
      cases entry with
      | reload rules =>
          rw [lastQuiet_reload] at h
          rw [heldBack_reload, ih h]
      | call c =>
          rw [lastQuiet_call] at h
          have hOutside : c.inQuiet = false := by simpa using h
          simp [hOutside]

/-- What fired is handed over or held. -/
theorem perm_held (fired : List (Firing N)) (inQuiet : Bool) :
    ((fired.filter fun f => !f.held inQuiet).map Firing.notice ++
        (fired.filter (Firing.held inQuiet)).map Firing.notice).Perm
      (fired.map Firing.notice) := by
  rw [← List.map_append]
  exact (List.perm_append_comm.trans (List.filter_append_perm _ _)).map _

theorem filter_not_held_false (fired : List (Firing N)) :
    (fired.filter fun f => !f.held false) = fired := by
  simp [Firing.held]

theorem filter_held_false (fired : List (Firing N)) :
    fired.filter (Firing.held false) = [] := by
  simp [Firing.held]

/-! ### The cooldown -/

/-- When the rule last fired, as far as the reloads kept it. -/
def lastKept (id : String) (trace : List (Trace N)) : Option Int :=
  trace.foldl
    (fun last item =>
      match item with
      | .fired f => if f.event.ruleId = id then some f.event.ts else last
      | .reloaded rules => if (rules.map AlertRule.id).contains id then last else none) none

@[simp] theorem lastKept_fired (id : String) (trace : List (Trace N)) (f : Firing N) :
    lastKept id (trace ++ [.fired f]) =
      if f.event.ruleId = id then some f.event.ts else lastKept id trace := by
  simp [lastKept]

@[simp] theorem lastKept_reloaded (id : String) (trace : List (Trace N))
    (rules : List (AlertRule N)) :
    lastKept id (trace ++ [.reloaded rules]) =
      if (rules.map AlertRule.id).contains id then lastKept id trace else none := by
  simp [lastKept]

/-- A firing is remembered until the rule fires again or is dropped. -/
theorem lastKept_of_kept {before between : List (Trace N)} {f : Firing N}
    (hQuiet : ∀ h, .fired h ∈ between → h.event.ruleId ≠ f.event.ruleId)
    (hKept : ∀ rules, .reloaded rules ∈ between → f.event.ruleId ∈ rules.map AlertRule.id) :
    lastKept f.event.ruleId (before ++ .fired f :: between) = some f.event.ts := by
  induction between using List.reverseRecOn with
  | nil => simp
  | append_singleton between item ih =>
      have hEarlier := ih (fun h hMem => hQuiet h (List.mem_append_left _ hMem))
        (fun rules hMem => hKept rules (List.mem_append_left _ hMem))
      rw [← List.cons_append, ← List.append_assoc]
      cases item with
      | fired h =>
          have hOther : h.event.ruleId ≠ f.event.ruleId := hQuiet h (by simp)
          rw [lastKept_fired, if_neg hOther, hEarlier]
      | reloaded rules =>
          have hLive : f.event.ruleId ∈ rules.map AlertRule.id := hKept rules (by simp)
          rw [lastKept_reloaded, if_pos (List.contains_iff_mem.mpr hLive), hEarlier]

/-- Every firing comes after the cooldown of its rule. -/
def GapsOk (trace : List (Trace N)) : Prop :=
  ∀ before g after, trace = before ++ .fired g :: after →
    g.rule.cooldownSeconds ≤ g.event.ts - (lastKept g.event.ruleId before).getD 0

theorem gapsOk_concat {trace : List (Trace N)} {item : Trace N} (h : GapsOk trace)
    (hItem : ∀ g, item = .fired g →
      g.rule.cooldownSeconds ≤ g.event.ts - (lastKept g.event.ruleId trace).getD 0) :
    GapsOk (trace ++ [item]) := by
  intro before g after hSplit
  rcases split_concat hSplit with ⟨rfl, hLast⟩ | ⟨rest, hTrace⟩
  · exact hItem g hLast
  · exact h before g rest hTrace

/-! ### One rule, one call -/

section Pass

variable [PyNumber N]

/-- What a rule that fires says of itself. -/
theorem AlertEngine.fires_some {engine : AlertEngine N} {now : Int} {ctx : Value N}
    {rule : AlertRule N} {event : AlertEvent N} (h : engine.fires now ctx rule = some event) :
    rule.enabled = true ∧ event.ruleId = rule.id ∧ event.severity = rule.severity ∧
      event.ts = now ∧ rule.cooldownSeconds ≤ now - (engine.lastFired.get rule.id).getD 0 := by
  unfold AlertEngine.fires at h
  split at h
  · cases h
  · rename_i hEnabled
    split at h
    · split_ifs at h with _ hCooldown
      cases h
      exact ⟨by simpa using hEnabled, rfl, rfl, rfl, not_lt.mp hCooldown⟩
    · cases h

/-- A rule changes nothing, or it fires. -/
theorem evaluateRule_cases (now : Int) (inQuiet : Bool) (ctx : Value N) (pass : Pass N)
    (rule : AlertRule N) :
    evaluateRule now inQuiet ctx pass rule = pass ∨
      ∃ event, pass.engine.fires now ctx rule = some event ∧
        evaluateRule now inQuiet ctx pass rule =
          { engine :=
              { pass.engine.record event with
                pending := pass.engine.pending ++
                  ([⟨event, rule⟩].filter (Firing.held inQuiet)).map Firing.notice }
            fired := pass.fired ++ [⟨event, rule⟩]
            dispatched := pass.dispatched ++
              ([⟨event, rule⟩].filter fun f => !f.held inQuiet).map Firing.notice } := by
  unfold evaluateRule
  cases hFires : pass.engine.fires now ctx rule with
  | none => exact Or.inl rfl
  | some event =>
      obtain ⟨_, _, hSeverity, _, _⟩ := AlertEngine.fires_some hFires
      refine Or.inr ⟨event, rfl, ?_⟩
      have hHeld : (inQuiet && rule.severity ≠ "alarm") = Firing.held inQuiet ⟨event, rule⟩ := by
        simp [Firing.held, hSeverity]
      dsimp only
      rw [hHeld]
      cases h : Firing.held inQuiet ⟨event, rule⟩ <;>
        simp [h, Firing.notice, AlertEngine.record]

/-- What a call has done after some of its rules. -/
structure PassFaithful (trace : List (Trace N)) (start : Pass N) (inQuiet : Bool)
    (pass : Pass N) : Prop where
  rules : pass.engine.rules = start.engine.rules
  wasQuiet : pass.engine.wasQuiet = start.engine.wasQuiet
  pending : pass.engine.pending =
    start.engine.pending ++ (pass.fired.filter (Firing.held inQuiet)).map Firing.notice
  dispatched : pass.dispatched =
    start.dispatched ++ (pass.fired.filter fun f => !f.held inQuiet).map Firing.notice
  lastFired : ∀ id, pass.engine.lastFired.get id = lastKept id (trace ++ pass.fired.map .fired)
  gaps : GapsOk (trace ++ pass.fired.map .fired)

theorem PassFaithful.evaluateRule {trace : List (Trace N)} {start pass : Pass N}
    {inQuiet : Bool} (h : PassFaithful trace start inQuiet pass) (now : Int) (ctx : Value N)
    (rule : AlertRule N) :
    PassFaithful trace start inQuiet (evaluateRule now inQuiet ctx pass rule) := by
  rcases evaluateRule_cases now inQuiet ctx pass rule with hSame | ⟨event, hFires, hPass⟩
  · rw [hSame]
    exact h
  · obtain ⟨_, hId, _, hTs, hCooldown⟩ := AlertEngine.fires_some hFires
    have hTrace : trace ++ (pass.fired ++ [Firing.mk event rule]).map Trace.fired =
        trace ++ pass.fired.map Trace.fired ++ [Trace.fired ⟨event, rule⟩] := by simp
    rw [hPass]
    constructor
    case rules => exact h.rules
    case wasQuiet => exact h.wasQuiet
    case pending => simp [h.pending]
    case dispatched => simp [h.dispatched]
    case lastFired =>
      intro id
      rw [hTrace, lastKept_fired, ← h.lastFired id]
      simp [AlertEngine.record, eq_comm]
    case gaps =>
      rw [hTrace]
      refine gapsOk_concat h.gaps ?_
      intro g hg
      cases hg
      rw [← h.lastFired, hId, hTs]
      exact hCooldown

theorem PassFaithful.foldl {trace : List (Trace N)} {start pass : Pass N} {inQuiet : Bool}
    (h : PassFaithful trace start inQuiet pass) (now : Int) (ctx : Value N)
    (rules : List (AlertRule N)) :
    PassFaithful trace start inQuiet (rules.foldl (Alerts.evaluateRule now inQuiet ctx) pass) := by
  induction rules generalizing pass with
  | nil => exact h
  | cons rule rules ih => exact ih (h.evaluateRule now ctx rule)

end Pass

/-! ### Runs -/

section Run

/-- The buffer and the flag say what the log says. -/
structure WorldInv (w : World N) : Prop where
  pending : w.engine.pending = heldBack w.log
  wasQuiet : w.engine.wasQuiet = lastQuiet w.log
  lastFired : ∀ id, w.engine.lastFired.get id = lastKept id (w.log.flatMap Entry.trace)
  gaps : GapsOk (w.log.flatMap Entry.trace)
  accounted : (w.log.flatMap Entry.dispatched ++ w.engine.pending).Perm
    ((w.log.flatMap Entry.fired).map Firing.notice)
  calls : ∀ before c after, w.log = before ++ .call c :: after →
    c.dispatched = (if c.inQuiet then [] else heldBack before) ++
        (c.fired.filter fun f => !f.held c.inQuiet).map Firing.notice ∧
      (c.inQuiet = false → c.buffer = [])

/-- A new world. -/
theorem worldInv_init (rules : List (AlertRule N)) (transports : List String)
    (quietHours : Option (Int × Int)) :
    WorldInv ⟨AlertEngine.init rules transports quietHours, []⟩ := by
  constructor
  case pending => rfl
  case wasQuiet => rfl
  case lastFired => exact fun _ => rfl
  case gaps => exact fun before g after hSplit => by simp at hSplit
  case accounted => exact List.Perm.refl _
  case calls => exact fun before c after hSplit => by simp at hSplit

variable {w : World N}

/-- A call starts with what the calls before it held back, if quiet hours are over. -/
theorem WorldInv.begin (h : WorldInv w) (inQuiet : Bool) :
    PassFaithful (w.log.flatMap Entry.trace) (beginPass w.engine inQuiet) inQuiet
        (beginPass w.engine inQuiet) ∧
      (beginPass w.engine inQuiet).engine.wasQuiet = some inQuiet ∧
      (beginPass w.engine inQuiet).engine.pending = (if inQuiet then heldBack w.log else []) ∧
      (beginPass w.engine inQuiet).dispatched = (if inQuiet then [] else heldBack w.log) ∧
      (beginPass w.engine inQuiet).fired = [] := by
  have hLast : ∀ id, w.engine.lastFired.get id =
      lastKept id (w.log.flatMap Entry.trace ++ ([] : List (Firing N)).map Trace.fired) := by
    simpa using h.lastFired
  have hGaps : GapsOk (w.log.flatMap Entry.trace ++ ([] : List (Firing N)).map Trace.fired) := by
    simpa using h.gaps
  unfold beginPass
  split
  case isTrue hEdge =>
    obtain ⟨_, rfl⟩ := hEdge
    exact ⟨⟨rfl, rfl, rfl, by simp, hLast, hGaps⟩, rfl, rfl, h.pending, rfl⟩
  case isFalse hEdge =>
    refine ⟨⟨rfl, rfl, by simp, rfl, hLast, hGaps⟩, rfl, ?_⟩
    cases inQuiet with
    | true => exact ⟨h.pending, rfl, rfl⟩
    | false =>
        have hNone : heldBack w.log = [] := by
          refine heldBack_eq_nil ?_
          rw [← h.wasQuiet]
          exact fun hWas => hEdge ⟨hWas, rfl⟩
        exact ⟨h.pending.trans hNone, hNone.symm, rfl⟩

variable [PyNumber N] {zone : Zone}

theorem WorldInv.evaluate (h : WorldInv w) (now : Int) (snapshot : Snapshot N) :
    WorldInv (w.step zone (.evaluate now snapshot)) := by
  obtain ⟨hBegin, hWas, hPending, hDispatched, _⟩ := h.begin (w.engine.isQuietNow zone now)
  have hPass := hBegin.foldl now (buildAlertContext snapshot) w.engine.rules
  change PassFaithful _ _ _ (Alerts.evaluate zone w.engine now snapshot) at hPass
  simp only [World.step]
  generalize Alerts.evaluate zone w.engine now snapshot = pass at hPass ⊢
  generalize w.engine.isQuietNow zone now = inQuiet at hPass hWas hPending hDispatched ⊢
  have hBuffer := hPass.pending
  have hHanded := hPass.dispatched
  rw [hPending] at hBuffer
  rw [hDispatched] at hHanded
  constructor
  case pending =>
    rw [heldBack_call, hBuffer]
    cases inQuiet <;> simp [filter_held_false]
  case wasQuiet =>
    rw [lastQuiet_call, hPass.wasQuiet, hWas]
  case lastFired =>
    simpa [Entry.trace] using hPass.lastFired
  case gaps =>
    simpa [Entry.trace] using hPass.gaps
  case accounted =>
    have hBefore := h.accounted
    rw [h.pending] at hBefore
    have hNew := perm_held pass.fired inQuiet
    simp only [List.flatMap_append, List.flatMap_singleton, Entry.dispatched, Entry.fired,
      List.map_append]
    rw [hHanded, hBuffer]
    refine List.Perm.trans ?_ (hBefore.append hNew)
    cases inQuiet with
    | true =>
        simp only [if_true, List.nil_append, List.append_assoc]
        exact (List.perm_append_comm_assoc _ _ _).append_left _
    | false => simp
  case calls =>
    intro before c after hSplit
    rcases split_concat hSplit with ⟨hLog, hCall⟩ | ⟨rest, hLog⟩
    · cases hCall
      subst hLog
      refine ⟨hHanded, ?_⟩
      intro hOutside
      subst hOutside
      simpa [filter_held_false] using hBuffer
    · exact h.calls before c rest hLog

theorem WorldInv.reload (h : WorldInv w) (rules : List (AlertRule N)) :
    WorldInv (w.step zone (.reload rules)) := by
  constructor
  case pending => simpa [World.step, AlertEngine.reloadRules] using h.pending
  case wasQuiet => simpa [World.step, AlertEngine.reloadRules] using h.wasQuiet
  case lastFired =>
    intro id
    simp only [World.step, List.flatMap_append, List.flatMap_singleton, Entry.trace,
      AlertEngine.reloadRules, Dict.get_filter, lastKept_reloaded, h.lastFired id]
  case gaps =>
    simp only [World.step, List.flatMap_append, List.flatMap_singleton, Entry.trace]
    exact gapsOk_concat h.gaps fun g hg => nomatch hg
  case accounted => simpa [World.step, AlertEngine.reloadRules, Entry.dispatched, Entry.fired]
    using h.accounted
  case calls =>
    intro before c after hSplit
    rcases split_concat hSplit with ⟨_, hCall⟩ | ⟨rest, hLog⟩
    · cases hCall
    · exact h.calls before c rest hLog

theorem worldInv_run (zone : Zone) {w : World N} (h : WorldInv w) (ops : List (EngineOp N)) :
    WorldInv (run (World.step zone) w ops) := by
  refine run_preserves ?_ h ops
  intro w op hw
  cases op with
  | evaluate now snapshot => exact hw.evaluate now snapshot
  | reload rules => exact hw.reload rules

/-- Over any sequence of evaluations at any times and of reloads, every event is
handed over once or waits; what waits is handed over, in firing order, by the first
call outside quiet hours; an alarm never waits; and the cooldown is kept. -/
theorem quiet_hours_faithful (zone : Zone) (rules : List (AlertRule N))
    (transports : List String) (quietHours : Option (Int × Int)) (ops : List (EngineOp N)) :
    QuietHoursFaithful
      (run (World.step zone) ⟨AlertEngine.init rules transports quietHours, []⟩ ops).log
      (run (World.step zone) ⟨AlertEngine.init rules transports quietHours, []⟩ ops).engine.pending
    := by
  have hInv := worldInv_run zone (worldInv_init rules transports quietHours) ops
  generalize run (World.step zone) ⟨AlertEngine.init rules transports quietHours, []⟩ ops = w
    at hInv
  constructor
  case accounted => exact hInv.accounted
  case flushed =>
    intro before c after hSplit hOutside
    obtain ⟨hDispatched, hBuffer⟩ := hInv.calls before c after hSplit
    rw [hOutside, filter_not_held_false] at hDispatched
    exact ⟨hDispatched, hBuffer hOutside⟩
  case alarms =>
    intro c hMem
    obtain ⟨before, after, hSplit⟩ := List.append_of_mem hMem
    obtain ⟨hDispatched, _⟩ := hInv.calls before c after hSplit
    rw [hDispatched]
    refine ((List.monotone_filter_right _ ?_).map _).trans (List.sublist_append_right _ _)
    intro f hAlarm
    have hSeverity : f.event.severity = "alarm" := of_decide_eq_true hAlarm
    simp [Firing.held, hSeverity]
  case cooldown =>
    intro before f between g after hSplit hSame hQuiet hKept
    rw [← List.cons_append, ← List.append_assoc] at hSplit
    have hGap := hInv.gaps _ g after hSplit
    rw [← hSame, lastKept_of_kept hQuiet hKept] at hGap
    exact hGap

end Run

end WattPost.Alerts
