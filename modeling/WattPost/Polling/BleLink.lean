import WattPost.Lib.Runs
import WattPost.Polling.Poller

/-! The transports that hold a connection over BLE, and which of them the poller gets back. -/
namespace Orchestrator

open RetrySchedule

/-! ### Open and close -/

/-- The `_client`, if there is one, and whether it is connected. -/
abbrev Link := Option Bool

/-- One attempt to connect. -/
inductive Attempt where
  /-- The device does not advertise: no client is made. -/
  | unseen
  /-- A client is made, and does not connect. -/
  | lost
  /-- It connects, and does not let us subscribe. -/
  | deaf
  | taken
deriving DecidableEq

/-- `_open_once`. -/
def Link.openOnce (link : Link) : Attempt → Link × Bool
  | .unseen => (link, false)
  | .lost => (some false, false)
  | .deaf => (some true, false)
  | .taken => (some true, true)

/-- The attempts of `open`: fifteen where a dongle is shared, else one. -/
def Link.attempts : Link → List Attempt → Link × Bool
  | link, [] => (link, false)
  | link, a :: rest =>
      match link.openOnce a with
      | (link, true) => (link, true)
      | (link, false) => Link.attempts link rest

def bleLink : TransportClass Link (List Attempt) where
  isConnected link := link
  close _ := (none, true)
  «open» link attempts := if link = some true then (link, true) else link.attempts attempts

/-- Nobody saw the device. -/
def Unseen (attempts : List Attempt) : Prop := ∀ a ∈ attempts, a = .unseen

instance (attempts : List Attempt) : Decidable (Unseen attempts) :=
  inferInstanceAs (Decidable (∀ a ∈ attempts, a = .unseen))

/-- Without a client there is none afterwards only if nobody saw the device. -/
theorem Link.attempts_eq_none_iff {link : Link} {attempts : List Attempt} :
    (link.attempts attempts).1 = none ↔ link = none ∧ Unseen attempts := by
  induction attempts generalizing link with
  | nil => simp [Link.attempts, Unseen]
  | cons a rest ih =>
      cases a <;> simp [Link.attempts, Link.openOnce, Unseen, ih]

/-- An attempt that is taken ends the search, and leaves the link connected. -/
theorem Link.attempts_taken (link : Link) {attempts : List Attempt} (h : .taken ∈ attempts) :
    link.attempts attempts = (some true, true) := by
  induction attempts generalizing link with
  | nil => cases h
  | cons a rest ih =>
      cases a with
      | taken => rfl
      | unseen => exact ih link (by simpa using h)
      | lost => exact ih (some false) (by simpa using h)
      | deaf => exact ih (some true) (by simpa using h)

/-- `open` returns only when the link is connected. -/
theorem Link.attempts_returns {link : Link} {attempts : List Attempt}
    (h : (link.attempts attempts).2 = true) : (link.attempts attempts).1 = some true := by
  induction attempts generalizing link with
  | nil => cases h
  | cons a rest ih =>
      cases a with
      | taken => rfl
      | unseen => exact ih h
      | lost => exact ih h
      | deaf => exact ih h

/-! ### Looks and drops -/

/-- What may happen to a link that was built: it drops, or the poller looks at it. -/
inductive Event where
  | drop
  | look (look : Look (List Attempt))

def Held.step (h : Held Link) : Event → Held Link
  | .drop => { h with transport := h.transport.map fun _ => false }
  | .look look => (h.ensureOpen bleLink look).1

/-- No client that could be found dropped, and no retry. -/
def Held.Stranded (h : Held Link) : Prop := h.transport = none ∧ h.retry = none

/-- A look that finds the link dropped, closes it, and then does not see the device. -/
def Held.Loses (h : Held Link) : Event → Prop
  | .drop => False
  | .look look => h.transport = some false ∧ h.retry = none ∧ Unseen look.reopen

theorem bleLink_open_returns {link : Link} {attempts : List Attempt}
    (h : (bleLink.open link attempts).2 = true) :
    (bleLink.open link attempts).1 = some true := by
  by_cases hConnected : link = some true
  · simp [bleLink, hConnected]
  · simp only [bleLink, if_neg hConnected] at h ⊢
    exact Link.attempts_returns h

theorem bleLink_open_taken (link : Link) {attempts : List Attempt} (h : .taken ∈ attempts) :
    bleLink.open link attempts = (some true, true) := by
  by_cases hConnected : link = some true
  · simp [bleLink, hConnected]
  · simp only [bleLink, if_neg hConnected]
    exact link.attempts_taken h

section Look

variable {h : Held Link} {look : Look (List Attempt)}

theorem Held.ensureOpen_dropped (hDropped : h.transport = some false) :
    h.ensureOpen bleLink look =
      match Link.attempts none look.reopen with
      | (link, false) => ({ h with transport := link }, .ok none)
      | (link, true) => Held.retryOpen bleLink { h with transport := link } look := by
  simp only [Held.ensureOpen, Held.reopen, bleLink, hDropped]
  rcases Link.attempts none look.reopen with ⟨link, ok⟩
  cases ok <;> rfl

theorem Held.ensureOpen_of_ne (hLink : h.transport ≠ some false) :
    h.ensureOpen bleLink look = h.retryOpen bleLink look := by
  simp [Held.ensureOpen, Held.reopen, bleLink, hLink]

/-- A retry takes itself away only by connecting. -/
theorem Held.retryOpen_stranded_iff :
    (h.retryOpen bleLink look).1.Stranded ↔ h.Stranded := by
  rcases h with ⟨link, retry⟩
  cases retry with
  | none => rfl
  | some r =>
      have hNot : ¬ (⟨link, some r⟩ : Held Link).Stranded := by simp [Held.Stranded]
      refine iff_of_false ?_ hNot
      have hReturns := @bleLink_open_returns link look.retry
      rcases hOpened : bleLink.open link look.retry with ⟨link', ok⟩
      rw [hOpened] at hReturns
      simp only [Held.retryOpen, hOpened]
      split
      · cases ok with
        | true =>
            have hConnected : link' = some true := hReturns rfl
            simp [Held.Stranded, hConnected]
        | false =>
            simp only [Bool.false_eq_true, if_false]
            split <;> simp [Held.Stranded]
      · exact hNot

/-- What strands a link, and that nothing here brings it back. -/
theorem Held.step_stranded_iff (event : Event) :
    (h.step event).Stranded ↔ h.Stranded ∨ h.Loses event := by
  cases event with
  | drop => simp [Held.step, Held.Stranded, Held.Loses]
  | look look =>
      by_cases hDropped : h.transport = some false
      · have hNot : ¬ h.Stranded := by simp [Held.Stranded, hDropped]
        have hLink := @Link.attempts_eq_none_iff none look.reopen
        rw [Held.step, Held.ensureOpen_dropped hDropped, or_iff_right hNot]
        have hReturns := @Link.attempts_returns none look.reopen
        generalize Link.attempts none look.reopen = opened at hLink hReturns ⊢
        obtain ⟨link, ok⟩ := opened
        cases ok with
        | false =>
            have hLost : link = none ↔ Unseen look.reopen := by simpa using hLink
            simp [Held.Stranded, Held.Loses, hDropped, hLost, and_comm]
        | true =>
            have hConnected : link = some true := hReturns rfl
            have hSeen : ¬ Unseen look.reopen := by simpa [hConnected] using hLink
            refine iff_of_false ?_ fun hLoses => hSeen hLoses.2.2
            intro hStranded
            have hBefore := Held.retryOpen_stranded_iff.mp hStranded
            simp [Held.Stranded, hConnected] at hBefore
      · rw [Held.step, Held.ensureOpen_of_ne hDropped, Held.retryOpen_stranded_iff]
        simp [Held.Loses, hDropped]

end Look

/-! ### Runs -/

/-- Every call of `_ensure_open` is over by that time. -/
def Event.By (time : ℚ) : Event → Prop
  | .drop => True
  | .look l => l.failedAt ≤ time

/-- No retry waits longer than the cap. -/
def Held.Due (time : ℚ) (h : Held Link) : Prop := ∀ r ∈ h.retry, r.next ≤ time + 300

variable {time : ℚ}

theorem Held.Due.retryOpen {h : Held Link} (hDue : h.Due time) {look : Look (List Attempt)}
    (hBy : look.failedAt ≤ time) : (h.retryOpen bleLink look).1.Due time := by
  rcases h with ⟨link, retry⟩
  cases retry with
  | none => exact hDue
  | some r =>
      simp only [Held.retryOpen]
      split
      · split
        · simp [Held.Due]
        · split
          · rename_i r' hAgain
            have hNext : r'.next ≤ look.failedAt + 300 :=
              (retryPolicy.again_eq_some hAgain).2.2.2
            intro r'' hMem
            obtain rfl := Option.some_inj.mp hMem
            linarith
          · exact hDue
      · exact hDue

theorem Held.Due.step {h : Held Link} (hDue : h.Due time) {event : Event}
    (hBy : event.By time) : (h.step event).Due time := by
  cases event with
  | drop => exact hDue
  | look look =>
      by_cases hDropped : h.transport = some false
      · rw [Held.step, Held.ensureOpen_dropped hDropped]
        split
        · exact hDue
        · exact Held.Due.retryOpen (by exact hDue) hBy
      · rw [Held.step, Held.ensureOpen_of_ne hDropped]
        exact hDue.retryOpen hBy

theorem Held.Due.run {h : Held Link} (hDue : h.Due time) {events : List Event}
    (hBy : ∀ event ∈ events, event.By time) : (Runs.run Held.step h events).Due time := by
  induction events generalizing h with
  | nil => exact hDue
  | cons event events ih =>
      obtain ⟨hEvent, hRest⟩ := List.forall_mem_cons.mp hBy
      exact ih (hDue.step hEvent) hRest

theorem Held.start_due (link : Link) (attempts : List Attempt) {startedAt : ℚ}
    (hStarted : startedAt ≤ time) : (Held.start bleLink link attempts startedAt).Due time := by
  intro r hMem
  obtain ⟨-, hRetry⟩ := Option.ite_none_left_eq_some.mp hMem
  obtain rfl := Option.some_inj.mp hRetry
  dsimp only
  linarith

theorem Held.start_not_stranded (link : Link) (attempts : List Attempt) (startedAt : ℚ) :
    ¬ (Held.start bleLink link attempts startedAt).Stranded := by
  rintro ⟨hLink, hRetry⟩
  have hOpens : (bleLink.open link attempts).2 = true := by simpa [Held.start] using hRetry
  have hConnected := bleLink_open_returns hOpens
  simp [Held.start, hConnected] at hLink

/-- In a look of a run in which the device answers again, it does so. -/
def Event.Answered : Event → Prop
  | .drop => True
  | .look l => .taken ∈ l.reopen ∧ .taken ∈ l.retry

/-- A retry that is answered is not put off. -/
theorem Held.Due.retryOpen_taken {h : Held Link} (hDue : h.Due time)
    {look : Look (List Attempt)} (hRetry : .taken ∈ look.retry) :
    (h.retryOpen bleLink look).1.Due time := by
  rcases h with ⟨link, retry⟩
  cases retry with
  | none => exact hDue
  | some r =>
      simp only [Held.retryOpen, bleLink_open_taken link hRetry]
      split
      · simp [Held.Due]
      · exact hDue

theorem Held.Due.answered {h : Held Link} (hDue : h.Due time) {event : Event}
    (hAnswered : event.Answered) : (h.step event).Due time := by
  cases event with
  | drop => exact hDue
  | look look =>
      by_cases hDropped : h.transport = some false
      · rw [Held.step, Held.ensureOpen_dropped hDropped, Link.attempts_taken none hAnswered.1]
        exact Held.Due.retryOpen_taken (by exact hDue) hAnswered.2
      · rw [Held.step, Held.ensureOpen_of_ne hDropped]
        exact hDue.retryOpen_taken hAnswered.2

/-- Drops and answered looks do not strand a link, and put no retry off. -/
theorem Held.run_answered {h : Held Link} (hDue : h.Due time) {events : List Event}
    (hAnswered : ∀ event ∈ events, event.Answered) :
    (Runs.run Held.step h events).Due time ∧
      ((Runs.run Held.step h events).Stranded ↔ h.Stranded) := by
  induction events generalizing h with
  | nil => exact ⟨hDue, Iff.rfl⟩
  | cons event events ih =>
      obtain ⟨hEvent, hRest⟩ := List.forall_mem_cons.mp hAnswered
      obtain ⟨hRunDue, hRun⟩ := ih (hDue.answered hEvent) hRest
      have hKeeps : ¬ h.Loses event := by
        cases event with
        | drop => exact id
        | look look => exact fun hLoses => absurd (hLoses.2.2 _ hEvent.1) (by decide)
      exact ⟨hRunDue, hRun.trans ((Held.step_stranded_iff event).trans (or_iff_left hKeeps))⟩

/-- A link is stranded at the end of a run if one of its looks strands it. -/
theorem Held.run_stranded_iff {h : Held Link} {events : List Event} :
    (Runs.run Held.step h events).Stranded ↔
      h.Stranded ∨ ∃ before event after, events = before ++ event :: after ∧
        (Runs.run Held.step h before).Loses event := by
  induction events using List.reverseRecOn with
  | nil => simp
  | append_singleton events event ih =>
      rw [Runs.run_concat, Held.step_stranded_iff, ih, or_assoc]
      refine or_congr_right ⟨?_, ?_⟩
      · rintro (⟨before, lost, after, rfl, hLoses⟩ | hLoses)
        · exact ⟨before, lost, after ++ [event], by simp, hLoses⟩
        · exact ⟨events, event, [], rfl, hLoses⟩
      · rintro ⟨before, lost, after, hSplit, hLoses⟩
        rcases Runs.split_concat hSplit with ⟨rfl, rfl⟩ | ⟨rest, hRest⟩
        · exact Or.inr hLoses
        · exact Or.inl ⟨before, lost, rest, hRest, hLoses⟩

/-- Where the device answers and the retry is due, a look connects all but a stranded link. -/
theorem Held.ensureOpen_connects_iff {h : Held Link} {look : Look (List Attempt)}
    (hDue : ∀ r ∈ h.retry, r.next ≤ look.now) (hReopen : .taken ∈ look.reopen)
    (hRetry : .taken ∈ look.retry) :
    (h.ensureOpen bleLink look).1.transport = some true ↔ ¬ h.Stranded := by
  have hConnects : ∀ {h : Held Link}, (∀ r ∈ h.retry, r.next ≤ look.now) →
      (h.transport = some true ∨ h.retry ≠ none) →
      (h.retryOpen bleLink look).1.transport = some true := by
    intro h hDue hSome
    rcases h with ⟨link, retry⟩
    cases retry with
    | none => simpa [Held.retryOpen] using hSome
    | some r =>
        simp only [Held.retryOpen, bleLink_open_taken link hRetry]
        rw [if_pos (hDue r rfl)]
        rfl
  by_cases hDropped : h.transport = some false
  · rw [Held.ensureOpen_dropped hDropped, Link.attempts_taken none hReopen]
    exact iff_of_true (hConnects hDue (Or.inl rfl)) (by simp [Held.Stranded, hDropped])
  · rw [Held.ensureOpen_of_ne hDropped]
    refine ⟨fun hConnected => ?_, fun hNot => hConnects hDue ?_⟩
    · rw [← @Held.retryOpen_stranded_iff h look]
      simp [Held.Stranded, hConnected]
    · rcases hLink : h.transport with _ | _ | _
      · exact Or.inr fun hNone => hNot ⟨hLink, hNone⟩
      · exact absurd hLink hDropped
      · exact Or.inl rfl

/-- From the start of the poller on, and whatever drops and looks come: once the device answers
again, and whatever drops and answered looks come from then on, the look five minutes later has
the link connected, unless a look has found the link dropped with no retry waiting, and has closed
it and then not seen the device. -/
theorem link_recovers_iff (link : Link) (attempts : List Attempt) {startedAt : ℚ}
    (hStarted : startedAt ≤ time) {events later : List Event}
    (hBy : ∀ event ∈ events, event.By time) (hAnswered : ∀ event ∈ later, event.Answered)
    {look : Look (List Attempt)} (hNow : time + 300 ≤ look.now)
    (hReopen : .taken ∈ look.reopen) (hRetry : .taken ∈ look.retry) :
    ((Runs.run Held.step (.start bleLink link attempts startedAt) (events ++ later)).ensureOpen
        bleLink look).1.transport = some true ↔
      ¬ ∃ before event after, events = before ++ event :: after ∧
        (Runs.run Held.step (.start bleLink link attempts startedAt) before).Loses event := by
  have hDue := Held.Due.run (Held.start_due link attempts hStarted) hBy
  obtain ⟨hLater, hStranded⟩ := Held.run_answered hDue hAnswered
  rw [← Runs.run_append] at hLater hStranded
  rw [Held.ensureOpen_connects_iff (fun r hMem => (hLater r hMem).trans hNow) hReopen hRetry,
    hStranded, Held.run_stranded_iff,
    or_iff_right (Held.start_not_stranded link attempts startedAt)]

/-- A link that was up drops, and the next look comes before the device advertises again. A minute
later it does, and the link is not looked for. -/
theorem link_recovers_iff_unseen :
    (((Runs.run Held.step (.start bleLink none [.taken] 0)
          ([.drop, .look ⟨60, [.unseen], [], 70⟩] ++
            [.look ⟨120, [.unseen, .taken], [.taken], 120⟩])).ensureOpen bleLink
              ⟨370, [.unseen, .taken], [.taken], 370⟩).1.transport = some true ↔
      ¬ ∃ before event after,
        [Event.drop, .look ⟨60, [.unseen], [], 70⟩] = before ++ event :: after ∧
          (Runs.run Held.step (.start bleLink none [.taken] 0) before).Loses event) ∧
    (Runs.run Held.step (.start bleLink none [.taken] 0)
      [.drop, .look ⟨60, [.unseen], [], 70⟩]).Stranded := by
  have hBy : ∀ event ∈ [Event.drop, .look ⟨60, [.unseen], [], 70⟩], event.By 70 := by
    simp [Event.By]
  have hAnswered : ∀ event ∈ [Event.look ⟨120, [.unseen, .taken], [.taken], 120⟩],
      event.Answered := by
    simp [Event.Answered]
  exact ⟨link_recovers_iff none [.taken] (by norm_num) hBy hAnswered (by norm_num) (by decide)
    (by decide), rfl, rfl⟩

/-! ### The polls of the poller -/

section Polls

variable {δ : Type} {k : String} {s : Poller Link} {h : Held Link} (config : Config Link)
  (repr : String → String)

/-- Between two looks a link may drop, and no more. -/
def Fades (link link' : Link) : Prop := link' = link ∨ link' = link.map fun _ => false

structure Quiet (k : String) (turn : Turn Link (List Attempt) δ) : Prop where
  meanwhile : ∀ link, Fades link (turn.meanwhile k link)
  poll : ∀ link, Fades link (turn.poll link).1

/-- The poller has what some drops and looks, over by that time, make of the link. -/
def Poller.Follows (time : ℚ) (s : Poller Link) (k : String) (h : Held Link) : Prop :=
  ∃ events, (∀ event ∈ events, event.By time) ∧ s.Has k (Runs.run Held.step h events)

theorem Poller.Follows.step {event : Event} (hFollows : s.Follows time k h)
    (hBy : event.By time) {s' : Poller Link}
    (hStep : ∀ h', s.Has k h' → s'.Has k (h'.step event)) : s'.Follows time k h := by
  obtain ⟨events, hEvents, hHas⟩ := hFollows
  refine ⟨events ++ [event], ?_, by simpa using hStep _ hHas⟩
  intro e hMem
  rcases List.mem_append.mp hMem with hOld | hNew
  · exact hEvents e hOld
  · exact List.mem_singleton.mp hNew ▸ hBy

/-- The poller with another value for the link. -/
theorem Poller.Follows.fade (hFollows : s.Follows time k h) {s' : Poller Link}
    (hFade : ∀ link, s.transports k = some link →
      ∃ link', s'.transports k = some link' ∧ Fades link link')
    (hRetry : s'.retryState k = s.retryState k) : s'.Follows time k h := by
  have hHas := hFollows
  obtain ⟨events, hEvents, hLink, hWas⟩ := hHas
  obtain ⟨link', hNow, rfl | hDrop⟩ := hFade _ hLink
  · exact ⟨events, hEvents, hNow, hRetry.trans hWas⟩
  · have hOver : Event.drop.By time := trivial
    refine hFollows.step hOver ?_
    rintro h' ⟨hLink', hRetry'⟩
    obtain rfl := hDrop
    rw [hLink] at hLink'
    obtain hSame := Option.some_inj.mp hLink'
    exact ⟨by rw [hNow, hSame, Held.step], hRetry.trans hRetry'⟩

theorem Poller.Follows.frame (hFollows : s.Follows time k h) {s' : Poller Link}
    (hLink : s'.transports k = s.transports k) (hRetry : s'.retryState k = s.retryState k) :
    s'.Follows time k h :=
  hFollows.fade (fun link hWas => ⟨link, hLink.trans hWas, Or.inl rfl⟩) hRetry

theorem Poller.Follows.ensureOpen (hFollows : s.Follows time k h) (id : String)
    {look : Look (List Attempt)} (hBy : look.failedAt ≤ time) :
    (s.ensureOpen bleLink config id look).1.Follows time k h := by
  by_cases hId : id = k
  · subst hId
    have hOver : (Event.look look).By time := hBy
    refine hFollows.step hOver ?_
    rintro h' ⟨hLink, hRetry⟩
    simp only [Poller.ensureOpen, hLink, hRetry]
    exact s.has_setHeld id _
  · have hNe : k ≠ id := fun hEq => hId hEq.symm
    refine hFollows.frame ?_ ?_ <;> unfold Poller.ensureOpen <;> split
    · split
      · dsimp only
        split <;> simp [Poller.setTransport, Function.update_of_ne hNe]
      · rfl
    · simp [Poller.setHeld, Poller.setTransport, Poller.setRetry, Function.update_of_ne hNe]
    · split
      · dsimp only
        split <;> simp [Poller.setTransport]
      · rfl
    · simp [Poller.setHeld, Poller.setTransport, Poller.setRetry, Function.update_of_ne hNe]

theorem Poller.Follows.pollDevice (hFollows : s.Follows time k h)
    {turn : Turn Link (List Attempt) δ} (hQuiet : Quiet k turn) (hBy : turn.failedAt ≤ time)
    (dev : DeviceCfg) (result : Result δ) :
    (s.pollDevice bleLink config repr result dev turn).1.Follows time k h := by
  have hNow : (s.meanwhile turn.meanwhile).Follows time k h :=
    hFollows.fade (fun link hLink => ⟨turn.meanwhile k link, by
      simp [Poller.meanwhile, hLink], hQuiet.meanwhile link⟩) rfl
  have hLook := hNow.ensureOpen config dev.transport hBy
  rcases hEnsure : (s.meanwhile turn.meanwhile).ensureOpen bleLink config dev.transport
    turn.toLook with ⟨s', e | _ | link⟩ <;> rw [hEnsure] at hLook
  · simpa only [Poller.pollDevice, hEnsure] using hLook
  · simpa only [Poller.pollDevice, hEnsure] using hLook
  · have hGiven : s'.transports dev.transport = some link := by
      have hAll := @Poller.ensureOpen_given _ _ bleLink config (s.meanwhile turn.meanwhile)
        dev.transport turn.toLook link
      rw [hEnsure] at hAll
      exact hAll rfl
    have hPolled : (s'.setTransport dev.transport (turn.poll link).1).Follows time k h := by
      refine hLook.fade (fun was hWas => ?_) rfl
      by_cases hDev : dev.transport = k
      · subst hDev
        obtain rfl := Option.some_inj.mp (hWas.symm.trans hGiven)
        exact ⟨_, by simp [Poller.setTransport], hQuiet.poll was⟩
      · exact ⟨was, by simpa [Poller.setTransport, Function.update_of_ne (Ne.symm hDev)] using
          hWas, Or.inl rfl⟩
    rcases hPoll : turn.poll link with ⟨link', _ | ⟨label, data⟩⟩ <;> rw [hPoll] at hPolled <;>
      simpa only [Poller.pollDevice, hEnsure, hPoll] using hPolled

theorem Poller.Follows.pollDevices (hFollows : s.Follows time k h)
    {run : List (DeviceCfg × Turn Link (List Attempt) δ)}
    (hQuiet : ∀ x ∈ run, Quiet k x.2 ∧ x.2.failedAt ≤ time) (result : Result δ) :
    (s.pollDevices bleLink config repr result run).1.Follows time k h := by
  induction run generalizing s result with
  | nil => exact hFollows
  | cons x run ih =>
      obtain ⟨dev, turn⟩ := x
      obtain ⟨hTurn, hRun⟩ := List.forall_mem_cons.mp hQuiet
      have hPoll := hFollows.pollDevice config repr hTurn.1 hTurn.2 dev result
      rcases hDevice : s.pollDevice bleLink config repr result dev turn with ⟨s', e | result'⟩ <;>
        rw [hDevice] at hPoll
      · simpa only [Poller.pollDevices, hDevice] using hPoll
      · simpa only [Poller.pollDevices, hDevice] using ih hPoll hRun result'

/-- In every run of polls the poller has what drops and looks have made of the link. -/
theorem Poller.Follows.polls (hFollows : s.Follows time k h)
    {polls : List (List (Turn Link (List Attempt) δ))}
    (hQuiet : ∀ turns ∈ polls, ∀ turn ∈ turns, Quiet k turn ∧ turn.failedAt ≤ time) :
    (s.polls bleLink config repr polls).1.Follows time k h := by
  induction polls generalizing s with
  | nil => exact hFollows
  | cons turns polls ih =>
      obtain ⟨hTurns, hRest⟩ := List.forall_mem_cons.mp hQuiet
      exact ih (hFollows.pollDevices config repr
        (fun x hMem => hTurns x.2 (List.of_mem_zip hMem).2) .empty) hRest

/-- The same of the poller, whatever else it polls: after any polls, the look five minutes later
has the link connected, unless the poller has neither a client nor a retry for it. -/
theorem polled_link_recovers_iff {runs : List (List Attempt × ℚ)} {link : Link}
    {attempts : List Attempt} {startedAt : ℚ} (hOpen : config.open bleLink runs = some s)
    (hStart : ((k, some link), attempts, startedAt) ∈ config.transports.zip runs)
    (hStarted : startedAt ≤ time) {polls : List (List (Turn Link (List Attempt) δ))}
    (hQuiet : ∀ turns ∈ polls, ∀ turn ∈ turns, Quiet k turn ∧ turn.failedAt ≤ time)
    {look : Look (List Attempt)} (hNow : time + 300 ≤ look.now)
    (hReopen : .taken ∈ look.reopen) (hRetry : .taken ∈ look.retry) :
    ((s.polls bleLink config repr polls).1.ensureOpen bleLink config k look).1.transports k =
        some (some true) ↔
      ¬ ((s.polls bleLink config repr polls).1.transports k = some none ∧
        (s.polls bleLink config repr polls).1.retryState k = none) := by
  have hFollows : s.Follows time k (.start bleLink link attempts startedAt) :=
    ⟨[], by simp, Config.has_of_open hOpen hStart⟩
  obtain ⟨events, hBy, hLink, hWaits⟩ := hFollows.polls config repr hQuiet
  have hDue := (Held.start_due link attempts hStarted).run hBy
  have hConnects := Held.ensureOpen_connects_iff (fun r hMem => (hDue r hMem).trans hNow)
    hReopen hRetry
  generalize Runs.run Held.step (.start bleLink link attempts startedAt) events = h at *
  rw [hLink, hWaits, Option.some_inj]
  refine Iff.trans ?_ hConnects
  simp [Poller.ensureOpen, hLink, hWaits, Poller.setHeld, Poller.setTransport, Poller.setRetry]

end Polls

end Orchestrator
