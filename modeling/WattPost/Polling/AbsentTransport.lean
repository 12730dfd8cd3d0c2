import WattPost.Polling.BleLink

/-! What a transport that stays away does to the polls of all the others. -/
namespace Orchestrator

open RetrySchedule

variable {τ α δ : Type}

/-! ### A transport that stays away -/

/-- The hardware of a transport is away through a turn: `open` raises, and nothing brings the
transport out of the states in which it is `Down`. -/
structure Absent (C : TransportClass τ α) (Down : τ → Prop) (id : String)
    (turn : Turn τ α δ) : Prop where
  raises : ∀ t, Down t → (C.open t turn.retry).2 = false ∧ Down (C.open t turn.retry).1
  meanwhile : ∀ t, Down t → Down (turn.meanwhile id t)
  poll : ∀ t, Down t → Down (turn.poll t).1

/-- The transport is down and waits for a retry. -/
structure Waits (Down : τ → Prop) (id : String) (r : Retry) (s : Poller τ) : Prop where
  down : ∃ t, s.transports id = some t ∧ Down t
  retry : s.retryState id = some r

/-- The looks at a transport in a poll, should the poll come to them. -/
def looksOf (id : String) (run : List (DeviceCfg × Turn τ α δ)) : List (ℚ × ℚ) :=
  (run.filter fun x => x.1.transport = id).map fun x => (x.2.now, x.2.failedAt)

/-- The looks that the poll comes to. -/
def Poller.looksMade (C : TransportClass τ α) (config : Config τ) (repr : String → String)
    (id : String) : Poller τ → Result δ → List (DeviceCfg × Turn τ α δ) → List (ℚ × ℚ)
  | _, _, [] => []
  | s, result, (dev, turn) :: rest =>
      looksOf id [(dev, turn)] ++
        match s.pollDevice C config repr result dev turn with
        | (_, .error _) => []
        | (s, .ok result) => Poller.looksMade C config repr id s result rest

theorem looksOf_cons (id : String) (x : DeviceCfg × Turn τ α δ)
    (run : List (DeviceCfg × Turn τ α δ)) :
    looksOf id (x :: run) = looksOf id [x] ++ looksOf id run := by
  rw [looksOf, ← List.singleton_append, List.filter_append, List.map_append]
  rfl

theorem looksOf_self {dev : DeviceCfg} (turn : Turn τ α δ) :
    looksOf dev.transport [(dev, turn)] = [(turn.now, turn.failedAt)] := by
  simp [looksOf]

theorem looksOf_of_ne {id : String} {dev : DeviceCfg} (turn : Turn τ α δ)
    (h : dev.transport ≠ id) : looksOf id [(dev, turn)] = [] := by
  simp [looksOf, h]

section Frame

variable {Down : τ → Prop} {k id : String} {r : Retry} {s : Poller τ}

theorem Waits.setTransport (h : Waits Down k r s) {t : τ} (hDown : id = k → Down t) :
    Waits Down k r (s.setTransport id t) := by
  refine ⟨?_, h.retry⟩
  rcases eq_or_ne k id with rfl | hNe
  · exact ⟨t, by simp [Poller.setTransport], hDown rfl⟩
  · simpa [Poller.setTransport, Function.update_of_ne hNe] using h.down

theorem Waits.setHeld_of_ne (h : Waits Down k r s) (hNe : id ≠ k) (held : Held τ) :
    Waits Down k r (s.setHeld id held) := by
  have hSet : Waits Down k r (s.setTransport id held.transport) :=
    h.setTransport fun hEq => absurd hEq hNe
  exact ⟨hSet.down, by
    simpa [Poller.setHeld, Poller.setRetry, Function.update_of_ne hNe.symm] using hSet.retry⟩

theorem waits_setHeld (s : Poller τ) {t : τ} (hDown : Down t) :
    Waits Down k r (s.setHeld k ⟨t, some r⟩) :=
  ⟨⟨t, by simp [Poller.setHeld, Poller.setTransport, Poller.setRetry], hDown⟩,
    by simp [Poller.setHeld, Poller.setRetry]⟩

theorem Waits.meanwhile (h : Waits Down k r s) {change : String → τ → τ}
    (hChange : ∀ t, Down t → Down (change k t)) : Waits Down k r (s.meanwhile change) := by
  obtain ⟨t, hGet, hDown⟩ := h.down
  exact ⟨⟨change k t, by simp [Poller.meanwhile, hGet], hChange t hDown⟩, h.retry⟩

end Frame

/-! ### One look -/

section Look

variable {C : TransportClass τ α} (config : Config τ) (repr : String → String)
  {Down : τ → Prop} {k id : String} {r : Retry} {s : Poller τ} {turn : Turn τ α δ}

/-- A look at another transport. -/
theorem Waits.ensureOpen_of_ne (h : Waits Down k r s) (hNe : id ≠ k) (look : Look α) :
    Waits Down k r (s.ensureOpen C config id look).1 := by
  unfold Poller.ensureOpen
  split
  · split
    · dsimp only
      split
      · exact h.setTransport fun hEq => absurd hEq hNe
      · exact h
    · exact h
  · exact h.setHeld_of_ne hNe _

/-- A look at the transport that is away goes by the schedule. -/
theorem Waits.ensureOpen_self (h : Waits Down k r s)
    (hStale : ∀ t, Down t → C.isConnected t ≠ some false) (hAbsent : Absent C Down k turn) :
    (∃ t, Down t ∧ (s.ensureOpen C config k turn.toLook).1 = s.setHeld k
        ⟨t, some ((retryPolicy.look r turn.now turn.failedAt).getD r)⟩) ∧
      ((s.ensureOpen C config k turn.toLook).2 = .error ⟨⟩ ↔
        retryPolicy.look r turn.now turn.failedAt = none) ∧
      ∀ t, (s.ensureOpen C config k turn.toLook).2 = .ok (some t) → Down t := by
  obtain ⟨t, hGet, hDown⟩ := h.down
  obtain ⟨hRaises, hStays⟩ := hAbsent.raises t hDown
  have hEnsure : s.ensureOpen C config k turn.toLook =
      (s.setHeld k ((⟨t, some r⟩ : Held τ).retryOpen C turn.toLook).1,
        ((⟨t, some r⟩ : Held τ).retryOpen C turn.toLook).2) := by
    simp only [Poller.ensureOpen, hGet, h.retry, Held.ensureOpen, Held.reopen,
      if_neg (hStale t hDown)]
  rw [hEnsure, Policy.look]
  simp only [Held.retryOpen]
  by_cases hDue : r.next ≤ turn.now
  · simp only [if_pos hDue, hRaises, Bool.false_eq_true, if_false]
    cases hAgain : retryPolicy.again r turn.failedAt with
    | none => exact ⟨⟨_, hStays, rfl⟩, by simp, by simp⟩
    | some r' => exact ⟨⟨_, hStays, rfl⟩, by simp, by simp⟩
  · simp only [if_neg hDue]
    refine ⟨⟨t, hDown, rfl⟩, by simp, ?_⟩
    rintro t' hEq
    obtain rfl := Option.some_inj.mp (Except.ok.inj hEq)
    exact hDown

/-- One device, of whatever transport. -/
theorem Waits.pollDevice (h : Waits Down k r s)
    (hStale : ∀ t, Down t → C.isConnected t ≠ some false) (hAbsent : Absent C Down k turn)
    (dev : DeviceCfg) (result : Result δ) :
    Waits Down k (retryPolicy.after r (looksOf k [(dev, turn)]))
      (s.pollDevice C config repr result dev turn).1 := by
  have hNow := h.meanwhile hAbsent.meanwhile
  unfold Poller.pollDevice
  by_cases hDev : dev.transport = k
  · subst hDev
    obtain ⟨⟨t, hDown, hState⟩, -, hGiven⟩ := hNow.ensureOpen_self config hStale hAbsent
    have hLook := waits_setHeld (s.meanwhile turn.meanwhile) hDown (k := dev.transport)
      (r := (retryPolicy.look r turn.now turn.failedAt).getD r)
    rw [looksOf_self, Policy.after, List.foldl_cons, List.foldl_nil]
    rw [← hState] at hLook
    split <;> rename_i hEq <;> rw [hEq] at hLook hGiven
    · exact hLook
    · exact hLook
    · have hStill := hAbsent.poll _ (hGiven _ rfl)
      split <;> rename_i hPoll <;> rw [hPoll] at hStill <;>
        exact hLook.setTransport fun _ => hStill
  · have hLook := hNow.ensureOpen_of_ne (C := C) config hDev turn.toLook
    rw [looksOf_of_ne turn hDev, Policy.after, List.foldl_nil]
    split <;> rename_i hEq <;> rw [hEq] at hLook
    · exact hLook
    · exact hLook
    · split <;> exact hLook.setTransport fun hSame => absurd hSame hDev

/-- A look that finds the schedule used up ends the poll. -/
theorem Waits.pollDevice_spent (h : Waits Down k r s)
    (hStale : ∀ t, Down t → C.isConnected t ≠ some false) (hAbsent : Absent C Down k turn)
    {dev : DeviceCfg} (hDev : dev.transport = k) {start : ℚ}
    (hSpent : retryPolicy.Spent start r) (hLate : start ≤ turn.now) (result : Result δ) :
    (s.pollDevice C config repr result dev turn).2 = .error ⟨⟩ := by
  subst hDev
  obtain ⟨-, hRaises, -⟩ :=
    (h.meanwhile hAbsent.meanwhile).ensureOpen_self config hStale hAbsent
  have hError := hRaises.mpr (hSpent.look_eq_none hLate turn.failedAt)
  unfold Poller.pollDevice
  split <;> rename_i hEq <;> rw [hEq] at hError <;> cases hError

end Look

/-! ### A poll -/

section Poll

variable {C : TransportClass τ α} (config : Config τ) (repr : String → String)
  {Down : τ → Prop} {k : String} {r : Retry} {s : Poller τ}
  {run : List (DeviceCfg × Turn τ α δ)}

theorem Waits.pollDevices (h : Waits Down k r s)
    (hStale : ∀ t, Down t → C.isConnected t ≠ some false)
    (hAbsent : ∀ x ∈ run, Absent C Down k x.2) (result : Result δ) :
    Waits Down k (retryPolicy.after r (s.looksMade C config repr k result run))
      (s.pollDevices C config repr result run).1 := by
  induction run generalizing s r result with
  | nil => exact h
  | cons x run ih =>
      obtain ⟨dev, turn⟩ := x
      obtain ⟨hTurn, hRun⟩ := List.forall_mem_cons.mp hAbsent
      have hPoll := h.pollDevice config repr hStale hTurn dev result
      rcases hDevice : s.pollDevice C config repr result dev turn with ⟨s', _ | result'⟩
      · rw [hDevice] at hPoll
        simpa only [Poller.pollDevices, Poller.looksMade, hDevice, List.append_nil] using hPoll
      · rw [hDevice] at hPoll
        simp only [Poller.pollDevices, Poller.looksMade, hDevice]
        rw [Policy.after, List.foldl_append]
        exact ih hPoll hRun result'

/-- A poll that returns has come to all its looks. -/
theorem Poller.looksMade_of_returns {result result' : Result δ}
    (h : (s.pollDevices C config repr result run).2 = .ok result') :
    s.looksMade C config repr k result run = looksOf k run := by
  induction run generalizing s result with
  | nil => rfl
  | cons x run ih =>
      obtain ⟨dev, turn⟩ := x
      rw [looksOf_cons]
      rcases hDevice : s.pollDevice C config repr result dev turn with ⟨s', _ | result₁⟩
      · simp [Poller.pollDevices, hDevice] at h
      · simp only [Poller.pollDevices, hDevice] at h
        simp only [Poller.looksMade, hDevice, ih h]

/-- A poll with a look at a transport whose schedule is used up raises. -/
theorem Waits.pollDevices_spent (h : Waits Down k r s)
    (hStale : ∀ t, Down t → C.isConnected t ≠ some false)
    (hAbsent : ∀ x ∈ run, Absent C Down k x.2) {start : ℚ}
    (hSpent : retryPolicy.Spent start r) (hLate : ∀ time ∈ looksOf k run, start ≤ time.1)
    (hLooks : looksOf k run ≠ []) (result : Result δ) :
    (s.pollDevices C config repr result run).2 = .error ⟨⟩ := by
  induction run generalizing s result with
  | nil => exact absurd rfl hLooks
  | cons x run ih =>
      obtain ⟨dev, turn⟩ := x
      obtain ⟨hTurn, hRun⟩ := List.forall_mem_cons.mp hAbsent
      have hPoll := h.pollDevice config repr hStale hTurn dev result
      rw [looksOf_cons] at hLate hLooks
      rcases hDevice : s.pollDevice C config repr result dev turn with ⟨s', e | result'⟩
      · simp only [Poller.pollDevices, hDevice]
      · rw [hDevice] at hPoll
        simp only [Poller.pollDevices, hDevice]
        by_cases hDev : dev.transport = k
        · have hNow : start ≤ turn.now :=
            hLate (turn.now, turn.failedAt) (by simp [looksOf, hDev])
          have hError := h.pollDevice_spent config repr hStale hTurn hDev hSpent hNow result
          rw [hDevice] at hError
          cases hError
        · rw [looksOf_of_ne turn hDev, List.nil_append] at hLate hLooks
          rw [looksOf_of_ne turn hDev] at hPoll
          exact ih hPoll hRun hLate hLooks result'

end Poll

/-! ### A run of polls -/

/-- The looks that a run of polls comes to. -/
def Poller.looksOfPolls (C : TransportClass τ α) (config : Config τ) (repr : String → String)
    (id : String) : Poller τ → List (List (Turn τ α δ)) → List (ℚ × ℚ)
  | _, [] => []
  | s, turns :: rest =>
      s.looksMade C config repr id .empty (config.devices.zip turns) ++
        Poller.looksOfPolls C config repr id (s.poll C config repr turns).1 rest

section Run

variable {C : TransportClass τ α} (config : Config τ) (repr : String → String)
  {Down : τ → Prop} {k : String} {r : Retry} {s : Poller τ}

theorem absent_zip {turns : List (Turn τ α δ)} (h : ∀ turn ∈ turns, Absent C Down k turn) :
    ∀ x ∈ config.devices.zip turns, Absent C Down k x.2 :=
  fun x hMem => h x.2 (List.of_mem_zip hMem).2

theorem Waits.polls {polls : List (List (Turn τ α δ))} (h : Waits Down k r s)
    (hStale : ∀ t, Down t → C.isConnected t ≠ some false)
    (hAbsent : ∀ turns ∈ polls, ∀ turn ∈ turns, Absent C Down k turn) :
    Waits Down k (retryPolicy.after r (s.looksOfPolls C config repr k polls))
      (s.polls C config repr polls).1 := by
  induction polls generalizing s r with
  | nil => exact h
  | cons turns polls ih =>
      obtain ⟨hTurns, hRest⟩ := List.forall_mem_cons.mp hAbsent
      have hPoll := h.pollDevices config repr hStale (absent_zip config hTurns) .empty
      rw [Poller.looksOfPolls, Policy.after, List.foldl_append]
      exact ih hPoll hRest

theorem Poller.looksOfPolls_concat (polls : List (List (Turn τ α δ)))
    (turns : List (Turn τ α δ)) :
    s.looksOfPolls C config repr k (polls ++ [turns]) =
      s.looksOfPolls C config repr k polls ++
        (s.polls C config repr polls).1.looksMade C config repr k .empty
          (config.devices.zip turns) := by
  induction polls generalizing s with
  | nil => simp [Poller.looksOfPolls, Poller.polls]
  | cons first polls ih =>
      simp only [List.cons_append, Poller.looksOfPolls, Poller.polls, ih, List.append_assoc]

variable {config} in
/-- A transport that does not open at the start waits for its first retry. -/
theorem waits_of_open {runs : List (α × ℚ)} {t : τ} {run : α} {startedAt : ℚ}
    (hOpen : config.open C runs = some s)
    (hStart : ((k, some t), run, startedAt) ∈ config.transports.zip runs)
    (hFails : (C.open t run).2 = false) (hDown : Down (C.open t run).1) :
    Waits Down k ⟨startedAt + 5, 1⟩ s := by
  obtain ⟨hTransport, hRetry⟩ := Config.has_of_open hOpen hStart
  exact ⟨⟨_, hTransport, hDown⟩, by simp [hRetry, Held.start, hFails]⟩

end Run

/-- A transport that does not open at the start and stays away: as long as the poller comes to
look at it every `gap` seconds, every poll with a look at it that begins later than 1024 times
five minutes and two gaps raises, so that no device of any transport is read. -/
theorem absent_stops_polling {C : TransportClass τ α} (config : Config τ)
    (repr : String → String) {Down : τ → Prop} {k : String} {s : Poller τ}
    {runs : List (α × ℚ)} {t : τ} {run : α} {startedAt gap : ℚ}
    (hOpen : config.open C runs = some s)
    (hStart : ((k, some t), run, startedAt) ∈ config.transports.zip runs)
    (hFails : (C.open t run).2 = false) (hDown : Down (C.open t run).1)
    (hStale : ∀ t, Down t → C.isConnected t ≠ some false) (hGap : 0 ≤ gap)
    {before : List (List (Turn τ α δ))} {turns : List (Turn τ α δ)}
    (hAbsent : ∀ poll ∈ before ++ [turns], ∀ turn ∈ poll, Absent C Down k turn)
    (hSpaced : Spaced gap startedAt (s.looksOfPolls C config repr k (before ++ [turns])))
    (hLooks : looksOf k (config.devices.zip turns) ≠ [])
    (hLate : ∀ time ∈ looksOf k (config.devices.zip turns),
      startedAt + 5 + 1024 * (300 + 2 * gap) ≤ time.1) :
    ((s.polls C config repr before).1.poll C config repr turns).2 = .error ⟨⟩ := by
  have hBefore := fun poll hMem => hAbsent poll (List.mem_append_left [turns] hMem)
  have hTurns := absent_zip config (hAbsent turns (by simp))
  have hWaits := (waits_of_open hOpen hStart hFails hDown).polls config repr hStale hBefore
  rw [Poller.looksOfPolls_concat, spaced_append] at hSpaced
  have hStartPaced : Paced retryPolicy gap (startedAt + 5) startedAt ⟨startedAt + 5, 1⟩ := by
    refine ⟨fun _ => by dsimp only; linarith, ?_, by norm_num [retryPolicy]⟩
    norm_num [retryPolicy]
    linarith
  have hPaced := hStartPaced.after hSpaced.1
  cases hAnswer : ((s.polls C config repr before).1.poll C config repr turns).2 with
  | error e => rfl
  | ok result =>
      -- a poll that returns has come to its first look, which finds the schedule used up
      have hMade := Poller.looksMade_of_returns (k := k) config repr hAnswer
      obtain ⟨first, rest, hFirst⟩ := List.exists_cons_of_ne_nil hLooks
      have hNext := hSpaced.2
      rw [hMade, hFirst] at hNext
      have hSpan : startedAt + 5 + retryPolicy.span gap =
          startedAt + 5 + 1024 * (300 + 2 * gap) := by
        norm_num [Policy.span, retryPolicy]
      have hSpent := hPaced.spent hGap hNext.1.2
        (hSpan.trans_le (hLate first (hFirst ▸ List.mem_cons_self)))
      have hRaises := hWaits.pollDevices_spent config repr hStale hTurns hSpent
        (fun time hMem => hSpan.trans_le (hLate time hMem)) hLooks .empty
      exact absurd (hAnswer.symm.trans hRaises) (by simp)

/-! ### A dongle in a barn -/

/-- A charger behind a dongle, and a battery of its own. -/
private def barn : Config Link where
  transports := [("bt2", some none), ("jbd", some none)]
  devices := [⟨"bt2", some 16, some "rover"⟩, ⟨"jbd", none, some "battery"⟩]

/-- A poll in which nobody sees the dongle, at a thousand seconds times so many. -/
private def barnPoll (n : ℕ) : List (Turn Link (List Attempt) ℕ) :=
  List.replicate 2 {
    now := 1000 * (n + 1)
    reopen := [.unseen]
    retry := [.unseen]
    failedAt := 1000 * (n + 1)
    meanwhile := fun _ link => link
    poll := fun link => (link, .ok ("battery", 0)) }

private theorem looksOfPolls_barn (s : Poller Link) (ns : List ℕ) :
    s.looksOfPolls bleLink barn id "bt2" (ns.map barnPoll) =
      ns.map fun (n : ℕ) => ((1000 * (n + 1) : ℚ), (1000 * (n + 1) : ℚ)) := by
  induction ns generalizing s with
  | nil => rfl
  | cons n ns ih =>
      have hMade : s.looksMade bleLink barn id "bt2" .empty (barn.devices.zip (barnPoll n)) =
          [((1000 * (n + 1) : ℚ), (1000 * (n + 1) : ℚ))] := by
        simp only [barn, barnPoll, List.replicate, List.zip_cons_cons, List.zip_nil_right,
          Poller.looksMade]
        split
        · simp [looksOf]
        · split <;> simp [looksOf]
      rw [List.map_cons, Poller.looksOfPolls, hMade, ih]
      rfl

private theorem spaced_barn (n m : ℕ) {last : ℚ} (hLast : last ≤ 1000 * (m + 1))
    (hGap : 1000 * (m + 1) ≤ last + 1000) :
    Spaced 1000 last ((List.range' m n).map fun (i : ℕ) =>
      ((1000 * (i + 1) : ℚ), (1000 * (i + 1) : ℚ))) := by
  induction n generalizing m last with
  | zero => trivial
  | succ n ih =>
      rw [List.range'_succ, List.map_cons]
      refine ⟨⟨hLast, hGap⟩, ⟨le_rfl, by linarith⟩, ih (m + 1) ?_ ?_⟩ <;> push_cast <;> linarith

theorem absent_stops_polling_barn : ∃ s,
    barn.open bleLink [([.unseen], 8), ([.taken], 10)] = some s ∧
      ((s.polls bleLink barn id ((List.range' 0 2355).map barnPoll)).1.poll bleLink barn id
        (barnPoll 2355)).2 = .error ⟨⟩ := by
  refine ⟨_, rfl, ?_⟩
  have hPolls : ∀ n, (List.range' 0 n).map barnPoll ++ [barnPoll n] =
      (List.range' 0 (n + 1)).map barnPoll := by
    intro n
    simp [List.range'_1_concat]
  refine @absent_stops_polling Link (List Attempt) ℕ bleLink barn id (fun link => link = none)
    "bt2" _ [([.unseen], 8), ([.taken], 10)] none [.unseen] 8 1000 rfl (by simp [barn]) rfl rfl
    ?_ (by norm_num) _ _ ?_ ?_ ?_ ?_
  · rintro link rfl
    simp [bleLink]
  · intro poll hMem turn hTurn
    rw [hPolls 2355, List.mem_map] at hMem
    obtain ⟨n, -, rfl⟩ := hMem
    obtain rfl := List.eq_of_mem_replicate hTurn
    exact ⟨by rintro link rfl; exact ⟨rfl, rfl⟩, fun _ h => h, fun _ h => h⟩
  · rw [hPolls 2355, looksOfPolls_barn]
    exact spaced_barn 2356 0 (by norm_num) (by norm_num)
  · simp [barn, barnPoll, looksOf]
  · intro time hMem
    have hTime : time = ((1000 * ((2355 : ℕ) + 1) : ℚ), (1000 * ((2355 : ℕ) + 1) : ℚ)) := by
      simpa [barn, barnPoll, looksOf] using hMem
    rw [hTime]
    norm_num

end Orchestrator
