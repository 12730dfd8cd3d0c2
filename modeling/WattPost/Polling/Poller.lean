import Mathlib.Logic.Function.Basic
import WattPost.Lib.PyDict
import WattPost.Lib.RetrySchedule

/-! The poller that holds transports open from one poll to the next: the start, a look at a
transport before each device, and a poll of every device. -/
namespace Orchestrator

open RetrySchedule

variable {τ α δ : Type}

/-- A class of transports, where `α` is what the hardware does while `open` runs. The flag says
whether the call returned. -/
structure TransportClass (τ α : Type) where
  /-- Whether the `_client` is connected, if the transport has one. -/
  isConnected : τ → Option Bool
  close : τ → τ × Bool
  «open» : τ → α → τ × Bool

structure DeviceCfg where
  transport : String
  slaveId : Option ℤ
  label : Option String
deriving DecidableEq

/-- The transports of the configuration, each by its id, and what `_build_transport` makes of
it if its type is known. -/
structure Config (τ : Type) where
  transports : List (String × Option τ)
  devices : List DeviceCfg

structure Poller (τ : Type) where
  transports : String → Option τ
  retryState : String → Option Retry

/-- `5.0 * (2 ** fails)`: the power is turned into a float, which goes up to 2 ^ 1024. -/
def retryPolicy : Policy where
  base := 5
  cap := 300
  limit := 1024
  base_pos := by norm_num
  cap_pos := by norm_num

structure OverflowError
deriving DecidableEq

def Poller.setTransport (s : Poller τ) (id : String) (t : τ) : Poller τ :=
  { s with transports := Function.update s.transports id (some t) }

def Poller.setRetry (s : Poller τ) (id : String) (r : Option Retry) : Poller τ :=
  { s with retryState := Function.update s.retryState id r }

/-- What the poller has of a transport that was built. -/
structure Held (τ : Type) where
  transport : τ
  retry : Option Retry

def Poller.setHeld (s : Poller τ) (id : String) (h : Held τ) : Poller τ :=
  (s.setTransport id h.transport).setRetry id h.retry

/-! ### The start -/

/-- One transport of `Poller.open`: it is registered whether it opens or not. Nothing waits for
a retry yet. -/
def Held.start (C : TransportClass τ α) (t : τ) (run : α) (failedAt : ℚ) : Held τ :=
  let (t, ok) := C.open t run
  ⟨t, if ok then none else some ⟨failedAt + 5, 1⟩⟩

/-- The loop of `Poller.open`, with what happens at each transport; nothing for a type that is
not registered, which raises. -/
def Poller.openAll (C : TransportClass τ α) :
    Poller τ → List ((String × Option τ) × α × ℚ) → Option (Poller τ)
  | s, [] => some s
  | s, ((id, some t), run, failedAt) :: rest =>
      Poller.openAll C (s.setHeld id (Held.start C t run failedAt)) rest
  | _, ((_, none), _) :: _ => none

def Poller.empty : Poller τ := ⟨fun _ => none, fun _ => none⟩

/-- `Poller.open`, where `runs` is what happens at each transport in turn. -/
def Config.open (C : TransportClass τ α) (config : Config τ) (runs : List (α × ℚ)) :
    Option (Poller τ) :=
  if (config.transports.map Prod.fst).Nodup then
    Poller.empty.openAll C (config.transports.zip runs)
  else none

/-- The poller has the transport so. -/
def Poller.Has (s : Poller τ) (id : String) (h : Held τ) : Prop :=
  s.transports id = some h.transport ∧ s.retryState id = h.retry

theorem Poller.has_setHeld (s : Poller τ) (id : String) (h : Held τ) :
    (s.setHeld id h).Has id h := by
  simp [Poller.Has, Poller.setHeld, Poller.setTransport, Poller.setRetry]

theorem Poller.Has.setHeld_of_ne {s : Poller τ} {k id : String} {h : Held τ} (hHas : s.Has k h)
    (hNe : id ≠ k) (h' : Held τ) : (s.setHeld id h').Has k h := by
  simpa [Poller.Has, Poller.setHeld, Poller.setTransport, Poller.setRetry,
    Function.update_of_ne hNe.symm] using hHas

theorem Poller.Has.openAll {C : TransportClass τ α} {s s' : Poller τ} {k : String} {h : Held τ}
    {runs : List ((String × Option τ) × α × ℚ)} (hHas : s.Has k h)
    (hOther : ∀ x ∈ runs, x.1.1 ≠ k) (hOpen : s.openAll C runs = some s') : s'.Has k h := by
  induction runs generalizing s with
  | nil =>
      obtain rfl := Option.some_inj.mp hOpen
      exact hHas
  | cons x runs ih =>
      obtain ⟨⟨id, t⟩, run, failedAt⟩ := x
      obtain ⟨hNe, hRest⟩ := List.forall_mem_cons.mp hOther
      cases t with
      | none => cases hOpen
      | some t => exact ih (hHas.setHeld_of_ne hNe _) hRest hOpen

/-- What the start makes of each transport. -/
theorem Config.has_of_open {C : TransportClass τ α} {config : Config τ} {s : Poller τ}
    {k : String} {runs : List (α × ℚ)} {t : τ} {run : α} {startedAt : ℚ}
    (hOpen : config.open C runs = some s)
    (hStart : ((k, some t), run, startedAt) ∈ config.transports.zip runs) :
    s.Has k (.start C t run startedAt) := by
  obtain ⟨hNodup, hAll⟩ := Option.ite_none_right_eq_some.mp hOpen
  have hKeys : ((config.transports.zip runs).map fun x => x.1.1).Nodup := by
    have hMap : ((config.transports.zip runs).map fun x => x.1.1) =
        ((config.transports.zip runs).map Prod.fst).map Prod.fst := by simp
    rw [hMap, List.zip_eq_zip_take_min, List.map_fst_zip (by simp)]
    exact hNodup.sublist ((List.take_sublist _ _).map Prod.fst)
  generalize config.transports.zip runs = xs at hAll hStart hKeys
  generalize Poller.empty = s₀ at hAll
  induction xs generalizing s₀ with
  | nil => cases hStart
  | cons x xs ih =>
      obtain ⟨hHead, hTail⟩ := List.nodup_cons.mp hKeys
      rcases List.mem_cons.mp hStart with rfl | hMem
      · refine (s₀.has_setHeld k _).openAll ?_ hAll
        rintro y hMem rfl
        exact hHead (List.mem_map_of_mem (f := fun x => x.1.1) hMem)
      · obtain ⟨⟨id, t'⟩, run', failedAt⟩ := x
        cases t' with
        | none => cases hAll
        | some t' => exact ih hMem hTail _ hAll

/-! ### A look at a transport -/

/-- What comes with one call of `_ensure_open`: the clock, what the hardware does on the two
calls of `open` that there may be, and the clock after the second has failed. -/
structure Look (α : Type) where
  now : ℚ
  reopen : α
  retry : α
  failedAt : ℚ

/-- The part of `_ensure_open` for a client that was connected once: close and open. -/
def Held.reopen (C : TransportClass τ α) (h : Held τ) (look : Look α) : Held τ × Bool :=
  if C.isConnected h.transport = some false then
    let (t, ok) := C.close h.transport
    if ok then
      let (t, ok) := C.open t look.reopen
      ({ h with transport := t }, ok)
    else ({ h with transport := t }, false)
  else (h, true)

/-- The part of `_ensure_open` for a transport whose `open` has failed before. -/
def Held.retryOpen (C : TransportClass τ α) (h : Held τ) (look : Look α) :
    Held τ × Except OverflowError (Option τ) :=
  match h.retry with
  | none => (h, .ok (some h.transport))
  | some r =>
      if r.next ≤ look.now then
        let (t, ok) := C.open h.transport look.retry
        if ok then (⟨t, none⟩, .ok (some t))
        else
          match retryPolicy.again r look.failedAt with
          | some r => (⟨t, some r⟩, .ok none)
          | none => (⟨t, h.retry⟩, .error ⟨⟩)
      else (h, .ok (some h.transport))

/-- `_ensure_open` for a transport that was built. -/
def Held.ensureOpen (C : TransportClass τ α) (h : Held τ) (look : Look α) :
    Held τ × Except OverflowError (Option τ) :=
  match h.reopen C look with
  | (h, false) => (h, .ok none)
  | (h, true) => h.retryOpen C look

/-- `_ensure_open`, for a transport that was not built at the start too. -/
def Poller.ensureOpen (C : TransportClass τ α) (config : Config τ) (s : Poller τ)
    (id : String) (look : Look α) : Poller τ × Except OverflowError (Option τ) :=
  match s.transports id with
  | none =>
      match config.transports.lookup id with
      | some (some t) =>
          let (t, ok) := C.open t look.reopen
          if ok then (s.setTransport id t, .ok (some t)) else (s, .ok none)
      | _ => (s, .ok none)
  | some t =>
      let (h, answer) := (⟨t, s.retryState id⟩ : Held τ).ensureOpen C look
      (s.setHeld id h, answer)

variable {C : TransportClass τ α}

theorem Held.retryOpen_given {h : Held τ} {look : Look α} {t : τ}
    (hGiven : (h.retryOpen C look).2 = .ok (some t)) :
    (h.retryOpen C look).1.transport = t := by
  rcases h with ⟨held, retry⟩
  cases retry with
  | none => exact Option.some_inj.mp (Except.ok.inj hGiven)
  | some r =>
      simp only [Held.retryOpen] at hGiven ⊢
      by_cases hDue : r.next ≤ look.now
      · rcases hOpened : C.open held look.retry with ⟨t', _ | _⟩
        · cases hAgain : retryPolicy.again r look.failedAt <;>
            simp [hDue, hOpened, hAgain] at hGiven
        · simpa [hDue, hOpened] using hGiven
      · simpa [hDue] using hGiven

/-- What `_ensure_open` gives is what the poller has then. -/
theorem Poller.ensureOpen_given {config : Config τ} {s : Poller τ} {id : String}
    {look : Look α} {t : τ} (hGiven : (s.ensureOpen C config id look).2 = .ok (some t)) :
    (s.ensureOpen C config id look).1.transports id = some t := by
  cases hGet : s.transports id with
  | some held =>
      simp only [Poller.ensureOpen, hGet] at hGiven ⊢
      have hTransport : ((⟨held, s.retryState id⟩ : Held τ).ensureOpen C look).1.transport = t := by
        unfold Held.ensureOpen at hGiven ⊢
        rcases hReopen : (⟨held, s.retryState id⟩ : Held τ).reopen C look with ⟨h, _ | _⟩ <;>
          rw [hReopen] at hGiven
        · simp at hGiven
        · exact Held.retryOpen_given hGiven
      simp [Poller.setHeld, Poller.setTransport, Poller.setRetry, hTransport]
  | none =>
      simp only [Poller.ensureOpen, hGet] at hGiven ⊢
      rcases hLookup : config.transports.lookup id with _ | _ | built <;>
        simp only [hLookup] at hGiven
      · simp at hGiven
      · simp at hGiven
      · rcases hOpened : C.open built look.reopen with ⟨t', _ | _⟩
        · simp [hOpened] at hGiven
        · simpa [hOpened, Poller.setTransport] using hGiven

/-! ### A poll -/

/-- What comes before and with the poll of one device: what became of the transports since, the
look, and the driver's poll, with the text of its exception. -/
structure Turn (τ α δ : Type) extends Look α where
  meanwhile : String → τ → τ
  poll : τ → τ × Except String (String × δ)

def Poller.meanwhile (s : Poller τ) (change : String → τ → τ) : Poller τ :=
  { s with transports := fun id => (s.transports id).map (change id) }

structure Result (δ : Type) where
  devices : PyDict.Dict δ
  errors : List String

def Result.empty : Result δ := ⟨⟨[], List.nodup_nil⟩, []⟩

/-- `dev.label or dev.slave_id`. -/
def DeviceCfg.name (dev : DeviceCfg) : String :=
  match dev.label, dev.slaveId with
  | some label, slaveId => if label = "" then (slaveId.map toString).getD "None" else label
  | none, slaveId => (slaveId.map toString).getD "None"

/-- One device of `Poller.poll`. -/
def Poller.pollDevice (C : TransportClass τ α) (config : Config τ) (repr : String → String)
    (s : Poller τ) (result : Result δ) (dev : DeviceCfg) (turn : Turn τ α δ) :
    Poller τ × Except OverflowError (Result δ) :=
  match (s.meanwhile turn.meanwhile).ensureOpen C config dev.transport turn.toLook with
  | (s, .error e) => (s, .error e)
  | (s, .ok none) =>
      (s, .ok { result with errors := result.errors ++
        ["device " ++ dev.name ++ ": transport " ++ repr dev.transport ++ " unavailable"] })
  | (s, .ok (some t)) =>
      match turn.poll t with
      | (t, .ok (label, data)) =>
          (s.setTransport dev.transport t,
            .ok { result with devices := result.devices.set label data })
      | (t, .error text) =>
          (s.setTransport dev.transport t,
            .ok { result with errors := result.errors ++
              ["device " ++ dev.name ++ ": " ++ text] })

/-- The loop of `Poller.poll`: an exception of `_ensure_open` ends it. -/
def Poller.pollDevices (C : TransportClass τ α) (config : Config τ) (repr : String → String) :
    Poller τ → Result δ → List (DeviceCfg × Turn τ α δ) →
      Poller τ × Except OverflowError (Result δ)
  | s, result, [] => (s, .ok result)
  | s, result, (dev, turn) :: rest =>
      match s.pollDevice C config repr result dev turn with
      | (s, .error e) => (s, .error e)
      | (s, .ok result) => Poller.pollDevices C config repr s result rest

/-- `Poller.poll`, with a turn for each device. -/
def Poller.poll (C : TransportClass τ α) (config : Config τ) (repr : String → String)
    (s : Poller τ) (turns : List (Turn τ α δ)) : Poller τ × Except OverflowError (Result δ) :=
  s.pollDevices C config repr .empty (config.devices.zip turns)

/-- Polls one after the other, as the scheduler makes them: an exception ends the poll, and the
next one begins all the same. -/
def Poller.polls (C : TransportClass τ α) (config : Config τ) (repr : String → String) :
    Poller τ → List (List (Turn τ α δ)) → Poller τ × List (Except OverflowError (Result δ))
  | s, [] => (s, [])
  | s, turns :: rest =>
      let (s, answer) := s.poll C config repr turns
      let (s, answers) := Poller.polls C config repr s rest
      (s, answer :: answers)

end Orchestrator
