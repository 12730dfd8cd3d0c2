import Mathlib.Data.List.MinMax
import WattPost.Lib.PyDict
import WattPost.Lib.Runs

/-! The store of OIDC logins under way: a state token stands for the secrets of
one attempt until the callback consumes it. The store lives in memory and in a
file that the next start of the daemon reads. -/
namespace WattPost.Auth

open PyDict

section Store

/-- A value of `_pending`. -/
structure PendingAuth where
  pkceVerifier : String
  nonce : String
  returnTo : String
  createdAt : ℚ
deriving DecidableEq

/-- `_pending` and `oidc_pending.json`. -/
structure PendingStore where
  pending : Dict PendingAuth
  file : Option (Dict PendingAuth)

/-- An appliance on which nobody has tried to log in. -/
def PendingStore.empty : PendingStore := ⟨.empty, none⟩

def stateTtlSeconds : ℚ := 60 * 5

def maxPending : Nat := 20

/-- `_persist_pending`. -/
def persistPending (s : PendingStore) : PendingStore := { s with file := some s.pending }

/-- `_load_pending`, at import. -/
def loadPending (now : ℚ) : Option (Dict PendingAuth) → Dict PendingAuth
  | none => .empty
  | some raw =>
      .ofList (raw.entries.filter (fun e => !decide (stateTtlSeconds < now - e.2.createdAt)))

/-- `_gc_pending`. -/
def gcPending (now : ℚ) (s : PendingStore) : PendingStore :=
  let cutoff := now - stateTtlSeconds
  let expired := (s.pending.entries.filter (fun e => decide (e.2.createdAt < cutoff))).map Prod.fst
  if expired.isEmpty then s
  else persistPending { s with pending := s.pending.filter (!expired.contains ·) }

/-- `oldest = min(_pending, key=...)` and `_pending.pop(oldest, None)`. -/
def popOldest (d : Dict PendingAuth) : Dict PendingAuth :=
  match d.entries.argmin (fun e => e.2.createdAt) with
  | none => d
  | some oldest => d.filter (· != oldest.1)

/-- `while len(_pending) >= MAX_PENDING`. Every turn takes one entry, so as many
turns as there are entries are enough. -/
def makeRoom : Nat → Dict PendingAuth → Dict PendingAuth
  | 0, d => d
  | turns + 1, d => if maxPending ≤ d.entries.length then makeRoom turns (popOldest d) else d

/-- `stash_pending`; the state token is random. The clock is read for the
collection and again for the entry. -/
def stashPending (gcAt now : ℚ) (pkceVerifier nonce returnTo state : String) (s : PendingStore) :
    PendingStore :=
  let s := gcPending gcAt s
  let room := makeRoom s.pending.entries.length s.pending
  persistPending { s with pending := room.set state ⟨pkceVerifier, nonce, returnTo, now⟩ }

/-- `consume_pending`: the entry, and the store. -/
def consumePending (gcAt now : ℚ) (state : String) (s : PendingStore) :
    Option PendingAuth × PendingStore :=
  let s := gcPending gcAt s
  match s.pending.get state with
  | none => (none, persistPending s)
  | some entry =>
      let s := persistPending { s with pending := s.pending.filter (· != state) }
      if stateTtlSeconds < now - entry.createdAt then (none, s) else (some entry, s)

end Store

section Machine

/-- What can happen to the store, with the readings of the clock and the token
drawn. -/
inductive PendingEvent where
  | stash (gcAt now : ℚ) (pkceVerifier nonce returnTo state : String)
  | consume (gcAt now : ℚ) (state : String)
  | gc (now : ℚ)
  | restart (now : ℚ)

def pendingStep (s : PendingStore) : PendingEvent → PendingStore
  | .stash gcAt now pkceVerifier nonce returnTo state =>
      stashPending gcAt now pkceVerifier nonce returnTo state s
  | .consume gcAt now state => (consumePending gcAt now state s).2
  | .gc now => gcPending now s
  | .restart now => { s with pending := loadPending now s.file }

/-- The state token that an event draws. -/
def PendingEvent.drawn : PendingEvent → Option String
  | .stash _ _ _ _ _ state => some state
  | _ => none

/-- The run stashed this entry under the state token. -/
def Stashed (events : List PendingEvent) (state : String) (entry : PendingAuth) : Prop :=
  ∃ gcAt, .stash gcAt entry.createdAt entry.pkceVerifier entry.nonce entry.returnTo state ∈ events

/-- Some consume of the run returned an entry for the state token. -/
def ReturnedIn (events : List PendingEvent) (state : String) : Prop :=
  ∃ before gcAt now after, events = before ++ .consume gcAt now state :: after ∧
    (consumePending gcAt now state (Runs.run pendingStep .empty before)).1.isSome = true

end Machine

section Operations

variable {s s' : PendingStore} {k state : String} {v : PendingAuth} {now : ℚ}

/-- The entry is in memory or on disk. -/
def Stored (s : PendingStore) (k : String) (v : PendingAuth) : Prop :=
  s.pending.get k = some v ∨ ∃ d, s.file = some d ∧ d.get k = some v

/-- The collection drops the entries that are too old. -/
theorem get_gcPending (now : ℚ) (s : PendingStore) (k : String) :
    (gcPending now s).pending.get k =
      (s.pending.get k).filter (fun v => !decide (v.createdAt < now - stateTtlSeconds)) := by
  generalize hExpired : (s.pending.entries.filter
    (fun e => decide (e.2.createdAt < now - stateTtlSeconds))).map Prod.fst = expired
  have hOld : ∀ v, s.pending.get k = some v →
      (k ∈ expired ↔ v.createdAt < now - stateTtlSeconds) := by
    intro v hGet
    subst hExpired
    simp only [List.mem_map, List.mem_filter, decide_eq_true_eq]
    constructor
    · rintro ⟨e, ⟨hMem, hBefore⟩, rfl⟩
      have hSame : s.pending.get e.1 = some e.2 := Dict.mem_iff_get.mp hMem
      rw [hGet] at hSame
      cases hSame
      exact hBefore
    · intro hBefore
      exact ⟨(k, v), ⟨Dict.mem_iff_get.mpr hGet, hBefore⟩, rfl⟩
  have hKept : (gcPending now s).pending.get k =
      if expired.contains k then none else s.pending.get k := by
    unfold gcPending
    dsimp only
    rw [hExpired]
    split
    case isTrue hNone =>
      rw [List.isEmpty_iff.mp hNone]
      rfl
    case isFalse =>
      rw [persistPending, Dict.get_filter]
      cases expired.contains k <;> rfl
  rw [hKept]
  cases hGet : s.pending.get k with
  | none => simp
  | some v =>
      have hIff := hOld v hGet
      by_cases hMem : k ∈ expired
      · simp [hMem, hIff.mp hMem, Option.filter]
      · have hYoung : ¬ v.createdAt < now - stateTtlSeconds := fun h => hMem (hIff.mpr h)
        simp [hMem, hYoung, Option.filter]

/-- It writes the file when it drops anything. -/
theorem file_gcPending (now : ℚ) (s : PendingStore) :
    (gcPending now s).file = s.file ∨
      (gcPending now s).file = some (gcPending now s).pending := by
  unfold gcPending
  dsimp only
  split
  · exact Or.inl rfl
  · exact Or.inr rfl

theorem stored_gcPending (h : Stored (gcPending now s) k v) : Stored s k v := by
  have hMemory : (gcPending now s).pending.get k = some v → s.pending.get k = some v := by
    rw [get_gcPending]
    exact fun hFound => (Option.filter_eq_some_iff.mp hFound).1
  rcases h with hPending | ⟨d, hFile, hGet⟩
  · exact Or.inl (hMemory hPending)
  · rcases file_gcPending now s with hSame | hWritten
    · exact Or.inr ⟨d, hSame ▸ hFile, hGet⟩
    · rw [hWritten] at hFile
      cases hFile
      exact Or.inl (hMemory hGet)

/-- What is stored right after a write is in memory. -/
theorem stored_persistPending (h : Stored (persistPending s) k v) : s.pending.get k = some v := by
  rcases h with hPending | ⟨d, hFile, hGet⟩
  · exact hPending
  · cases hFile
    exact hGet

/-- A start brings back entries of the file. -/
theorem get_loadPending {file : Option (Dict PendingAuth)}
    (h : (loadPending now file).get k = some v) : ∃ d, file = some d ∧ d.get k = some v := by
  cases file with
  | none => cases h
  | some d =>
      rw [loadPending, Dict.get_ofList (d.nodup.sublist (List.filter_sublist.map _))] at h
      exact ⟨d, rfl, Dict.mem_iff_get.mp (List.mem_filter.mp h).1⟩

theorem length_popOldest {d : Dict PendingAuth} (h : d.entries ≠ []) :
    (popOldest d).entries.length + 1 = d.entries.length := by
  unfold popOldest
  cases hOldest : d.entries.argmin (fun e => e.2.createdAt) with
  | none => exact absurd (List.argmin_eq_none.mp hOldest) h
  | some oldest => exact Dict.length_pop (List.mem_map_of_mem (List.argmin_mem hOldest))

/-- With a turn for every entry the loop ends below the limit. -/
theorem length_makeRoom {turns : Nat} {d : Dict PendingAuth} (h : d.entries.length ≤ turns) :
    (makeRoom turns d).entries.length < maxPending := by
  induction turns generalizing d with
  | zero =>
      have hPos : 0 < maxPending := by decide
      simp only [makeRoom]
      omega
  | succ turns ih =>
      unfold makeRoom
      split
      case isTrue hFull =>
        have hNonempty : d.entries ≠ [] := by
          rintro hNil
          simp [hNil, maxPending] at hFull
        apply ih
        have hLess := length_popOldest hNonempty
        omega
      case isFalse hRoom => omega

/-- The loop only drops entries. -/
theorem get_makeRoom {turns : Nat} {d : Dict PendingAuth}
    (h : (makeRoom turns d).get k = some v) : d.get k = some v := by
  induction turns generalizing d with
  | zero => exact h
  | succ turns ih =>
      unfold makeRoom at h
      split at h
      · have hPopped := ih h
        unfold popOldest at hPopped
        split at hPopped
        · exact hPopped
        · rw [Dict.get_filter] at hPopped
          split at hPopped
          · exact hPopped
          · cases hPopped
      · exact h

/-- A consume takes the entry of its state, and what is too old. -/
theorem get_consumePending (gcAt now : ℚ) (state k : String) (s : PendingStore) :
    (consumePending gcAt now state s).2.pending.get k =
      if k = state then none else (gcPending gcAt s).pending.get k := by
  unfold consumePending
  dsimp only
  split
  case h_1 hNone =>
    by_cases hSame : k = state
    · rw [if_pos hSame, hSame]
      exact hNone
    · rw [if_neg hSame]
      rfl
  case h_2 entry _ =>
    have hPopped : ((gcPending gcAt s).pending.filter (· != state)).get k =
        if k = state then none else (gcPending gcAt s).pending.get k := by
      rw [Dict.get_filter]
      by_cases hSame : k = state <;> simp [hSame]
    split <;> exact hPopped

/-- It leaves the file as the memory is. -/
theorem file_consumePending (gcAt now : ℚ) (state : String) (s : PendingStore) :
    (consumePending gcAt now state s).2.file =
      some (consumePending gcAt now state s).2.pending := by
  unfold consumePending
  dsimp only
  split
  · rfl
  · split <;> rfl

theorem stored_consumePending {gcAt : ℚ} (h : Stored (consumePending gcAt now state s).2 k v) :
    (consumePending gcAt now state s).2.pending.get k = some v := by
  rcases h with hPending | ⟨d, hFile, hGet⟩
  · exact hPending
  · rw [file_consumePending] at hFile
    cases hFile
    exact hGet

/-- An entry is returned when it is there and young at both readings. -/
theorem consumePending_eq_some {gcAt : ℚ} :
    (consumePending gcAt now state s).1 = some v ↔
      s.pending.get state = some v ∧ gcAt - v.createdAt ≤ stateTtlSeconds ∧
        now - v.createdAt ≤ stateTtlSeconds := by
  have hFound : (gcPending gcAt s).pending.get state = some v ↔
      s.pending.get state = some v ∧ gcAt - v.createdAt ≤ stateTtlSeconds := by
    rw [get_gcPending, Option.filter_eq_some_iff, Bool.not_eq_true', decide_eq_false_iff_not]
    constructor
    · rintro ⟨hGet, hYoung⟩
      exact ⟨hGet, by linarith⟩
    · rintro ⟨hGet, hYoung⟩
      exact ⟨hGet, by linarith⟩
  rw [← and_assoc, ← hFound]
  unfold consumePending
  dsimp only
  split
  case h_1 hNone => simp [hNone]
  case h_2 entry hEntry =>
    rw [hEntry]
    split
    case isTrue hOld =>
      simp only [reduceCtorEq, Option.some.injEq, false_iff, not_and, not_le]
      rintro rfl
      exact hOld
    case isFalse hYoung =>
      simp only [Option.some.injEq]
      constructor
      · rintro rfl
        exact ⟨rfl, not_lt.mp hYoung⟩
      · exact fun h => h.1

end Operations

section Runs

variable {s : PendingStore} {events : List PendingEvent} {k state : String} {v : PendingAuth}

/-- After an event, an entry was stored before it or is the one it stashes. -/
theorem stored_step {e : PendingEvent} (h : Stored (pendingStep s e) k v) :
    Stored s k v ∨
      ∃ gcAt, e = .stash gcAt v.createdAt v.pkceVerifier v.nonce v.returnTo k := by
  cases e with
  | stash gcAt now pkceVerifier nonce returnTo drawn =>
      have hGet := stored_persistPending h
      rw [Dict.get_set] at hGet
      split at hGet
      case isTrue hSame =>
        cases hGet
        exact Or.inr ⟨gcAt, by rw [hSame]⟩
      case isFalse => exact Or.inl (stored_gcPending (Or.inl (get_makeRoom hGet)))
  | consume gcAt now consumed =>
      left
      have hGet := stored_consumePending h
      rw [get_consumePending] at hGet
      split at hGet
      · cases hGet
      · exact stored_gcPending (Or.inl hGet)
  | gc now => exact Or.inl (stored_gcPending h)
  | restart now =>
      rcases h with hPending | hFile
      · exact Or.inl (Or.inr (get_loadPending hPending))
      · exact Or.inl (Or.inr hFile)

/-- After a run, an entry was stored before it or the run stashed it. -/
theorem stored_run (h : Stored (Runs.run pendingStep s events) k v) :
    Stored s k v ∨ Stashed events k v := by
  induction events generalizing s with
  | nil => exact Or.inl h
  | cons e events ih =>
      rcases ih h with hNext | ⟨gcAt, hMem⟩
      · refine (stored_step hNext).imp_right ?_
        rintro ⟨gcAt, rfl⟩
        exact ⟨gcAt, List.mem_cons_self⟩
      · exact Or.inr ⟨gcAt, List.mem_cons_of_mem _ hMem⟩

theorem not_stored_empty : ¬ Stored .empty k v := by
  rintro (hPending | ⟨d, hFile, _⟩)
  · cases hPending
  · cases hFile

theorem stashed_of_stored (h : Stored (Runs.run pendingStep .empty events) k v) :
    Stashed events k v := (stored_run h).resolve_left not_stored_empty

/-- A stashed state was drawn. -/
theorem Stashed.drawn (h : Stashed events k v) : k ∈ events.filterMap PendingEvent.drawn := by
  obtain ⟨gcAt, hMem⟩ := h
  exact List.mem_filterMap.mpr ⟨_, hMem, rfl⟩

/-- A state that was returned is stored nowhere for the rest of the run. -/
theorem not_stored_of_returned (hDrawn : (events.filterMap PendingEvent.drawn).Nodup)
    (h : ReturnedIn events state) : ¬ Stored (Runs.run pendingStep .empty events) state v := by
  obtain ⟨before, gcAt, now, after, rfl, hSome⟩ := h
  obtain ⟨entry, hEntry⟩ := Option.isSome_iff_exists.mp hSome
  have hEarlier := (stashed_of_stored (Or.inl (consumePending_eq_some.mp hEntry).1)).drawn
  rw [List.filterMap_append, List.nodup_append] at hDrawn
  rw [Runs.run_append]
  intro hStored
  have hAfter : Stored (Runs.run pendingStep
      (consumePending gcAt now state (Runs.run pendingStep .empty before)).2 after) state v :=
    hStored
  rcases stored_run hAfter with hConsumed | hLater
  · have hGet := stored_consumePending hConsumed
    rw [get_consumePending, if_pos rfl] at hGet
    cases hGet
  · exact hDrawn.2.2 state hEarlier state hLater.drawn rfl

/-- Neither copy of the store holds more entries than allowed. -/
structure Bounded (s : PendingStore) : Prop where
  pending : s.pending.entries.length ≤ maxPending
  file : ∀ d, s.file = some d → d.entries.length ≤ maxPending

theorem Bounded.persist {pending : Dict PendingAuth} (h : pending.entries.length ≤ maxPending) :
    Bounded (persistPending { s with pending := pending }) := by
  refine ⟨h, fun d hFile => ?_⟩
  cases hFile
  exact h

theorem Bounded.gc (h : Bounded s) (now : ℚ) : Bounded (gcPending now s) := by
  unfold gcPending
  dsimp only
  split
  · exact h
  · exact .persist ((Dict.length_filter_le _ _).trans h.pending)

/-- A stash makes room before it adds its entry. -/
theorem bounded_stashPending (gcAt now : ℚ) (pkceVerifier nonce returnTo state : String)
    (s : PendingStore) : Bounded (stashPending gcAt now pkceVerifier nonce returnTo state s) := by
  apply Bounded.persist
  have hRoom := length_makeRoom (le_refl (gcPending gcAt s).pending.entries.length)
  have hAdded := Dict.length_set_le (makeRoom (gcPending gcAt s).pending.entries.length
    (gcPending gcAt s).pending) state ⟨pkceVerifier, nonce, returnTo, now⟩
  omega

theorem Bounded.step (h : Bounded s) (e : PendingEvent) : Bounded (pendingStep s e) := by
  cases e with
  | stash gcAt now pkceVerifier nonce returnTo state =>
      exact bounded_stashPending gcAt now pkceVerifier nonce returnTo state s
  | consume gcAt now state =>
      have hGc := h.gc gcAt
      have hPopped := (Dict.length_filter_le (gcPending gcAt s).pending (· != state)).trans
        hGc.pending
      simp only [pendingStep, consumePending]
      split
      · exact .persist hGc.pending
      · split <;> exact .persist hPopped
  | gc now => exact h.gc now
  | restart now =>
      refine ⟨?_, h.file⟩
      cases hFile : s.file with
      | none => simp [pendingStep, loadPending, hFile, Dict.empty]
      | some d =>
          have hLoaded := Dict.length_setAll_le Dict.empty
            (d.entries.filter (fun e => !decide (stateTtlSeconds < now - e.2.createdAt)))
          have hKept := List.length_filter_le
            (fun e => !decide (stateTtlSeconds < now - e.2.createdAt)) d.entries
          have hBound := h.file d hFile
          simp only [pendingStep, loadPending, hFile, Dict.ofList]
          simp only [Dict.empty, List.length_nil] at hLoaded ⊢
          omega

theorem bounded_run (events : List PendingEvent) : Bounded (Runs.run pendingStep .empty events) := by
  refine Runs.run_preserves (fun s e h => h.step e) ⟨Nat.zero_le _, ?_⟩ events
  intro d hFile
  cases hFile

end Runs

section Logins

/-- What a callback may rely on when it consumes a state at the end of a run. -/
structure ConsumedOnce (events : List PendingEvent) : Prop where
  bounded : (Runs.run pendingStep .empty events).pending.entries.length ≤ maxPending
  returned : ∀ (gcAt now : ℚ) (state : String) (entry : PendingAuth),
    (consumePending gcAt now state (Runs.run pendingStep .empty events)).1 = some entry →
      Stashed events state entry ∧ now - entry.createdAt ≤ stateTtlSeconds ∧
        ¬ ReturnedIn events state
  others : ∀ (gcAt now : ℚ) (state other : String), other ≠ state →
    (consumePending gcAt now state (Runs.run pendingStep .empty events)).2.pending.get other =
      ((Runs.run pendingStep .empty events).pending.get other).filter
        (fun entry => decide (gcAt - entry.createdAt ≤ stateTtlSeconds))
  persisted : ∀ (gcAt now : ℚ) (state : String),
    (consumePending gcAt now state (Runs.run pendingStep .empty events)).2.file =
      some (consumePending gcAt now state (Runs.run pendingStep .empty events)).2.pending

/-- A login attempt is consumed at most once, whatever the clock reads and
whenever the daemon restarts. -/
theorem consumedOnce_run (events : List PendingEvent)
    (hDrawn : (events.filterMap PendingEvent.drawn).Nodup) : ConsumedOnce events := by
  refine ⟨(bounded_run events).pending, ?_, ?_, fun _ _ _ => file_consumePending _ _ _ _⟩
  · intro gcAt now state entry hReturned
    obtain ⟨hGet, _, hYoung⟩ := consumePending_eq_some.mp hReturned
    exact ⟨stashed_of_stored (Or.inl hGet), hYoung,
      fun hEarlier => not_stored_of_returned hDrawn hEarlier (Or.inl hGet)⟩
  · intro gcAt now state other hOther
    rw [get_consumePending, if_neg hOther, get_gcPending]
    congr 1
    funext entry
    rw [← decide_not, decide_eq_decide, not_lt]
    constructor <;> intro h <;> linarith

/-- One login: stashed, the daemon restarts, the callback comes, and again. -/
def oneLogin : List PendingEvent :=
  [.stash 0 0 "verifier" "nonce" "/" "s1", .restart 10, .consume 20 20 "s1", .restart 30]

theorem consumedOnce_oneLogin :
    ConsumedOnce oneLogin ∧ ReturnedIn oneLogin "s1" ∧
      (consumePending 40 40 "s1" (Runs.run pendingStep .empty oneLogin)).1 = none := by
  refine ⟨consumedOnce_run oneLogin (by decide), ?_, by decide +kernel⟩
  exact ⟨[.stash 0 0 "verifier" "nonce" "/" "s1", .restart 10], 20, 20, [.restart 30], rfl,
    by decide +kernel⟩

/-- A consume collects the expired entry of another state. -/
theorem consume_collects_expired :
    (Runs.run pendingStep .empty [.stash 0 0 "verifier" "nonce" "/" "s1"]).pending.get "s1" ≠
      (consumePending 400 400 "s2" (Runs.run pendingStep .empty
        [.stash 0 0 "verifier" "nonce" "/" "s1"])).2.pending.get "s1" := by
  decide +kernel

end Logins

end WattPost.Auth
