import WattPost.Cloud.SyncLedger
import Mathlib.Logic.Relation

/-! `record_poll` beside the sync. A poll takes its timestamp before it awaits
and inserts afterwards, so a minute can be fetched as closed while a sample
stamped in it is still on its way. Samples up to the watermark are counted in
delivered rows as long as no fetch comes in such a moment. -/
namespace WattPost.Cloud

open Keyed Process Storage

variable {V : Type} [SqlReal V]

/-- The steps of `record_poll` between its awaits, and the clock. -/
inductive PollStep : StoreState V → StoreState V → Prop where
  | tick {st : StoreState V} (clock : Nat) :
      st.clock ≤ clock → PollStep st { st with clock := clock }
  | stamp {st : StoreState V} :
      st.poll = .idle → PollStep st { st with poll := .stamped st.clock }
  | insert {st : StoreState V} (p : PollRows V) :
      st.poll = .stamped p.ts →
        PollStep st { st with visible := recordPoll p st.visible, poll := .inserted }
  | commit {st : StoreState V} :
      st.poll = .inserted → PollStep st { st with committed := st.visible, poll := .idle }
  | rollback {st : StoreState V} :
      st.poll = .inserted → PollStep st { st with visible := st.committed, poll := .idle }
  | abandon {st : StoreState V} (ts : Nat) :
      st.poll = .stamped ts → PollStep st { st with poll := .idle }

/-- One task polls and one syncs, for one identity, and a run reads the clock
when it begins. -/
def pollAndSync : Setting V where
  env := Relation.ReflTransGen PollStep
  begins s cfg := cfg.now = s.store.clock ∧ cfg.identity = s.run.identity
  fetches _ _ _ := True

/-- The start of both tasks. -/
structure RaceInitial (s : World V) : Prop extends Initial s where
  clock : s.run.now ≤ s.store.clock
  poll : s.store.poll = .idle
  committed : s.store.committed = s.store.visible

/-- The sample is counted in the `n` of a delivered row: the row of its bucket,
device and metric aggregates the samples of a store that has it. -/
def Counted (posts : List (PostRecord V)) (identity : String) (x : Key) : Prop :=
  ∃ p ∈ posts, p.identity = identity ∧ p.Acked ∧ p.source.samples.Has x ∧
    ∃ r, (x.bucket 60, r) ∈ p.rows ∧
      foldGroup aggregateSamples (group (Key.bucket 60) (x.bucket 60) p.source.samples.rows) = some r

/-- Every committed sample newer than the starting watermark whose bucket the
watermark has reached is counted. -/
def SamplesCounted (s : World V) : Prop :=
  s.owner = s.run.identity → ∀ w, s.kvWatermark = some (.int w) →
    ∀ x, s.store.committed.samples.Has x → s.start < x.ts → ((x.bucket 60).ts : Int) ≤ w →
      Counted s.posts s.run.identity x

/-- At a fetch no poll is on its way with a timestamp in a closed minute newer
than the watermark, and the samples of those minutes are finite and still
inside the raw retention. -/
structure FetchInTime (cfg : RunConfig) (st : StoreState V) (afterTs : Int) : Prop where
  stamped : ∀ k : Key, st.poll = .stamped k.ts → afterTs < (k.bucket 60).ts →
    cfg.now < (k.bucket 60).ts + 60
  retained : ∀ k, st.visible.samples.Has k → afterTs < (k.bucket 60).ts →
    ((k.bucket 60).ts : Int) + 60 ≤ cfg.now → rawFloor st.retention cfg.now ≤ k.ts
  finite : ∀ k v, (k, v) ∈ st.visible.samples.rows → afterTs < (k.bucket 60).ts →
    ((k.bucket 60).ts : Int) + 60 ≤ cfg.now → SqlReal.isfinite v = true

/-- The same tasks, with every fetch in time. -/
def pollAndSyncInTime : Setting V where
  env := (pollAndSync (V := V)).env
  begins := (pollAndSync (V := V)).begins
  fetches cfg st afterTs := FetchInTime cfg st afterTs

/-! ### Polls -/

/-- Committed samples are visible, and the clock has not gone back behind the
run. -/
def PollInv (now : Int) (st : StoreState V) : Prop :=
  now ≤ st.clock ∧ ∀ x, st.committed.samples.Has x → st.visible.samples.Has x

/-- Samples that are there, and those that a stamped poll may still insert. -/
def SampleOwed (st : StoreState V) (x : Key) : Prop :=
  st.visible.samples.Has x ∨ st.committed.samples.Has x ∨ st.poll = .stamped x.ts

omit [SqlReal V] in
theorem has_recordPoll {p : PollRows V} {db : Db V} {x : Key}
    (h : (recordPoll p db).samples.Has x) : db.samples.Has x ∨ x.ts = p.ts := by
  rcases Table.has_insertAll.mp h with hOld | ⟨v, hv⟩
  · exact Or.inl hOld
  · obtain ⟨row, _, hRow⟩ := List.mem_map.mp hv
    refine Or.inr ?_
    cases hRow
    rfl

omit [SqlReal V] in
theorem pollInv_step {now : Int} {st st' : StoreState V} (h : PollInv now st)
    (hStep : PollStep st st') : PollInv now st' := by
  obtain ⟨hNow, hSub⟩ := h
  cases hStep with
  | tick clock hle => exact ⟨hNow.trans (Int.ofNat_le.mpr hle), hSub⟩
  | stamp _ => exact ⟨hNow, hSub⟩
  | insert p _ => exact ⟨hNow, fun x hx => Table.has_insertAll.mpr (Or.inl (hSub x hx))⟩
  | commit _ => exact ⟨hNow, fun x hx => hx⟩
  | rollback _ => exact ⟨hNow, fun x hx => hx⟩
  | abandon ts _ => exact ⟨hNow, hSub⟩

omit [SqlReal V] in
/-- A step brings up no sample of a minute that is closed for the run. -/
theorem sampleOwed_step {now : Int} {st st' : StoreState V} (h : PollInv now st)
    (hStep : PollStep st st') {x : Key} (hx : SampleOwed st' x) :
    SampleOwed st x ∨ now < (x.bucket 60).ts + 60 := by
  cases hStep with
  | tick clock _ => exact Or.inl hx
  | stamp hIdle =>
      rcases hx with hx | hx | hx
      · exact Or.inl (Or.inl hx)
      · exact Or.inl (Or.inr (Or.inl hx))
      · have hTs : st.clock = x.ts := PollStage.stamped.inj hx
        have hLt := Key.lt_bucket_ts_add (w := 60) (by decide) x
        have hNow := h.1
        exact Or.inr (by omega)
  | insert p hStamped =>
      rcases hx with hx | hx | hx
      · rcases has_recordPoll hx with hOld | hTs
        · exact Or.inl (Or.inl hOld)
        · exact Or.inl (Or.inr (Or.inr (by rw [hStamped, hTs])))
      · exact Or.inl (Or.inr (Or.inl hx))
      · cases hx
  | commit _ =>
      rcases hx with hx | hx | hx
      · exact Or.inl (Or.inl hx)
      · exact Or.inl (Or.inl hx)
      · cases hx
  | rollback _ =>
      rcases hx with hx | hx | hx
      · exact Or.inl (Or.inr (Or.inl hx))
      · exact Or.inl (Or.inr (Or.inl hx))
      · cases hx
  | abandon ts _ =>
      rcases hx with hx | hx | hx
      · exact Or.inl (Or.inl hx)
      · exact Or.inl (Or.inr (Or.inl hx))
      · cases hx

omit [SqlReal V] in
theorem pollInv_steps {now : Int} {st st' : StoreState V} (h : PollInv now st)
    (hSteps : Relation.ReflTransGen PollStep st st') : PollInv now st' := by
  induction hSteps with
  | refl => exact h
  | tail _ hStep ih => exact pollInv_step ih hStep

omit [SqlReal V] in
theorem sampleOwed_steps {now : Int} {st st' : StoreState V} (h : PollInv now st)
    (hSteps : Relation.ReflTransGen PollStep st st') {x : Key} (hx : SampleOwed st' x) :
    SampleOwed st x ∨ now < (x.bucket 60).ts + 60 := by
  induction hSteps with
  | refl => exact Or.inl hx
  | tail hBefore hStep ih =>
      rcases sampleOwed_step (pollInv_steps h hBefore) hStep hx with hOld | hNew
      · exact ih hOld
      · exact Or.inr hNew

/-! ### Rows of finite samples -/

/-- A row of finite samples has finite statistics. -/
theorem rowOk_of_finite {k : Key} {v : V} {vs : List V}
    (h : ∀ u ∈ v :: vs, SqlReal.isfinite u = true) : rowOk (k, aggregateSamples v vs) = true := by
  have hMin : vs.foldl min v ∈ v :: vs :=
    (List.min?_eq_some_iff.mp (show (v :: vs).min? = some (vs.foldl min v) from rfl)).1
  have hMax : vs.foldl max v ∈ v :: vs :=
    (List.max?_eq_some_iff.mp (show (v :: vs).max? = some (vs.foldl max v) from rfl)).1
  rw [rowOk, aggregateSamples]
  simp [SqlReal.isfinite_avg _ h, h _ hMin, h _ hMax]

/-- A visible sample of a closed minute from the raw floor on has its row among
the closed rows. -/
theorem exists_closedRow {ret : Retention} {db : Db V} {now : Int} {x : Key}
    (hx : db.samples.Has x) (hFloor : rawFloor ret now ≤ x.ts)
    (hClosed : ((x.bucket 60).ts : Int) + 60 ≤ now) :
    ∃ r, (x.bucket 60, r) ∈ closedRows ret db now ∧
      foldGroup aggregateSamples (group (Key.bucket 60) (x.bucket 60) db.samples.rows) = some r := by
  obtain ⟨v, hv⟩ := hx
  have hHas : (rawMinutes db).Has (x.bucket 60) := has_groupBy.mpr ⟨(x, v), hv, rfl⟩
  obtain ⟨r, hr⟩ := hHas
  have hFloor' : rawFloor ret now ≤ (x.bucket 60).ts := by
    have := dvd_rawFloor ret now
    rw [Key.bucket_ts]
    omega
  refine ⟨r, mem_closedRows.mpr ⟨hClosed, Or.inr ⟨hr, hFloor'⟩⟩, ?_⟩
  rw [← lookup_groupBy]
  exact Table.lookup_eq_some_iff.mpr hr

/-- The samples are owed. A row carries those that it aggregates. -/
def sampleLedger : Ledger (pollAndSyncInTime (V := V)) where
  Item := Key
  bucket x := (x.bucket 60).ts
  Inv := PollInv
  Owed := SampleOwed
  Carries source rows x := source.samples.Has x ∧ ∃ r, (x.bucket 60, r) ∈ rows ∧
    foldGroup aggregateSamples (group (Key.bucket 60) (x.bucket 60) source.samples.rows) = some r ∧
    rowOk (x.bucket 60, r) = true
  Settled posts identity x := Counted posts identity x ∨ ∃ r, RefusedAlone posts identity r
  inv_env := pollInv_steps
  inv_commit h := ⟨h.1, fun _ hx => hx⟩
  inv_restart h := ⟨h.1, fun _ hx => hx⟩
  inv_begins := by
    intro s cfg hInv hBegin
    rw [hBegin.1]
    exact ⟨hInv.1, le_refl _, hInv.2⟩
  owed_env h hSteps hx := sampleOwed_steps h hSteps hx
  owed_commit := by
    rintro st x (hx | hx | hx)
    · exact Or.inl hx
    · exact Or.inl hx
    · exact Or.inr (Or.inr hx)
  owed_restart := by
    rintro st x (hx | hx | hx)
    · exact Or.inr (Or.inl hx)
    · exact Or.inr (Or.inl hx)
    · cases hx
  settled_append := by
    rintro posts more identity x (⟨p, hp, hRest⟩ | ⟨r, hr⟩)
    · exact Or.inl ⟨p, List.mem_append_left _ hp, hRest⟩
    · exact Or.inr ⟨r, hr.append⟩
  settled_of_carries := by
    rintro posts identity source rows x ⟨hHas, r, hr, hFold, hOk⟩ h
    rcases h _ hr with hBad | ⟨p, hp, hIdentity, rfl, hAcked, hMem⟩ | hRefused
    · rw [hOk] at hBad
      cases hBad
    · exact Or.inl ⟨p, hp, hIdentity, hAcked, hHas, r, hMem, hFold⟩
    · exact Or.inr ⟨_, hRefused⟩
  carries_of_fetch := by
    intro cfg st afterTs last x hInv hFetch hLast hx hAfter hle
    have hClosed : ((x.bucket 60).ts : Int) + 60 ≤ cfg.now := by
      have := (closed_of_mem_batch (List.mem_of_getLast? hLast)).2
      omega
    have hVisible : st.visible.samples.Has x := by
      rcases hx with hx | hx | hx
      · exact hx
      · exact hInv.2 x hx
      · have := hFetch.stamped x hx hAfter
        omega
    obtain ⟨r, hr, hFold⟩ :=
      exists_closedRow hVisible (hFetch.retained x hVisible hAfter hClosed) hClosed
    refine ⟨hVisible, r, ?_, hFold, ?_⟩
    · rcases mem_batch_or_wide hLast hr hAfter hle with hBatch | ⟨_, hOld, _, _⟩
      · exact hBatch
      · have hFloor := hFetch.retained x hVisible hAfter hClosed
        have := dvd_rawFloor st.retention cfg.now
        change ((x.bucket 60).ts : Int) < _ at hOld
        rw [Key.bucket_ts] at hOld
        omega
    · cases hGroup : group (Key.bucket 60) (x.bucket 60) st.visible.samples.rows with
      | nil =>
          rw [hGroup] at hFold
          cases hFold
      | cons y ys =>
          rw [hGroup, foldGroup, Option.some.injEq] at hFold
          subst hFold
          apply rowOk_of_finite
          intro u hu
          rw [← List.map_cons (f := Prod.snd), ← hGroup] at hu
          obtain ⟨⟨k, u'⟩, hk, rfl⟩ := List.mem_map.mp hu
          obtain ⟨hMem, hBucket⟩ := mem_group.mp hk
          have hBucket' : k.bucket 60 = x.bucket 60 := hBucket
          apply hFetch.finite k u' hMem
          · rw [hBucket']
            exact hAfter
          · rw [hBucket']
            exact hClosed

/-- In every interleaving in which each fetch is in time, no row is refused for
good and no sample lies in the minute of the starting watermark itself, the
committed samples up to the watermark are counted. -/
theorem samples_counted (s : World V) (h : Reachable pollAndSyncInTime RaceInitial s)
    (hStart : ∀ x, s.store.committed.samples.Has x → s.start < x.ts →
      s.start < (x.bucket 60).ts)
    (hRefused : ∀ r, ¬ RefusedAlone s.posts s.run.identity r) : SamplesCounted s := by
  have hGood : Good sampleLedger s := by
    apply good_of_reachable _ _ h
    · intro s hs
      refine ⟨hs.toInitial, hs.clock, ?_⟩
      rw [hs.committed]
      exact fun _ hx => hx
    · intro s cfg hBegin hGood hOwner
      rw [hBegin.2] at hOwner ⊢
      exact hGood.writer hOwner
  intro hOwner w hw x hx hTs hle
  have hWriter : s.writer = s.owner := by
    rw [hGood.writer hOwner, hOwner]
  rcases hGood.settled hWriter w hw x (Or.inr (Or.inl hx)) (hStart x hx hTs) hle with
    hCounted | ⟨r, hr⟩
  · rw [hOwner] at hCounted
    exact hCounted
  · rw [hOwner] at hr
    exact absurd hr (hRefused r)

/-! ### A sample on its way -/

/-- A poll that reads one battery. -/
def socPoll (ts : Nat) (soc : ℚ) : PollRows ℚ :=
  ⟨ts, [("bank", "soc_pct", soc)], [], [], ⟨0, 1, 0, none⟩⟩

/-- The store after the poll at second 10 is committed. -/
def afterFirstPoll (clock : Nat) (poll : PollStage) : StoreState ℚ :=
  ⟨clock, .default, recordPoll (socPoll 10 60) Db.empty,
    recordPoll (socPoll 10 60) Db.empty, poll⟩

/-- The store after a second poll, stamped at second 59, is committed too. -/
def afterSecondPoll : StoreState ℚ :=
  ⟨120, .default, recordPoll (socPoll 59 61) (recordPoll (socPoll 10 60) Db.empty),
    recordPoll (socPoll 59 61) (recordPoll (socPoll 10 60) Db.empty), .idle⟩

def runAt (now : Int) : RunConfig := ⟨now, "a", 24⟩

/-- A sync that starts before the first minute. -/
def syncStart : World ℚ where
  store := ⟨10, .default, Db.empty, Db.empty, .idle⟩
  kvIdentity := some "a"
  kvWatermark := some (.int (-60))
  poison := none
  run := runAt 10
  posts := []
  source := Db.empty
  start := -60
  writer := "a"

theorem raceInitial_syncStart : RaceInitial syncStart := by
  refine ⟨⟨rfl, rfl, ?_⟩, ?_, rfl, rfl⟩
  · intro w hw
    cases hw
    rfl
  · decide

theorem steps_firstPoll :
    Relation.ReflTransGen PollStep syncStart.store (afterFirstPoll 10 .idle) :=
  .tail (.tail (.single (.stamp rfl)) (.insert (socPoll 10 60) rfl)) (.commit rfl)

/-- The run at second 60, after the first poll alone. -/
def syncedOnce (poll : PollStage) : World ℚ :=
  ((runOnce (runAt 60)).runWith (World.respond World.acknowledge) 100
    { syncStart with store := afterFirstPoll 60 poll, run := runAt 60 }).2

theorem syncedOnce_store (poll : PollStage) :
    (syncedOnce poll).store = afterFirstPoll 60 poll := by
  unfold syncedOnce
  exact (Proc.runWith_inv (respond_at_rest rfl World.acknowledge) 100 _ ⟨rfl, rfl⟩).1

/-- No second poll is on its way at second 60. -/
theorem samples_counted_in_time :
    SamplesCounted (syncedOnce .idle) ∧ (syncedOnce .idle).kvWatermark = some (.int 0) := by
  refine ⟨samples_counted (syncedOnce .idle) ?_ ?_ ?_, by decide +kernel⟩
  · have hPoll : Reachable (pollAndSyncInTime (V := ℚ)) RaceInitial
        { syncStart with store := afterFirstPoll 60 .idle } :=
      Reachable.env (Reachable.init raceInitial_syncStart)
        (steps_firstPoll.tail (PollStep.tick 60 (by decide)))
    refine Reachable.run (runAt 60) hPoll ⟨rfl, rfl⟩
      (exec_at_rest rfl Relation.ReflTransGen.refl ?_ World.acknowledge 100 _)
    intro afterTs
    refine ⟨fun k hk => ?_, fun k _ _ hClosed => ?_, fun k v _ _ _ => rfl⟩
    · cases hk
    · have hFloor : rawFloor .default 60 ≤ 0 := by decide
      exact hFloor.trans (Int.natCast_nonneg _)
  · intro x _ _
    have hStart : (syncedOnce .idle).start = -60 := by decide +kernel
    omega
  · rintro r ⟨before, p, c, after, hPosts, _, _, ⟨status, body, hOutcome, hStatus, _⟩, _⟩
    have hAccepted : (syncedOnce .idle).posts.all (fun p => p.outcome.toExcept.isOk) = true := by
      decide +kernel
    have hp := List.all_eq_true.mp hAccepted p (by rw [hPosts]; simp)
    simp [hOutcome, PostOutcome.toExcept, hStatus, Except.isOk, Except.toBool] at hp

/-- The run at second 120, after the second poll has come in. -/
def syncedTwice : World ℚ :=
  ((runOnce (runAt 120)).runWith (World.respond World.acknowledge) 100
    { syncedOnce (.stamped 59) with store := afterSecondPoll, run := runAt 120 }).2

/-- The second poll is stamped at second 59 and still on its way when the run at
second 60 ships its minute. Both runs are acknowledged in full, the watermark
has reached the minute, and no delivered row counts the sample. -/
theorem late_sample_not_counted :
    Reachable (pollAndSync (V := ℚ)) RaceInitial syncedTwice ∧
    (((runOnce (runAt 120)).runWith (World.respond World.acknowledge) 100
      { syncedOnce (.stamped 59) with store := afterSecondPoll, run := runAt 120 }).1.map
        (fun res => res.error.isNone)) = some true ∧
    ¬ SamplesCounted syncedTwice := by
  refine ⟨?_, by decide +kernel, ?_⟩
  · have hStamped : Reachable (pollAndSync (V := ℚ)) RaceInitial
        { syncStart with store := afterFirstPoll 60 (.stamped 59) } :=
      Reachable.env (Reachable.init raceInitial_syncStart)
        (((steps_firstPoll.tail (PollStep.tick 59 (by decide))).tail (PollStep.stamp rfl)).tail
          (PollStep.tick 60 (by decide)))
    have hOnce : Reachable (pollAndSync (V := ℚ)) RaceInitial (syncedOnce (.stamped 59)) :=
      Reachable.run (runAt 60) hStamped ⟨rfl, rfl⟩
        (exec_at_rest rfl Relation.ReflTransGen.refl (fun _ => trivial) World.acknowledge 100 _)
    have hSteps : Relation.ReflTransGen PollStep (afterFirstPoll 60 (.stamped 59)) afterSecondPoll :=
      ((Relation.ReflTransGen.single (PollStep.insert (socPoll 59 61) rfl)).tail
        (PollStep.commit rfl)).tail (PollStep.tick 120 (by decide))
    have hSecond : Reachable (pollAndSync (V := ℚ)) RaceInitial
        { syncedOnce (.stamped 59) with store := afterSecondPoll } :=
      Reachable.env hOnce (by rw [syncedOnce_store]; exact hSteps)
    exact Reachable.run (runAt 120) hSecond ⟨rfl, by decide +kernel⟩
      (exec_at_rest rfl Relation.ReflTransGen.refl (fun _ => trivial) World.acknowledge 100 _)
  · intro h
    have hStore : syncedTwice.store = afterSecondPoll :=
      (Proc.runWith_inv (respond_at_rest rfl World.acknowledge) 100 _ ⟨rfl, rfl⟩).1
    have hHas : syncedTwice.store.committed.samples.Has ⟨59, "bank", "soc_pct"⟩ := by
      rw [hStore]
      exact Table.has_iff_lookup.mpr ⟨61, by decide +kernel⟩
    obtain ⟨p, hp, _, _, hSource, r, hr, _⟩ := h (by decide +kernel) 0 (by decide +kernel) _ hHas
      (by decide +kernel) (by decide)
    -- the posts with rows were read from a store without the sample
    have hPosts : syncedTwice.posts.all (fun p => p.rows.isEmpty ||
        (p.source.samples.lookup ⟨59, "bank", "soc_pct"⟩).isNone) = true := by decide +kernel
    have hp' := List.all_eq_true.mp hPosts p hp
    obtain ⟨v, hv⟩ := Table.has_iff_lookup.mp hSource
    simp [List.ne_nil_of_mem hr, hv] at hp'

end WattPost.Cloud
