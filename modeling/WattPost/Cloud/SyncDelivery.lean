import WattPost.Cloud.SyncLedger

/-! At-least-once delivery of a store whose closed rows do not change. Every
closed row up to the persisted watermark is settled with the stored identity,
as long as no run takes over a watermark that another identity wrote last, and
no fetch answers for a wide old bucket with part of its rows. -/
namespace WattPost.Cloud

open Keyed Process Storage

variable {V : Type} [SqlReal V]

/-- The store shows these rows, as far as they are closed. -/
def Shows (closed : List (Row V)) (cfg : RunConfig) (st : StoreState V) : Prop :=
  closedRows st.retention st.visible cfg.now = closed.filter (fun r => bucketTs r + 60 ≤ cfg.now)

/-- Runs with nondecreasing `now` on a store whose closed rows do not change. -/
def fixedRows (closed : List (Row V)) : Setting V where
  env _ _ := True
  begins s cfg := s.run.now ≤ cfg.now
  fetches cfg st _ := Shows closed cfg st

/-- The rows up to the persisted watermark of the current identity, and newer
than the one it started from, are settled with it. -/
def AtLeastOnce (closed : List (Row V)) (s : World V) : Prop :=
  s.owner = s.run.identity → ∀ w, s.kvWatermark = some (.int w) →
    ∀ r ∈ closed, s.start < bucketTs r → bucketTs r ≤ w →
      rowOk r = false ∨ (∃ source, Delivered s.posts s.run.identity source r) ∨
        RefusedAlone s.posts s.run.identity r

/-- A run under the stored identity finds a watermark that this identity wrote
last, or took over when it was stored. -/
def OwnsWatermark (s : World V) (cfg : RunConfig) : Prop :=
  s.owner = cfg.identity → s.writer = cfg.identity

/-- When the first closed bucket after the watermark is one of `samples_1min`
with more rows than a batch has room for, the raw table has all of them or none. -/
def FirstBucketWhole (cfg : RunConfig) (st : StoreState V) (afterTs : Int) : Prop :=
  ∀ b, afterTs < b → b < rawFloor st.retention cfg.now → b + 60 ≤ cfg.now →
    (∀ y ∈ closedRows st.retention st.visible cfg.now, afterTs < bucketTs y → b ≤ bucketTs y) →
    batchRows < (bucket1min st.visible b).length →
      wideBucket st.visible b = [] ∨ bucket1min st.visible b ⊆ wideBucket st.visible b

/-- The same runs, with the two conditions at each begin and each fetch. -/
def soundRows (closed : List (Row V)) : Setting V where
  env := (fixedRows closed).env
  begins s cfg := (fixedRows closed).begins s cfg ∧ OwnsWatermark s cfg
  fetches cfg st afterTs :=
    (fixedRows closed).fetches cfg st afterTs ∧ FirstBucketWhole cfg st afterTs

/-- The closed rows themselves are owed. -/
def rowLedger (closed : List (Row V)) : Ledger (soundRows closed) where
  Item := Row V
  bucket := bucketTs
  Inv _ _ := True
  Owed _ r := r ∈ closed
  Carries _ rows r := r ∈ rows
  Settled posts identity r := ∃ source, RowSettled posts identity source r
  inv_env _ _ := trivial
  inv_commit _ := trivial
  inv_restart _ := trivial
  inv_begins _ h := ⟨h.1, trivial⟩
  owed_env _ _ h := Or.inl h
  owed_commit h := h
  owed_restart h := h
  settled_append := by
    rintro posts more identity r ⟨source, h⟩
    exact ⟨source, h.append⟩
  settled_of_carries := by
    intro posts identity source rows r hr h
    exact ⟨source, h r hr⟩
  carries_of_fetch := by
    intro cfg st afterTs last r _ hFetch hLast hr hAfter hle
    obtain ⟨hShows, hWhole⟩ := hFetch
    have hLastMem := List.mem_of_getLast? hLast
    have hClosed : bucketTs r + 60 ≤ cfg.now := by
      have := (closed_of_mem_batch hLastMem).2
      omega
    have hMem : r ∈ closedRows st.retention st.visible cfg.now := by
      have hEq : closedRows st.retention st.visible cfg.now = _ := hShows
      rw [hEq]
      exact List.mem_filter.mpr ⟨hr, by simpa using hClosed⟩
    rcases mem_batch_or_wide hLast hMem hAfter hle with hBatch | ⟨hWide, hOld, hLen, hFirst⟩
    · exact hBatch
    · rw [hWide]
      rcases hWhole _ hAfter hOld hClosed hFirst hLen with hNone | hSub
      · rw [hWide, hNone] at hLast
        cases hLast
      · apply hSub
        rw [mem_bucket1min]
        rcases (mem_closedRows.mp hMem).2 with ⟨hOldMem, _⟩ | ⟨_, hRaw⟩
        · exact ⟨hOldMem, rfl⟩
        · omega

/-- Over every sequence of runs, crashes and answers in which each run and each
fetch meets its condition, delivery is at least once. -/
theorem at_least_once (closed : List (Row V)) (s : World V)
    (h : Reachable (soundRows closed) Initial s) : AtLeastOnce closed s := by
  have hGood : Good (rowLedger closed) s := by
    apply good_of_reachable _ _ h
    · intro s hs
      exact ⟨hs, trivial⟩
    · intro s cfg hBegin _
      exact hBegin.2
  intro hOwner w hw r hr hStart hle
  have hWriter : s.writer = s.owner := by
    rw [hGood.writer hOwner, hOwner]
  obtain ⟨source, hBad | hDelivered | hRefused⟩ := hGood.settled hWriter w hw r hr hStart hle
  · exact Or.inl hBad
  · rw [hOwner] at hDelivered
    exact Or.inr (Or.inl ⟨source, hDelivered⟩)
  · rw [hOwner] at hRefused
    exact Or.inr (Or.inr hRefused)

/-! ### One row and two identities -/

/-- A store with one reading at the start of the epoch, two days later. -/
def oneReading : StoreState ℚ :=
  let db : Db ℚ :=
    { Db.empty with samples := Table.empty.insertAll [(⟨0, "bank", "soc_pct"⟩, 60)] }
  ⟨172800, .default, db, db, .idle⟩

def oneClosedRow : List (Row ℚ) := [(⟨0, "bank", "soc_pct"⟩, ⟨60, 60, 60, 1⟩)]

/-- A run two days after the reading, with a backfill of one day. -/
def runAs (identity : String) : RunConfig := ⟨172800, identity, 24⟩

/-- The sync is paired as `a`, and the cloud has acknowledged everything before the reading. -/
def pairedAsA : World ℚ where
  store := oneReading
  kvIdentity := some "a"
  kvWatermark := some (.int (-60))
  poison := none
  run := runAs "a"
  posts := []
  source := oneReading.visible
  start := -60
  writer := "a"

theorem initial_pairedAsA : Initial pairedAsA := by
  refine ⟨rfl, rfl, ?_⟩
  intro w hw
  cases hw
  rfl

theorem shows_oneReading (identity : String) : Shows oneClosedRow (runAs identity) oneReading := by
  have h : closedRows oneReading.retention oneReading.visible 172800 =
      oneClosedRow.filter (fun r => bucketTs r + 60 ≤ 172800) := by decide +kernel
  exact h

/-- A run as `a` posts the row, and the watermark moves to it. -/
theorem at_least_once_pairedAsA :
    AtLeastOnce oneClosedRow
      ((runOnce (runAs "a")).runWith (World.respond World.acknowledge) 100 pairedAsA).2 ∧
    ((runOnce (runAs "a")).runWith (World.respond World.acknowledge) 100 pairedAsA).2.kvWatermark =
      some (.int 0) := by
  refine ⟨at_least_once oneClosedRow _ ?_, by decide +kernel⟩
  have hFetch : ∀ afterTs, (soundRows oneClosedRow).fetches (runAs "a") oneReading afterTs := by
    intro afterTs
    refine ⟨shows_oneReading "a", ?_⟩
    intro b _ hOld _ _ hLen
    cases hLen
  exact Reachable.run (runAs "a") (Reachable.init initial_pairedAsA) ⟨le_refl _, fun _ => rfl⟩
    (exec_at_rest rfl trivial hFetch World.acknowledge 100 _)

/-- The process dies between the two writes of a reset from `a` to `b`. -/
def tornReset : World ℚ :=
  ((runOnce (runAs "b")).runWith (World.respond World.acknowledge) 2 { pairedAsA with run := runAs "b" }).2

/-- Then it is paired as `a` again, restarts and begins a run. The reading is
older than the watermark that `b` left, and `a` has never been sent anything. -/
theorem torn_reset_loses_row :
    Reachable (fixedRows oneClosedRow) Initial
      { tornReset with store := tornReset.store.restart, poison := none, run := runAs "a" } ∧
    ¬ AtLeastOnce oneClosedRow
      { tornReset with store := tornReset.store.restart, poison := none, run := runAs "a" } := by
  constructor
  · have hTorn : Reachable (fixedRows oneClosedRow) Initial tornReset :=
      Reachable.run (runAs "b") (Reachable.init initial_pairedAsA) (le_refl (172800 : Int))
        (exec_at_rest rfl trivial (fun _ => shows_oneReading "b") World.acknowledge 2 _)
    exact Reachable.run (runAs "a") (Reachable.restart hTorn) (le_refl (172800 : Int))
      (Exec.stop _ _)
  · intro h
    have hRow := h (by decide +kernel) 86340 (by decide +kernel) _ (List.mem_singleton.mpr rfl)
      (by decide +kernel) (by decide +kernel)
    have hPosts : tornReset.posts = [] := rfl
    rcases hRow with hBad | ⟨source, p, hp, _⟩ | ⟨before, p, c, after, hp, _⟩
    · cases hBad
    · rw [show tornReset.posts = [] from hPosts] at hp
      cases hp
    · rw [show tornReset.posts = [] from hPosts] at hp
      simp at hp

end WattPost.Cloud
