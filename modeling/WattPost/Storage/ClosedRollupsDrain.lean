import WattPost.Storage.ClosedRollups

/-! Draining the closed rows batch by batch, as the sync does. The one place
where a batch can differ from the rows it stands for is a bucket of
`samples_1min` with more rows than the limit: it is asked for again from
`samples`, which may no longer have it. -/
namespace WattPost.Storage

open Keyed

variable {V : Type} [SqlReal V]

/-- Iterating `closed_rollups_after` from `after_ts` reaches an empty batch and
loses no closed row on the way. -/
def DrainsClosedRows (ret : Retention) (db : Db V) (now : Int) (limit : Nat) (afterTs : Int) :
    Prop :=
  Paging.DrainsLosslessly bucketTs
    (fun wm => closedRollupsAfter rollupWindowS ret db wm now limit) (closedRows ret db now) afterTs

/-- The rows of `samples_1min` in one bucket. -/
def bucket1min (db : Db V) (b : Int) : List (Key × RollupRow V) := (select1min db b (b + 1)).rows

/-- The closed `samples_1min` buckets after `after_ts` and below the raw floor
that have more rows than the limit are still in `samples`, unchanged. -/
def WideOldBucketsKept (ret : Retention) (db : Db V) (now : Int) (limit : Nat) (afterTs : Int) :
    Prop :=
  ∀ b, afterTs < b → b < rawFloor ret now → b + 60 ≤ now → limit < (bucket1min db b).length →
    wideBucket db b = bucket1min db b

omit [SqlReal V] in
theorem mem_bucket1min {db : Db V} {b : Int} {x : Key × RollupRow V} :
    x ∈ bucket1min db b ↔ x ∈ db.samples1min.table.rows ∧ bucketTs x = b := by
  rw [bucket1min, select1min, Table.mem_filterKeys, bucketTs]
  simp only [decide_eq_true_eq]
  constructor
  · rintro ⟨hx, _, _⟩
    exact ⟨hx, by omega⟩
  · rintro ⟨hx, _⟩
    exact ⟨hx, by omega, by omega⟩

theorem mem_wideBucket {db : Db V} {b : Int} (hb : 60 ∣ b) {x : Key × RollupRow V} :
    x ∈ wideBucket db b ↔ x ∈ (rawMinutes db).rows ∧ bucketTs x = b := by
  rw [wideBucket, selectRaw_eq hb (by omega), Table.mem_filterKeys, bucketTs]
  simp only [decide_eq_true_eq]
  constructor
  · rintro ⟨hx, _, _⟩
    have := dvd_of_has_rawMinutes ⟨x.2, hx⟩
    exact ⟨hx, by omega⟩
  · rintro ⟨hx, _⟩
    exact ⟨hx, by omega, by omega⟩

theorem mem_closedRows {ret : Retention} {db : Db V} {now : Int} {x : Key × RollupRow V} :
    x ∈ closedRows ret db now ↔ bucketTs x + 60 ≤ now ∧
      (x ∈ db.samples1min.table.rows ∧ bucketTs x < rawFloor ret now ∨
        x ∈ (rawMinutes db).rows ∧ rawFloor ret now ≤ bucketTs x) := by
  rw [closedRows, List.mem_append, Table.mem_filterKeys, Table.mem_filterKeys, bucketTs]
  simp only [decide_eq_true_eq]
  tauto

theorem dvd_bucketTs {ret : Retention} {db : Db V} {now : Int} {x : Key × RollupRow V}
    (hx : x ∈ closedRows ret db now) : 60 ∣ bucketTs x := by
  rcases (mem_closedRows.mp hx).2 with ⟨hOld, _⟩ | ⟨hRaw, _⟩
  · exact Int.natCast_dvd_natCast.mpr (db.samples1min.aligned x.1 ⟨x.2, hOld⟩)
  · exact Int.natCast_dvd_natCast.mpr (dvd_of_has_rawMinutes ⟨x.2, hRaw⟩)

/-- Below the raw floor a closed bucket is a bucket of `samples_1min`. -/
theorem bucketOf_closedRows_old {ret : Retention} {db : Db V} {now b : Int}
    (hFloor : b < rawFloor ret now) (hClosed : b + 60 ≤ now) :
    Paging.bucketOf bucketTs b (closedRows ret db now) = bucket1min db b := by
  apply eq_of_mem_iff ((closedRows_sorted ret db now).filter _) (Table.sorted _)
  intro x
  change x ∈ Paging.bucketOf bucketTs b _ ↔ x ∈ bucket1min db b
  rw [Paging.mem_bucketOf, mem_closedRows, mem_bucket1min]
  constructor
  · rintro ⟨⟨_, ⟨hx, _⟩ | ⟨_, hle⟩⟩, rfl⟩
    · exact ⟨hx, rfl⟩
    · omega
  · rintro ⟨hx, rfl⟩
    exact ⟨⟨hClosed, Or.inl ⟨hx, hFloor⟩⟩, rfl⟩

/-- From the raw floor on a closed bucket is what the wide query returns. -/
theorem bucketOf_closedRows_raw {ret : Retention} {db : Db V} {now b : Int} (hb : 60 ∣ b)
    (hFloor : rawFloor ret now ≤ b) (hClosed : b + 60 ≤ now) :
    Paging.bucketOf bucketTs b (closedRows ret db now) = wideBucket db b := by
  apply eq_of_mem_iff ((closedRows_sorted ret db now).filter _) (Table.sorted _)
  intro x
  change x ∈ Paging.bucketOf bucketTs b _ ↔ x ∈ wideBucket db b
  rw [Paging.mem_bucketOf, mem_closedRows, mem_wideBucket hb]
  constructor
  · rintro ⟨⟨_, ⟨_, hlt⟩ | ⟨hx, _⟩⟩, rfl⟩
    · omega
    · exact ⟨hx, rfl⟩
  · rintro ⟨hx, rfl⟩
    exact ⟨⟨hClosed, Or.inr ⟨hx, hFloor⟩⟩, rfl⟩

theorem wideBucketsFound_iff_kept (ret : Retention) (db : Db V) (now : Int) (limit : Nat)
    (afterTs : Int) :
    Paging.WideBucketsFound bucketTs limit (wideBucket db) (closedRows ret db now) afterTs ↔
      WideOldBucketsKept ret db now limit afterTs := by
  constructor
  · intro h b hAfter hFloor hClosed hLen
    have hPerm := h b hAfter
    rw [bucketOf_closedRows_old hFloor hClosed] at hPerm
    apply eq_of_mem_iff (Table.sorted _) (Table.sorted _)
    intro x
    exact (hPerm hLen).mem_iff
  · intro h b hAfter hLen
    obtain ⟨x, hx⟩ := List.exists_mem_of_length_pos (Nat.zero_lt_of_lt hLen)
    obtain ⟨hMem, rfl⟩ := Paging.mem_bucketOf.mp hx
    have hClosed := (mem_closedRows.mp hMem).1
    rcases Int.lt_or_le (bucketTs x) (rawFloor ret now) with hlt | hle
    · rw [bucketOf_closedRows_old hlt hClosed] at hLen ⊢
      rw [h _ hAfter hlt hClosed hLen]
    · rw [bucketOf_closedRows_raw (dvd_bucketTs hMem) hle hClosed]

/-- Draining is complete and lossless exactly when every wide bucket below the
raw floor is still in `samples` as `samples_1min` has it. -/
theorem drains_closed_rows_iff (ret : Retention) (db : Db V) (now : Int) (limit : Nat)
    (afterTs : Int) :
    DrainsClosedRows ret db now limit afterTs ↔ WideOldBucketsKept ret db now limit afterTs := by
  rw [← wideBucketsFound_iff_kept, DrainsClosedRows]
  apply Paging.drainsLosslessly_iff (closedRows_ordered ret db now)
  · intro wm
    exact closedRollupsAfter_eq_page (by decide) (by decide) ret db wm now limit
  · intro r hr x hx
    exact ((mem_wideBucket (dvd_bucketTs hr)).mp hx).2

/-! ### What one batch holds -/

/-- A batch lies after `after_ts`, in closed minutes. -/
theorem closed_of_mem_batch {ret : Retention} {db : Db V} {afterTs now : Int} {limit : Nat}
    {x : Key × RollupRow V} (hx : x ∈ closedRollupsAfter rollupWindowS ret db afterTs now limit) :
    afterTs < bucketTs x ∧ bucketTs x + 60 ≤ now := by
  rw [closedRollupsAfter_eq_page (by decide) (by decide)] at hx
  rcases Paging.mem_page hx with hMem | ⟨y, hy, hWide⟩
  · obtain ⟨hMem, hAfter⟩ := Paging.mem_after.mp hMem
    exact ⟨hAfter, (mem_closedRows.mp hMem).1⟩
  · obtain ⟨hMem, hAfter⟩ := Paging.mem_after.mp hy
    rw [((mem_wideBucket (dvd_bucketTs hMem)).mp hWide).2]
    exact ⟨hAfter, (mem_closedRows.mp hMem).1⟩

/-- A batch holds every closed row up to its last bucket, unless it answers for
a wide bucket below the raw floor, the first one after `after_ts`. -/
theorem mem_batch_or_wide {ret : Retention} {db : Db V} {afterTs now : Int} {limit : Nat}
    {last x : Key × RollupRow V}
    (hLast : (closedRollupsAfter rollupWindowS ret db afterTs now limit).getLast? = some last)
    (hx : x ∈ closedRows ret db now) (hAfter : afterTs < bucketTs x)
    (hle : bucketTs x ≤ bucketTs last) :
    x ∈ closedRollupsAfter rollupWindowS ret db afterTs now limit ∨
      (closedRollupsAfter rollupWindowS ret db afterTs now limit = wideBucket db (bucketTs x) ∧
        bucketTs x < rawFloor ret now ∧ limit < (bucket1min db (bucketTs x)).length ∧
        ∀ y ∈ closedRows ret db now, afterTs < bucketTs y → bucketTs x ≤ bucketTs y) := by
  rw [closedRollupsAfter_eq_page (by decide) (by decide)] at hLast ⊢
  have hOrd : Paging.Ordered bucketTs (Paging.after bucketTs afterTs (closedRows ret db now)) :=
    (closedRows_ordered ret db now).sublist List.filter_sublist
  have hMem : x ∈ Paging.after bucketTs afterTs (closedRows ret db now) :=
    Paging.mem_after.mpr ⟨hx, hAfter⟩
  obtain ⟨chunk, rest, top, hFront, hPage⟩ :=
    Paging.page_cases limit (wideBucket db) hOrd (List.ne_nil_of_mem hMem)
  rw [hFront.split, List.mem_append] at hMem
  rcases hPage with ⟨hFits, _⟩ | ⟨hAsked, hLen, hSame⟩
  · rw [hFits] at hLast ⊢
    rw [hFront.getLast, Option.some.injEq] at hLast
    subst hLast
    rcases hMem with hChunk | hRest
    · exact Or.inl hChunk
    · have := hFront.lt x hRest
      omega
  · have hTop := hFront.mem hFront.last_mem
    have hLastTs : bucketTs last = bucketTs top := by
      have hWide := List.mem_of_getLast? hLast
      rw [hAsked] at hWide
      exact ((mem_wideBucket (dvd_bucketTs hTop.1)).mp hWide).2
    rcases hMem with hChunk | hRest
    · have hxTop := hSame x hChunk
      have hClosed := (mem_closedRows.mp hx).1
      have hBucket : Paging.bucketOf bucketTs (bucketTs x) (closedRows ret db now) = chunk := by
        rw [hFront.bucketOf_eq hAfter (le_of_eq hxTop), Paging.bucketOf, hxTop,
          List.filter_eq_self.mpr (by simpa using hSame)]
      rw [hAsked, ← hxTop]
      rcases Int.lt_or_le (bucketTs x) (rawFloor ret now) with hlt | hge
      · rw [bucketOf_closedRows_old hlt hClosed] at hBucket
        refine Or.inr ⟨rfl, hlt, by rwa [hBucket], ?_⟩
        intro y hy hyAfter
        have hyMem : y ∈ chunk ++ rest := by
          rw [← hFront.split]
          exact Paging.mem_after.mpr ⟨hy, hyAfter⟩
        rcases List.mem_append.mp hyMem with hyChunk | hyRest
        · rw [hxTop, hSame y hyChunk]
        · have := hFront.lt y hyRest
          omega
      · rw [bucketOf_closedRows_raw (dvd_bucketTs hx) hge hClosed] at hBucket
        rw [hBucket]
        exact Or.inl hChunk
    · have := hFront.lt x hRest
      omega

/-! ### A wedged drain -/

/-- Two metrics of one minute, kept as minute rows only. -/
def purgedMinute : Db ℚ :=
  { Db.empty with
    samples1min := ⟨Table.empty.insertAll
      [(⟨0, "bank", "soc_pct"⟩, ⟨60, 60, 60, 1⟩), (⟨0, "bank", "voltage_v"⟩, ⟨13, 13, 13, 1⟩)], by
        rintro k hk
        obtain hk | ⟨r, hr⟩ := Table.has_insertAll.mp hk
        · obtain ⟨r, hr⟩ := hk
          cases hr
        · simp only [List.mem_cons, Prod.mk.injEq, List.not_mem_nil, or_false] at hr
          rcases hr with ⟨rfl, _⟩ | ⟨rfl, _⟩ <;> decide⟩ }

/-- Eight days later a limit of one row meets a bucket of two rows whose raw
samples are gone: the first batch is empty and the bucket is never shipped. -/
theorem purged_minute_wedges_drain :
    ¬ DrainsClosedRows .default purgedMinute (8 * 86400) 1 (-60) := by
  have hEmpty : closedRollupsAfter rollupWindowS .default purgedMinute (-60) (8 * 86400) 1 = [] := by
    decide +kernel
  rintro ⟨fuel, pages, hDrain, hLossless⟩
  have hPages : pages = [] := by
    cases fuel with
    | zero => cases hDrain
    | succ fuel =>
        simp only [Paging.drain, hEmpty, List.getLast?_nil, Option.some.injEq] at hDrain
        exact hDrain.symm
  have hOnce := hLossless.once.length_eq
  subst hPages
  exact absurd hOnce (by decide +kernel)

end WattPost.Storage
