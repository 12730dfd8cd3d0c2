import WattPost.Lib.Paging
import WattPost.Storage.Rollup

/-! `closed_rollups_after`: the minutes that the cloud sync ships. Minutes older
than the raw retention are read from `samples_1min`, later ones are aggregated
from `samples` in windows. A window starts and ends at a minute, so reading
window after window gives the rows of one query over the whole range. -/
namespace WattPost.Storage

open Keyed

section Query

variable {V : Type} [SqlReal V]

/-- `ROLLUP_WINDOW_S`. -/
def rollupWindowS : Int := 2 * 3600

/-- The last fully elapsed minute. -/
def newestClosed (now : Int) : Int := now / 60 * 60 - 60

/-- The first minute after the one that holds `after_ts`. -/
def startAfter (afterTs : Int) : Int := afterTs / 60 * 60 + 60

/-- The first minute that lies inside the raw retention as a whole. -/
def rawFloor (ret : Retention) (now : Int) : Int := (now - ret.raw) / 60 * 60 + 60

/-- `bucket_ts`, the first component of a returned row. -/
def bucketTs (r : Key × RollupRow V) : Int := r.1.ts

/-- `SELECT ... FROM samples_1min WHERE bucket_ts >= lo AND bucket_ts < hi`. -/
def select1min (db : Db V) (lo hi : Int) : Table Key (RollupRow V) :=
  db.samples1min.table.filterKeys (fun k => lo ≤ k.ts ∧ k.ts < hi)

/-- `SELECT (ts / 60) * 60 AS b, ... FROM samples WHERE ts >= lo AND ts < hi
GROUP BY b, device, metric`. -/
def selectRaw (db : Db V) (lo hi : Int) : Table Key (RollupRow V) :=
  groupBy (Key.bucket 60) aggregateSamples
    (db.samples.filterKeys (fun k => lo ≤ k.ts ∧ k.ts < hi)).rows

/-- The query that ships one bucket whole. -/
def wideBucket (db : Db V) (b : Int) : List (Key × RollupRow V) := (selectRaw db b (b + 60)).rows

/-- The loop over windows. Each iteration moves `w_start` on, so that
`w_end - w_start` of them are enough for a positive window. -/
def rawWindows (db : Db V) (window : Int) (limit : Nat) (wEnd : Int) :
    Nat → Int → List (Key × RollupRow V) → List (Key × RollupRow V)
  | 0, _, rows => rows
  | fuel + 1, wStart, rows =>
      if wStart < wEnd ∧ rows.length ≤ limit then
        let hi := min (wStart + window) wEnd
        rawWindows db window limit wEnd fuel hi
          (rows ++ (selectRaw db wStart hi).rows.take (limit + 1 - rows.length))
      else rows

/-- The rows from `samples_1min`. -/
def oldRows (ret : Retention) (db : Db V) (afterTs now : Int) (limit : Nat) :
    List (Key × RollupRow V) :=
  if startAfter afterTs < rawFloor ret now then
    (select1min db (startAfter afterTs)
      (min (rawFloor ret now) (newestClosed now + 60))).rows.take (limit + 1)
  else []

/-- `closed_rollups_after`, with the window width as a parameter. -/
def closedRollupsAfter (window : Int) (ret : Retention) (db : Db V) (afterTs now : Int)
    (limit : Nat) : List (Key × RollupRow V) :=
  if startAfter afterTs > newestClosed now then []
  else
    let rows := oldRows ret db afterTs now limit
    let wStart := max (startAfter afterTs) (rawFloor ret now)
    let wEnd := newestClosed now + 60
    let rows :=
      if rows.length ≤ limit ∧ newestClosed now ≥ rawFloor ret now then
        rawWindows db window limit wEnd (wEnd - wStart).toNat wStart rows
      else rows
    Paging.page bucketTs limit (wideBucket db) rows

/-! ### The closed rows -/

/-- The raw samples by minute. -/
def rawMinutes (db : Db V) : Table Key (RollupRow V) :=
  groupBy (Key.bucket 60) aggregateSamples db.samples.rows

/-- Every closed row: the `samples_1min` rows below the raw floor, followed by
the minutes of the raw samples at or above it. -/
def closedRows (ret : Retention) (db : Db V) (now : Int) : List (Key × RollupRow V) :=
  (db.samples1min.table.filterKeys (fun k => k.ts < rawFloor ret now ∧ k.ts + 60 ≤ now)).rows ++
    ((rawMinutes db).filterKeys (fun k => rawFloor ret now ≤ k.ts ∧ k.ts + 60 ≤ now)).rows

/-- `ORDER BY bucket_ts, device, metric`. -/
def orderByKey (rows : List (Key × RollupRow V)) : List (Key × RollupRow V) :=
  rows.mergeSort (fun x y => x.1 ≤ y.1)

/-- The plain query: all closed rows after `after_ts` in order, the first
`limit + 1` of them, and the same rule for the trailing bucket. -/
def closedRollupsPlain (ret : Retention) (db : Db V) (afterTs now : Int) (limit : Nat) :
    List (Key × RollupRow V) :=
  Paging.page bucketTs limit (wideBucket db)
    ((orderByKey (Paging.after bucketTs afterTs (closedRows ret db now))).take (limit + 1))

end Query

/-! ### Windows and minutes -/

theorem dvd_startAfter (afterTs : Int) : 60 ∣ startAfter afterTs :=
  Int.dvd_add (Int.dvd_mul_left _ _) (Int.dvd_refl _)

theorem dvd_rawFloor (ret : Retention) (now : Int) : 60 ∣ rawFloor ret now :=
  Int.dvd_add (Int.dvd_mul_left _ _) (Int.dvd_refl _)

theorem dvd_newestClosed (now : Int) : 60 ∣ newestClosed now :=
  Int.dvd_sub (Int.dvd_mul_left _ _) (Int.dvd_refl _)

/-- A minute starts after `after_ts` exactly when it starts at `start` or later. -/
theorem startAfter_le_iff {a : Int} {ts : Nat} (h : 60 ∣ ts) : startAfter a ≤ ts ↔ a < ts := by
  unfold startAfter
  omega

/-- A minute is over exactly when it starts at `newest_closed` or earlier. -/
theorem lt_newestClosed_iff {n : Int} {ts : Nat} (h : 60 ∣ ts) :
    ts < newestClosed n + 60 ↔ (ts : Int) + 60 ≤ n := by
  unfold newestClosed
  omega

section Spec

variable {V : Type} [SqlReal V] {db : Db V}

theorem dvd_of_has_rawMinutes {k : Key} (h : (rawMinutes db).Has k) : 60 ∣ k.ts := by
  obtain ⟨x, _, rfl⟩ := has_groupBy.mp h
  exact Nat.dvd_mul_left _ _

/-- A range that starts and ends at a minute has all samples of a minute or none. -/
theorem bucket_range_iff {lo hi : Int} (hlo : 60 ∣ lo) (hhi : 60 ∣ hi) (k : Key) :
    (lo ≤ (k.bucket 60).ts ∧ ((k.bucket 60).ts : Int) < hi) ↔ (lo ≤ k.ts ∧ (k.ts : Int) < hi) := by
  rw [Key.bucket_ts]
  omega

/-- Between two minutes the raw query gives the raw minutes. -/
theorem selectRaw_eq {lo hi : Int} (hlo : 60 ∣ lo) (hhi : 60 ∣ hi) :
    selectRaw db lo hi = (rawMinutes db).filterKeys (fun k => lo ≤ k.ts ∧ k.ts < hi) := by
  apply Table.ext_lookup
  intro k
  rw [selectRaw, rawMinutes, Table.lookup_filterKeys, lookup_groupBy, lookup_groupBy]
  have hGroup : group (Key.bucket 60) k
      (db.samples.filterKeys (fun k => lo ≤ k.ts ∧ k.ts < hi)).rows =
        if lo ≤ k.ts ∧ (k.ts : Int) < hi then group (Key.bucket 60) k db.samples.rows else [] := by
    rw [Table.filterKeys, group, List.filter_filter]
    split_ifs with hk
    · apply List.filter_congr
      rintro ⟨x, v⟩ _
      by_cases hx : x.bucket 60 = k
      · have hRange := (bucket_range_iff hlo hhi x).mp (hx ▸ hk)
        simp [hx, hRange]
      · simp [hx]
    · rw [List.filter_eq_nil_iff]
      rintro ⟨x, v⟩ _
      simp only [Bool.and_eq_true, decide_eq_true_eq]
      rintro ⟨rfl, hRange⟩
      exact hk ((bucket_range_iff hlo hhi x).mpr hRange)
  rw [hGroup]
  by_cases hk : lo ≤ k.ts ∧ (k.ts : Int) < hi
  · simp [hk]
  · simp [hk, foldGroup]

omit [SqlReal V] in
/-- The rows of a range of a table, cut at a point inside it. -/
theorem range_rows_append (t : Table Key (RollupRow V)) {lo mid hi : Int} (h₁ : lo ≤ mid)
    (h₂ : mid ≤ hi) :
    (t.filterKeys (fun k => lo ≤ k.ts ∧ k.ts < hi)).rows =
      (t.filterKeys (fun k => lo ≤ k.ts ∧ k.ts < mid)).rows ++
        (t.filterKeys (fun k => mid ≤ k.ts ∧ k.ts < hi)).rows := by
  apply Table.filterKeys_rows_append
  · intro k
    simp only [decide_eq_true_eq]
    omega
  · intro k k' hk hk'
    simp only [decide_eq_true_eq] at hk hk'
    exact Key.lt_of_ts_lt (by omega)

omit [SqlReal V] in
theorem range_rows_nil (t : Table Key (RollupRow V)) {lo hi : Int} (h : hi ≤ lo) :
    (t.filterKeys (fun k => lo ≤ k.ts ∧ k.ts < hi)).rows = [] := by
  rw [List.eq_nil_iff_forall_not_mem]
  intro x hx
  have hRange := (Table.mem_filterKeys.mp hx).2
  simp only [decide_eq_true_eq] at hRange
  omega

theorem take_take_append {α : Type} (n : Nat) (xs ys : List α) :
    (xs.take n ++ ys).take n = (xs ++ ys).take n := by
  rw [List.take_append, List.take_append, List.take_take, Nat.min_self, List.length_take]
  congr 2
  omega

/-- Enough windows give the first rows of the whole range. -/
theorem rawWindows_eq {window : Int} (hPos : 0 < window) (hDvd : 60 ∣ window) (limit : Nat)
    {wEnd : Int} (hEnd : 60 ∣ wEnd) {fuel : Nat} {wStart : Int} (hStart : 60 ∣ wStart)
    (hFuel : wEnd - wStart ≤ fuel) {rows : List (Key × RollupRow V)}
    (hRows : rows.length ≤ limit + 1) :
    rawWindows db window limit wEnd fuel wStart rows =
      (rows ++ ((rawMinutes db).filterKeys
        (fun k => wStart ≤ k.ts ∧ k.ts < wEnd)).rows).take (limit + 1) := by
  induction fuel generalizing wStart rows with
  | zero =>
      rw [range_rows_nil _ (by omega), List.append_nil, List.take_of_length_le hRows]
      rfl
  | succ fuel ih =>
      rw [rawWindows]
      split_ifs with hGo
      · have hHi : 60 ∣ min (wStart + window) wEnd := by omega
        have hTake : rows ++ ((rawMinutes db).filterKeys (fun k => wStart ≤ k.ts ∧
            k.ts < min (wStart + window) wEnd)).rows.take (limit + 1 - rows.length) =
              (rows ++ ((rawMinutes db).filterKeys (fun k => wStart ≤ k.ts ∧
                k.ts < min (wStart + window) wEnd)).rows).take (limit + 1) := by
          rw [List.take_append, List.take_of_length_le hRows]
        simp only [selectRaw_eq hStart hHi, hTake]
        rw [ih hHi (by omega) (List.length_take_le _ _), take_take_append, List.append_assoc,
          ← range_rows_append _ (by omega) (by omega)]
      · rcases Int.lt_or_le wStart wEnd with hlt | hle
        · have hFull : limit + 1 ≤ rows.length := by omega
          rw [List.take_append_of_le_length hFull, List.take_of_length_le hRows]
        · rw [range_rows_nil _ hle, List.append_nil, List.take_of_length_le hRows]

/-- The closed rows after `after_ts`, by the ranges that the queries ask for. -/
theorem after_closedRows (ret : Retention) (db : Db V) (afterTs now : Int) :
    Paging.after bucketTs afterTs (closedRows ret db now) =
      (select1min db (startAfter afterTs) (min (rawFloor ret now) (newestClosed now + 60))).rows ++
        ((rawMinutes db).filterKeys (fun k => max (startAfter afterTs) (rawFloor ret now) ≤ k.ts ∧
          k.ts < newestClosed now + 60)).rows := by
  rw [Paging.after, closedRows, List.filter_append]
  congr 1
  · simp only [select1min, Table.filterKeys, List.filter_filter]
    apply List.filter_congr
    intro x hx
    have hAligned := db.samples1min.aligned x.1 ⟨x.2, hx⟩
    have hStart := startAfter_le_iff (a := afterTs) hAligned
    have hEnd := lt_newestClosed_iff (n := now) hAligned
    rw [Bool.eq_iff_iff]
    simp only [Bool.and_eq_true, decide_eq_true_eq]
    rw [bucketTs]
    omega
  · simp only [Table.filterKeys, List.filter_filter]
    apply List.filter_congr
    intro x hx
    have hAligned := dvd_of_has_rawMinutes ⟨x.2, hx⟩
    have hStart := startAfter_le_iff (a := afterTs) hAligned
    have hEnd := lt_newestClosed_iff (n := now) hAligned
    rw [Bool.eq_iff_iff]
    simp only [Bool.and_eq_true, decide_eq_true_eq]
    rw [bucketTs]
    omega

/-- Closed rows come in key order. -/
theorem closedRows_sorted (ret : Retention) (db : Db V) (now : Int) :
    (closedRows ret db now).Pairwise KeyLt := by
  refine List.pairwise_append.mpr ⟨Table.sorted _, Table.sorted _, ?_⟩
  intro x hx y hy
  have hx' := (Table.mem_filterKeys.mp hx).2
  have hy' := (Table.mem_filterKeys.mp hy).2
  simp only [decide_eq_true_eq] at hx' hy'
  exact Key.lt_of_ts_lt (by omega)

theorem closedRows_ordered (ret : Retention) (db : Db V) (now : Int) :
    Paging.Ordered bucketTs (closedRows ret db now) := by
  refine (closedRows_sorted ret db now).imp ?_
  intro x y hxy
  exact Int.ofNat_le.mpr (Key.ts_le_of_lt hxy)

omit [SqlReal V] in
theorem orderByKey_eq {rows : List (Key × RollupRow V)} (h : rows.Pairwise KeyLt) :
    orderByKey rows = rows := by
  apply List.mergeSort_of_pairwise
  refine h.imp ?_
  intro x y hxy
  simpa using le_of_lt hxy

/-- Windows or not, the result is one page of the closed rows after `after_ts`. -/
theorem closedRollupsAfter_eq_page {window : Int} (hPos : 0 < window) (hDvd : 60 ∣ window)
    (ret : Retention) (db : Db V) (afterTs now : Int) (limit : Nat) :
    closedRollupsAfter window ret db afterTs now limit =
      Paging.page bucketTs limit (wideBucket db)
        (Paging.after bucketTs afterTs (closedRows ret db now)) := by
  have hStart := dvd_startAfter afterTs
  have hFloor := dvd_rawFloor ret now
  have hNewest := dvd_newestClosed now
  rw [after_closedRows, closedRollupsAfter]
  split_ifs with hEmpty
  · rw [select1min, range_rows_nil _ (by omega), range_rows_nil _ (by omega)]
    rfl
  · conv_rhs => rw [← Paging.page_take]
    have hOld : oldRows ret db afterTs now limit =
        (select1min db (startAfter afterTs)
          (min (rawFloor ret now) (newestClosed now + 60))).rows.take (limit + 1) := by
      rw [oldRows]
      split_ifs with hlt
      · rfl
      · rw [select1min, range_rows_nil _ (by omega), List.take_nil]
    simp only [hOld]
    split_ifs with hRaw
    · rw [rawWindows_eq hPos hDvd limit (by omega) (by omega) (by omega)
        (List.length_take_le _ _), take_take_append]
    · by_cases hFull : newestClosed now ≥ rawFloor ret now
      · have hLen : limit + 1 ≤ (select1min db (startAfter afterTs)
            (min (rawFloor ret now) (newestClosed now + 60))).rows.length := by
          have := not_and_or.mp hRaw
          rw [List.length_take] at this
          omega
        rw [List.take_append_of_le_length hLen]
      · rw [range_rows_nil (rawMinutes db) (by omega), List.append_nil]

/-- The windowed query is the plain one, whatever the contents of the two
tables and the width of the windows. -/
theorem closedRollupsAfter_eq_plain (window : Int) (hPos : 0 < window) (hDvd : 60 ∣ window)
    (ret : Retention) (db : Db V) (afterTs now : Int) (limit : Nat) :
    closedRollupsAfter window ret db afterTs now limit =
      closedRollupsPlain ret db afterTs now limit := by
  have hSorted : (Paging.after bucketTs afterTs (closedRows ret db now)).Pairwise KeyLt :=
    (closedRows_sorted ret db now).filter _
  rw [closedRollupsAfter_eq_page hPos hDvd, closedRollupsPlain, orderByKey_eq hSorted,
    Paging.page_take]

end Spec

/-- One device with a reading in minute 0 and, three hours later, in minute 180. -/
def sparseReadings : Db ℚ :=
  { Db.empty with
    samples := Table.empty.insertAll [(⟨0, "bank", "soc_pct"⟩, 60), (⟨10800, "bank", "soc_pct"⟩, 50)] }

/-- Windows of one hour, some of them empty. -/
theorem closedRollupsAfter_eq_plain_sparse :
    closedRollupsAfter 3600 .default sparseReadings (-60) 14400 1 =
      closedRollupsPlain .default sparseReadings (-60) 14400 1 ∧
    closedRollupsAfter 3600 .default sparseReadings (-60) 14400 1 =
      [(⟨0, "bank", "soc_pct"⟩, ⟨60, 60, 60, 1⟩)] :=
  ⟨closedRollupsAfter_eq_plain 3600 (by decide) (by decide) _ _ _ _ _, by decide +kernel⟩

end WattPost.Storage
