import WattPost.Storage.Schema

/-! Reading a metric's history: `_pick_history_table` and `get_history`, with exact
rationals for the values. -/
namespace WattPost.Storage

open Keyed

/-- The tables of the history, from the raw samples to the daily rollup. -/
inductive HistoryTable where
  | samples
  | samples1min
  | samples1hour
  | samples1day
deriving DecidableEq

/-- `_pick_history_table`: the table for a range, and the width of its rows. -/
def pickHistoryTable (rangeSeconds : Int) : HistoryTable × Nat :=
  if rangeSeconds ≤ 6 * 3600 then (.samples, 1)
  else if rangeSeconds ≤ 7 * 86400 then (.samples1min, 60)
  else if rangeSeconds ≤ 90 * 86400 then (.samples1hour, 3600)
  else (.samples1day, 86400)

/-- The values of a table: a sample's own, or the average of a rollup row. -/
def HistoryTable.rows (db : Db ℚ) : HistoryTable → List (Key × ℚ)
  | .samples => db.samples.rows
  | .samples1min => db.samples1min.table.rows.map fun r => (r.1, r.2.avg)
  | .samples1hour => db.samples1hour.table.rows.map fun r => (r.1, r.2.avg)
  | .samples1day => db.samples1day.table.rows.map fun r => (r.1, r.2.avg)

/-- The `WHERE` clause. -/
def inWindow (device metric : String) (sinceTs untilTs : Int) (k : Key) : Bool :=
  k.device = device && k.metric = metric && sinceTs ≤ k.ts && k.ts ≤ untilTs

/-- The `ts` and `values` of `get_history`. -/
def getHistory (db : Db ℚ) (device metric : String) (sinceTs untilTs : Int) (bucketSeconds : Nat) :
    List (Nat × ℚ) :=
  let table := pickHistoryTable (untilTs - sinceTs)
  let rows := (table.1.rows db).filter fun r => inWindow device metric sinceTs untilTs r.1
  let rows :=
    if table.2 < bucketSeconds then
      (groupBy (Key.bucket bucketSeconds) (fun v vs => SqlReal.avg (v :: vs)) rows).rows
    else rows
  rows.map fun r => (r.1.ts, r.2)

theorem HistoryTable.rows_sorted (db : Db ℚ) (table : HistoryTable) :
    (table.rows db).Pairwise KeyLt := by
  cases table with
  | samples => exact db.samples.sorted
  | samples1min => exact List.pairwise_map.mpr db.samples1min.table.sorted
  | samples1hour => exact List.pairwise_map.mpr db.samples1hour.table.sorted
  | samples1day => exact List.pairwise_map.mpr db.samples1day.table.sorted

/-- Rows of one metric of one device are in the order of their times. -/
theorem ts_sorted {rows : List (Key × ℚ)} (hSorted : rows.Pairwise KeyLt) {device metric : String}
    (hSame : ∀ r ∈ rows, r.1.device = device ∧ r.1.metric = metric) :
    (rows.map fun r => (r.1.ts, r.2)).Pairwise fun a b => a.1 < b.1 := by
  refine List.pairwise_map.mpr (hSorted.imp_of_mem fun {a b} ha hb hLt => ?_)
  refine lt_of_le_of_ne (Key.ts_le_of_lt hLt) fun hTs => ?_
  have hKey : a.1 = b.1 := by
    obtain ⟨hDevice, hMetric⟩ := hSame a ha
    obtain ⟨hDevice', hMetric'⟩ := hSame b hb
    cases hA : a.1
    cases hB : b.1
    simp_all
  exact lt_irrefl b.1 (lt_of_eq_of_lt hKey.symm hLt)

/-- No time has two values. -/
theorem getHistory_sorted (db : Db ℚ) (device metric : String) (sinceTs untilTs : Int)
    (bucketSeconds : Nat) :
    (getHistory db device metric sinceTs untilTs bucketSeconds).Pairwise fun a b => a.1 < b.1 := by
  have hFiltered : ∀ r ∈ ((pickHistoryTable (untilTs - sinceTs)).1.rows db).filter
      fun r => inWindow device metric sinceTs untilTs r.1,
      r.1.device = device ∧ r.1.metric = metric := by
    intro r hr
    have hWindow := (List.mem_filter.mp hr).2
    simp only [inWindow, Bool.and_eq_true, decide_eq_true_eq] at hWindow
    exact hWindow.1.1
  unfold getHistory
  dsimp only
  split_ifs with hBucket
  · have hGrouped : ∀ r ∈ (groupBy (Key.bucket bucketSeconds) (fun v vs => SqlReal.avg (v :: vs))
        (((pickHistoryTable (untilTs - sinceTs)).1.rows db).filter
          fun r => inWindow device metric sinceTs untilTs r.1)).rows,
        r.1.device = device ∧ r.1.metric = metric := by
      intro r hr
      obtain ⟨x, hx, hKey⟩ := has_groupBy.mp ⟨r.2, hr⟩
      rw [← hKey]
      exact hFiltered x hx
    exact ts_sorted (Table.sorted _) hGrouped
  · exact ts_sorted ((HistoryTable.rows_sorted db _).filter _) hFiltered

/-- A row is in its window, or starts with the bucket that the window starts in. -/
theorem getHistory_window {db : Db ℚ} {device metric : String} {sinceTs untilTs : Int}
    {bucketSeconds : Nat} {p : Nat × ℚ}
    (hp : p ∈ getHistory db device metric sinceTs untilTs bucketSeconds) :
    sinceTs - sinceTs % bucketSeconds ≤ p.1 ∧ (p.1 : Int) ≤ untilTs := by
  have hWindow : ∀ r ∈ ((pickHistoryTable (untilTs - sinceTs)).1.rows db).filter
      fun r => inWindow device metric sinceTs untilTs r.1,
      sinceTs ≤ r.1.ts ∧ (r.1.ts : Int) ≤ untilTs := by
    intro r hr
    have hRow := (List.mem_filter.mp hr).2
    simp only [inWindow, Bool.and_eq_true, decide_eq_true_eq] at hRow
    exact ⟨hRow.1.2, hRow.2⟩
  unfold getHistory at hp
  dsimp only at hp
  obtain ⟨r, hr, rfl⟩ := List.mem_map.mp hp
  split_ifs at hr with hBucket
  · obtain ⟨x, hx, hKey⟩ := has_groupBy.mp ⟨r.2, hr⟩
    obtain ⟨hSince, hUntil⟩ := hWindow x hx
    have hPos : (0 : Int) < bucketSeconds := by omega
    have hTs : (r.1.ts : Int) = x.1.ts / bucketSeconds * bucketSeconds := by
      rw [← hKey]
      simp [Key.bucket]
    have hFirst : sinceTs / bucketSeconds * bucketSeconds ≤ r.1.ts := by
      rw [hTs]
      exact Int.mul_le_mul_of_nonneg_right (Int.ediv_le_ediv hPos hSince) hPos.le
    have hSplit := Int.ediv_mul_add_emod sinceTs bucketSeconds
    exact ⟨by omega, by rw [hTs]; exact le_trans (Int.ediv_mul_le _ hPos.ne') hUntil⟩
  · obtain ⟨hSince, hUntil⟩ := hWindow r hr
    refine ⟨?_, hUntil⟩
    rcases Nat.eq_zero_or_pos bucketSeconds with hZero | hPos
    · simp [hZero]
    · have hPart := Int.emod_nonneg sinceTs (by omega : (bucketSeconds : Int) ≠ 0)
      omega

end WattPost.Storage
