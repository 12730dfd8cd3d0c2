import WattPost.Lib.PyDict
import WattPost.Storage.History
import WattPost.Storage.RollupMean

/-! The history of a metric as its reader sees it, with the bands and the summary, and
when it is that of the raw samples whichever table it is read from. -/
namespace WattPost.Storage

open Keyed

section Query

/-- The columns of a table that the query reads. A raw sample stands for all three. -/
def HistoryTable.bands (db : Db ℚ) : HistoryTable → List (Key × RollupRow ℚ)
  | .samples => db.samples.rows.map fun r => (r.1, .ofSample r.2)
  | .samples1min => db.samples1min.table.rows
  | .samples1hour => db.samples1hour.table.rows
  | .samples1day => db.samples1day.table.rows

/-- The rows of the query, with `n`, which it does not select, carried along. -/
def historyRows (db : Db ℚ) (device metric : String) (sinceTs untilTs : Int)
    (bucketSeconds : Nat) : List (Key × RollupRow ℚ) :=
  let table := pickHistoryTable (untilTs - sinceTs)
  let rows := (table.1.bands db).filter fun r => inWindow device metric sinceTs untilTs r.1
  if table.2 < bucketSeconds then (groupBy (Key.bucket bucketSeconds) aggregateRows rows).rows
  else rows

/-- `stats`. -/
structure HistoryStats where
  count : Nat
  now : Option ℚ
  min : Option ℚ
  max : Option ℚ
  avg : Option ℚ
  range : Option ℚ
deriving DecidableEq

/-- What `get_history` returns. -/
structure HistoryAnswer where
  ts : List Nat
  values : List ℚ
  min : Option (List ℚ)
  max : Option (List ℚ)
  stats : HistoryStats
  table : HistoryTable
deriving DecidableEq

def historyStats (values mins maxs : List ℚ) : HistoryStats :=
  match values.getLast?, mins.min?, maxs.max? with
  | some now, some lo, some hi =>
      { count := values.length
        now := some (PyDict.round now 4)
        min := some (PyDict.round lo 4)
        max := some (PyDict.round hi 4)
        avg := some (PyDict.round (values.sum / values.length) 4)
        range := some (PyDict.round (PyDict.round hi 4 - PyDict.round lo 4) 4) }
  | _, _, _ => ⟨values.length, none, none, none, none, none⟩

/-- `get_history`. -/
def getHistoryAnswer (db : Db ℚ) (device metric : String) (sinceTs untilTs : Int)
    (bucketSeconds : Nat) : HistoryAnswer :=
  let table := pickHistoryTable (untilTs - sinceTs)
  let rows := historyRows db device metric sinceTs untilTs bucketSeconds
  let values := rows.map fun r => r.2.avg
  let mins := rows.map fun r => r.2.min
  let maxs := rows.map fun r => r.2.max
  let banded := decide (table.1 ≠ .samples) || decide (table.2 < bucketSeconds)
  { ts := rows.map fun r => r.1.ts
    values := values
    min := if banded then some mins else none
    max := if banded then some maxs else none
    stats := historyStats values mins maxs
    table := table.1 }

theorem HistoryTable.rows_eq_bands (db : Db ℚ) (table : HistoryTable) :
    table.rows db = (table.bands db).map fun r => (r.1, r.2.avg) := by
  cases table with
  | samples => simp [HistoryTable.rows, bands, RollupRow.ofSample, Function.comp_def]
  | samples1min => rfl
  | samples1hour => rfl
  | samples1day => rfl

/-- The times and values alone. -/
theorem getHistory_eq (db : Db ℚ) (device metric : String) (sinceTs untilTs : Int)
    (bucketSeconds : Nat) :
    getHistory db device metric sinceTs untilTs bucketSeconds =
      (historyRows db device metric sinceTs untilTs bucketSeconds).map
        fun r => (r.1.ts, r.2.avg) := by
  have hWindow : ((pickHistoryTable (untilTs - sinceTs)).1.rows db).filter
      (fun r => inWindow device metric sinceTs untilTs r.1) =
      (((pickHistoryTable (untilTs - sinceTs)).1.bands db).filter
        fun r => inWindow device metric sinceTs untilTs r.1).map fun r => (r.1, r.2.avg) := by
    rw [HistoryTable.rows_eq_bands, List.filter_map]
    rfl
  simp only [getHistory, historyRows, hWindow]
  split_ifs
  · rw [groupBy_map]
    have hRows := groupBy_rows_map (Key.bucket bucketSeconds) aggregateRows RollupRow.avg
      (((pickHistoryTable (untilTs - sinceTs)).1.bands db).filter
        fun r => inWindow device metric sinceTs untilTs r.1)
    simp only [aggregateRows, List.map_cons] at hRows
    rw [hRows, List.map_map]
    rfl
  · rw [List.map_map]
    rfl

end Query

/-! ### What a tower of levels makes of the mean -/

section Drift

/-- The covariance of counts and means over the total count: by how much the weighted
mean exceeds the mean of the means. -/
def skew (ps : List (ℚ × ℚ)) : ℚ :=
  (ps.map (fun p => (p.1 - (ps.map Prod.fst).sum / ps.length) *
    (p.2 - (ps.map Prod.snd).sum / ps.length))).sum / (ps.map Prod.fst).sum

theorem mean_sub_skew {ps : List (ℚ × ℚ)} (hps : ps ≠ []) (hn : (ps.map Prod.fst).sum ≠ 0) :
    (ps.map (fun p => p.1 * p.2)).sum / (ps.map Prod.fst).sum - skew ps =
      (ps.map Prod.snd).sum / ps.length := by
  rw [skew, sum_centred_div hps hn]
  ring

/-- The buckets that have samples. -/
def bucketKeys (w : Nat) (xs : List (Key × ℚ)) : List Key :=
  (groupBy (Key.bucket w) countMean xs).rows.map Prod.fst

/-- By how much the mean of the samples exceeds what is left of it after the levels:
the skew of the topmost one, and the mean of what the levels below do to its buckets. -/
def drift : List Nat → List (Key × ℚ) → ℚ
  | [], _ => 0
  | w :: ws, xs =>
      skew (bucketStats w xs) +
        ((bucketKeys w xs).map fun k => drift ws (group (Key.bucket w) k xs)).sum /
          (bucketKeys w xs).length

/-- The mean of the values of some samples. -/
def meanOf (xs : List (Key × ℚ)) : ℚ := (xs.map Prod.snd).sum / xs.length

theorem mem_bucketKeys {w : Nat} {xs : List (Key × ℚ)} {k : Key} :
    k ∈ bucketKeys w xs ↔ ∃ x ∈ xs, x.1.bucket w = k := by
  have hHas : (groupBy (Key.bucket w) countMean xs).Has k ↔ ∃ x ∈ xs, x.1.bucket w = k :=
    has_groupBy
  rw [← hHas]
  simp [bucketKeys, Table.Has]

theorem keys_cascade {ws : List Nat} {w : Nat} (hWidths : ∀ u ∈ ws, u ∣ w)
    (xs : List (Key × ℚ)) : (cascade (w :: ws) xs).map Prod.fst = bucketKeys w xs := by
  have hSorted : ∀ {R : Type} (t : Table Key R), (t.rows.map Prod.fst).Pairwise (· < ·) :=
    fun t => List.pairwise_map.mpr t.sorted
  apply (hSorted _).eq_of_mem_iff (hSorted _)
  intro k
  change _ ↔ k ∈ bucketKeys w xs
  rw [mem_bucketKeys]
  constructor
  · intro hk
    obtain ⟨p, hp, rfl⟩ := List.mem_map.mp hk
    obtain ⟨x, hx⟩ := List.exists_mem_of_ne_nil _
      (ne_nil_of_foldGroup_cascade ((mem_cascade hWidths).mp hp))
    exact ⟨x, mem_group.mp hx⟩
  · rintro ⟨x, hx, rfl⟩
    obtain ⟨p, hp, hpx⟩ := exists_cascade_row hWidths hx
    exact List.mem_map.mpr ⟨p, hp, hpx⟩

theorem bucketStats_keys (w : Nat) (xs : List (Key × ℚ)) :
    bucketStats w xs = (bucketKeys w xs).map fun k =>
      (((group (Key.bucket w) k xs).length : ℚ), meanOf (group (Key.bucket w) k xs)) := by
  rw [bucketStats, bucketKeys, List.map_map]
  apply List.map_congr_left
  rintro ⟨k, q⟩ hq
  rw [← Table.lookup_eq_some_iff, lookup_groupBy] at hq
  cases hGroup : group (Key.bucket w) k xs with
  | nil => rw [hGroup] at hq; cases hq
  | cons x rest =>
      rw [hGroup, foldGroup, Option.some.injEq] at hq
      simp [← hq, hGroup, countMean, meanOf]

theorem avg_foldGroup {rows : List (Key × RollupRow ℚ)} {r : RollupRow ℚ}
    (hr : foldGroup aggregateRows rows = some r) :
    r.avg = (rows.map fun p => p.2.avg).sum / rows.length := by
  cases rows with
  | nil => cases hr
  | cons p ps =>
      obtain rfl := Option.some.inj hr
      simp [aggregateRows, SqlReal.avg, Function.comp_def]

/-- The average that the levels leave is the mean less the drift. -/
theorem mean_cascade {ws : List Nat} (hNested : NestedWidths ws) {xs : List (Key × ℚ)}
    (hSome : xs ≠ []) : ((cascade ws xs).map fun p => p.2.avg).sum / (cascade ws xs).length =
      meanOf xs - drift ws xs := by
  induction ws generalizing xs with
  | nil => simp [cascade, RollupRow.ofSample, drift, meanOf, Function.comp_def]
  | cons w ws ih =>
      obtain ⟨hWidths, hRest⟩ := hNested
      have hRows : (cascade (w :: ws) xs).map (fun p => p.2.avg) = (bucketKeys w xs).map fun k =>
          meanOf (group (Key.bucket w) k xs) - drift ws (group (Key.bucket w) k xs) := by
        rw [← keys_cascade hWidths, List.map_map]
        apply List.map_congr_left
        intro p hp
        have hRow := (mem_cascade hWidths).mp hp
        rw [avg_foldGroup hRow]
        exact ih hRest (ne_nil_of_foldGroup_cascade hRow)
      have hLength : (cascade (w :: ws) xs).length = (bucketKeys w xs).length := by
        rw [← keys_cascade hWidths, List.length_map]
      have hStats : bucketStats w xs ≠ [] := by
        rw [bucketStats_keys, Ne, List.map_eq_nil_iff]
        obtain ⟨x, hx⟩ := List.exists_mem_of_ne_nil _ hSome
        exact List.ne_nil_of_mem (mem_bucketKeys.mpr ⟨x, hx, rfl⟩)
      have hCount : (xs.length : ℚ) ≠ 0 := by simpa using hSome
      have hSkew := mean_sub_skew hStats (by rw [sum_counts_bucketStats]; exact hCount)
      have hMeans : ((bucketStats w xs).map Prod.snd).sum / (bucketStats w xs).length =
          ((bucketKeys w xs).map fun k => meanOf (group (Key.bucket w) k xs)).sum /
            (bucketKeys w xs).length := by
        rw [bucketStats_keys, List.map_map, List.length_map]
        rfl
      have hSplit : ((bucketKeys w xs).map fun k =>
            meanOf (group (Key.bucket w) k xs) - drift ws (group (Key.bucket w) k xs)).sum +
          ((bucketKeys w xs).map fun k => drift ws (group (Key.bucket w) k xs)).sum =
            ((bucketKeys w xs).map fun k => meanOf (group (Key.bucket w) k xs)).sum := by
        rw [← List.sum_map_add]
        simp only [sub_add_cancel]
      rw [sum_counts_bucketStats, sum_bucketStats, hMeans, ← hSplit, add_div] at hSkew
      rw [hRows, hLength, drift, meanOf]
      linear_combination -hSkew

theorem cascade_avg {ws : List Nat} (hNested : NestedWidths ws) {xs : List (Key × ℚ)}
    {r : RollupRow ℚ} (hr : foldGroup aggregateRows (cascade ws xs) = some r) :
    r.avg = meanOf xs - drift ws xs := by
  rw [avg_foldGroup hr]
  exact mean_cascade hNested (ne_nil_of_foldGroup_cascade hr)

end Drift

/-! ### The tables after a pass -/

section Pass

/-- The widths of the levels below a table, its own first. -/
def HistoryTable.widths : HistoryTable → List Nat
  | .samples => []
  | .samples1min => [60]
  | .samples1hour => [3600, 60]
  | .samples1day => [86400, 3600, 60]

theorem HistoryTable.nested_widths (table : HistoryTable) : NestedWidths table.widths := by
  cases table <;> simp [HistoryTable.widths, NestedWidths]

theorem since_eq_self {R : Type} {t : Table Key R} {c : Int} (h : ∀ k, t.Has k → c ≤ k.ts) :
    since t c = t := by
  apply Table.ext_lookup
  intro k
  rw [since, Table.lookup_filterKeys]
  split_ifs with hk
  · rfl
  · cases hRow : t.lookup k with
    | none => rfl
    | some r => exact absurd (decide_eq_true (h k (Table.has_iff_lookup.mpr ⟨r, hRow⟩))) hk

theorem table_rollInto_empty {R : Type} {w : Nat} {agg : R → List R → RollupRow ℚ}
    {src : Table Key R} {c : Int} (h : ∀ k, src.Has k → c ≤ k.ts) :
    (rollInto w agg src c .empty).table = groupBy (Key.bucket w) agg src.rows := by
  apply Table.ext_lookup
  intro k
  rw [lookup_rollInto, lookup_groupBy, rollGroup, since_eq_self h]
  exact Option.or_none

variable {ret : Retention} {now : Int} {db : Db ℚ} (h1min : db.samples1min = .empty)
  (h1hour : db.samples1hour = .empty) (h1day : db.samples1day = .empty)
  (hInside : ∀ k, db.samples.Has k → SeenByDay ret now k)

include h1min hInside

theorem rows_rolled1min : (rolled1min ret now db).table.rows = cascade [60] db.samples.rows := by
  rw [rolled1min, h1min, table_rollInto_empty fun k hk => (hInside k hk).1.1,
    groupBy_aggregateSamples]

theorem cutoff_rolled1min {k : Key} (hk : (rolled1min ret now db).table.Has k) :
    now - ret.oneMin ≤ k.ts := by
  rw [rolled1min, h1min, table_rollInto_empty fun k hk => (hInside k hk).1.1] at hk
  obtain ⟨x, hx, rfl⟩ := has_groupBy.mp hk
  exact (hInside x.1 ⟨x.2, hx⟩).1.2

include h1hour

theorem table_rolled1hour : (rolled1hour ret now db).table =
    groupBy (Key.bucket 3600) aggregateRows (cascade [60] db.samples.rows) := by
  rw [rolled1hour, h1hour, table_rollInto_empty fun k hk => cutoff_rolled1min h1min hInside hk,
    rows_rolled1min h1min hInside]

theorem cutoff_rolled1hour {k : Key} (hk : (rolled1hour ret now db).table.Has k) :
    now - ret.oneHour ≤ k.ts := by
  rw [table_rolled1hour h1min h1hour hInside] at hk
  obtain ⟨r, hr⟩ := Table.has_iff_lookup.mp hk
  rw [lookup_cascade (by simp)] at hr
  obtain ⟨x, hx⟩ := List.exists_mem_of_ne_nil _ (ne_nil_of_foldGroup_cascade hr)
  obtain ⟨hMem, rfl⟩ := mem_group.mp hx
  exact (hInside x.1 ⟨x.2, hMem⟩).2

include h1day

/-- Each table is the tower of its levels over the raw samples. -/
theorem bands_rollupAndPurge (table : HistoryTable) :
    table.bands (rollupAndPurge ret now db) = cascade table.widths db.samples.rows := by
  cases table with
  | samples =>
      rw [HistoryTable.bands, rollupAndPurge_samples, since_eq_self fun k hk => (hInside k hk).1.1]
      rfl
  | samples1min =>
      have hKeep : ((rolled1min ret now db).deleteBefore (now - ret.oneMin)).table =
          (rolled1min ret now db).table :=
        since_eq_self fun k hk => cutoff_rolled1min h1min hInside hk
      rw [HistoryTable.bands, rollupAndPurge_samples1min, hKeep, rows_rolled1min h1min hInside]
      rfl
  | samples1hour =>
      have hKeep : ((rolled1hour ret now db).deleteBefore (now - ret.oneHour)).table =
          (rolled1hour ret now db).table :=
        since_eq_self fun k hk => cutoff_rolled1hour h1min h1hour hInside hk
      rw [HistoryTable.bands, rollupAndPurge_samples1hour, hKeep,
        table_rolled1hour h1min h1hour hInside]
      rfl
  | samples1day =>
      rw [HistoryTable.bands, rollupAndPurge_samples1day, rolled1day, h1day,
        table_rollInto_empty fun k hk => cutoff_rolled1hour h1min h1hour hInside hk,
        table_rolled1hour h1min h1hour hInside]
      rfl

end Pass

/-! ### The history read from a rollup table -/

section History

theorem filter_cascade_cons {ws : List Nat} {w : Nat} (hWidths : ∀ u ∈ ws, u ∣ w)
    (p : Key → Bool) (xs : List (Key × ℚ)) :
    (cascade (w :: ws) xs).filter (fun r => p r.1) =
      cascade (w :: ws) (xs.filter fun x => p (x.1.bucket w)) := by
  rw [cascade, filter_groupBy, filter_cascade hWidths, cascade]

/-- A bucket of one row is that row. -/
theorem groupBy_aggregateRows_self {w : Nat} {t : Table Key (RollupRow ℚ)}
    (h : ∀ k, t.Has k → k.bucket w = k) : groupBy (Key.bucket w) aggregateRows t.rows = t := by
  apply Table.ext_lookup
  intro k
  rw [lookup_groupBy]
  cases hRow : t.lookup k with
  | none =>
      rw [foldGroup_eq_none, List.eq_nil_iff_forall_not_mem]
      intro x hx
      obtain ⟨hMem, hKey⟩ := mem_group.mp hx
      rw [h x.1 ⟨x.2, hMem⟩] at hKey
      subst hKey
      exact Table.lookup_eq_none_iff.mp hRow ⟨x.2, hMem⟩
  | some r =>
      have hMem := Table.lookup_eq_some_iff.mp hRow
      have hGroup : group (Key.bucket w) k t.rows = [(k, r)] := by
        apply eq_of_mem_iff (t.sorted.filter _) (List.pairwise_singleton _ _)
        rintro ⟨k', r'⟩
        rw [List.mem_singleton]
        change (k', r') ∈ group (Key.bucket w) k t.rows ↔ _
        rw [mem_group]
        constructor
        · rintro ⟨hMem', hKey⟩
          rw [h k' ⟨r', hMem'⟩] at hKey
          subst hKey
          rw [unique_of_sorted t.sorted hMem' hMem]
        · intro hEq
          obtain ⟨rfl, rfl⟩ := Prod.mk.inj hEq
          exact ⟨hMem, h k' ⟨r', hMem⟩⟩
      rw [hGroup]
      simp [foldGroup, aggregateRows, SqlReal.avg]

theorem Key.bucket_self {w : Nat} (k : Key) : (k.bucket w).bucket w = k.bucket w :=
  Key.bucket_bucket_of_dvd (dvd_refl w) k

theorem pickHistoryTable_rollup {range : Int} (h : 6 * 3600 < range) :
    (pickHistoryTable range).1 ≠ .samples ∧ 0 < (pickHistoryTable range).2 ∧
      ∃ rest, (pickHistoryTable range).1.widths = (pickHistoryTable range).2 :: rest := by
  unfold pickHistoryTable
  split_ifs with hRaw hMin hHour
  · omega
  all_goals exact ⟨by decide, by decide, _, rfl⟩

/-- A time at the start of a bucket is not behind the bucket of a time it is not behind. -/
theorem Key.le_bucket_iff {w : Nat} (hw : 0 < w) {a : Int} (ha : (w : Int) ∣ a) (k : Key) :
    a ≤ (k.bucket w).ts ↔ a ≤ k.ts := by
  obtain ⟨c, rfl⟩ := ha
  have hPos : (0 : Int) < w := by omega
  rw [Key.bucket_ts]
  push_cast
  rw [mul_comm, mul_le_mul_iff_left₀ hPos, Int.le_ediv_iff_mul_le hPos]

theorem Key.bucket_le_iff {w : Nat} (hw : 0 < w) {a : Int} (ha : (w : Int) ∣ a) (k : Key) :
    ((k.bucket w).ts : Int) ≤ a ↔ (k.ts : Int) < a + w := by
  have hNext := Key.le_bucket_iff hw (Int.dvd_add ha (dvd_refl _)) k
  rw [← not_le, ← hNext, not_le]
  obtain ⟨c, rfl⟩ := ha
  have hPos : (0 : Int) < w := by omega
  rw [Key.bucket_ts]
  push_cast
  rw [mul_comm (w : Int) c, ← add_one_mul, mul_le_mul_iff_left₀ hPos, mul_lt_mul_iff_left₀ hPos,
    Int.lt_add_one_iff]

variable (db : Db ℚ) (device metric : String) (sinceTs untilTs : Int)

/-- The raw samples of a window. -/
def windowSamples : List (Key × ℚ) :=
  db.samples.rows.filter fun r => inWindow device metric sinceTs untilTs r.1

/-- The samples whose rows of a given width are in the window. -/
def reachedSamples (w : Nat) : List (Key × ℚ) :=
  db.samples.rows.filter fun r => inWindow device metric sinceTs untilTs (r.1.bucket w)

/-- The raw samples grouped directly. -/
def rawBuckets (b : Nat) (xs : List (Key × ℚ)) : Table Key (RollupRow ℚ) :=
  groupBy (Key.bucket b) aggregateSamples xs

/-- The answer is that of the raw samples, with the summary's rounding. -/
structure SameAsRaw (answer : HistoryAnswer) (b : Nat) (xs : List (Key × ℚ)) : Prop where
  ts : answer.ts = (rawBuckets b xs).rows.map fun r => r.1.ts
  values : answer.values = (rawBuckets b xs).rows.map fun r => r.2.avg
  min : answer.min = some ((rawBuckets b xs).rows.map fun r => r.2.min)
  max : answer.max = some ((rawBuckets b xs).rows.map fun r => r.2.max)
  statsMin : answer.stats.min = (xs.map Prod.snd).min?.map fun v => PyDict.round v 4
  statsMax : answer.stats.max = (xs.map Prod.snd).max?.map fun v => PyDict.round v 4

/-- In no bucket before the last the levels shift the mean, and the row that starts when
the window ends stands for no other value than that of a sample at its end. -/
structure Undrifted (b : Nat) : Prop where
  means : ∀ x ∈ windowSamples db device metric sinceTs untilTs, (x.1.ts : Int) < untilTs →
    drift (pickHistoryTable (untilTs - sinceTs)).1.widths (group (Key.bucket b) (x.1.bucket b)
      (windowSamples db device metric sinceTs untilTs)) = 0
  lastRow : ∀ y ∈ db.samples.rows, y.1.device = device → y.1.metric = metric →
    untilTs < y.1.ts → (y.1.ts : Int) < untilTs + (pickHistoryTable (untilTs - sinceTs)).2 →
      ∃ x ∈ windowSamples db device metric sinceTs untilTs, (x.1.ts : Int) = untilTs ∧ x.2 = y.2

variable {db device metric sinceTs untilTs}

theorem mem_windowSamples {x : Key × ℚ} : x ∈ windowSamples db device metric sinceTs untilTs ↔
    x ∈ db.samples.rows ∧ x.1.device = device ∧ x.1.metric = metric ∧
      sinceTs ≤ x.1.ts ∧ (x.1.ts : Int) ≤ untilTs := by
  simp [windowSamples, inWindow, and_assoc]

theorem mem_reachedSamples {w : Nat} (hw : 0 < w) (hSince : (w : Int) ∣ sinceTs)
    (hUntil : (w : Int) ∣ untilTs) {x : Key × ℚ} :
    x ∈ reachedSamples db device metric sinceTs untilTs w ↔
      x ∈ db.samples.rows ∧ x.1.device = device ∧ x.1.metric = metric ∧
        sinceTs ≤ x.1.ts ∧ (x.1.ts : Int) < untilTs + w := by
  rw [← Key.le_bucket_iff hw hSince, ← Key.bucket_le_iff hw hUntil, reachedSamples,
    List.mem_filter, inWindow]
  simp only [Bool.and_eq_true, decide_eq_true_eq, and_assoc]
  rfl

/-- The columns of a row that the query returns. -/
def bandOf (r : RollupRow ℚ) : ℚ × ℚ × ℚ := (r.avg, r.min, r.max)

theorem lookup_rawBuckets (b : Nat) (xs : List (Key × ℚ)) (k : Key) :
    (rawBuckets b xs).lookup k =
      foldGroup aggregateRows (cascade [] (group (Key.bucket b) k xs)) := by
  rw [← lookup_cascade (List.forall_mem_nil _), Table.lookup, Table.lookup, rawBuckets,
    groupBy_aggregateSamples]
  rfl

theorem foldGroup_cascade_of_ne_nil (ws : List Nat) {xs : List (Key × ℚ)} (hSome : xs ≠ []) :
    ∃ r, foldGroup aggregateRows (cascade ws xs) = some r := by
  apply Option.ne_none_iff_exists'.mp
  rwa [Ne, foldGroup_eq_none, cascade_eq_nil]

/-- Rows over the same samples differ in nothing but the drift. -/
theorem band_cascade_iff {ws : List Nat} (hNested : NestedWidths ws) {xs : List (Key × ℚ)} :
    (foldGroup aggregateRows (cascade ws xs)).map bandOf =
        (foldGroup aggregateRows (cascade [] xs)).map bandOf ↔
      (xs ≠ [] → drift ws xs = 0) := by
  by_cases hSome : xs = []
  · subst hSome
    rw [foldGroup_cascade_nil, foldGroup_cascade_nil]
    simp
  · obtain ⟨r, hr⟩ := foldGroup_cascade_of_ne_nil ws hSome
    obtain ⟨q, hq⟩ := foldGroup_cascade_of_ne_nil [] hSome
    have hCounts := cascade_counts hNested hr
    have hNone : NestedWidths [] := trivial
    have hRaw := cascade_counts hNone hq
    have hMin : r.min = q.min := Option.some.inj (hCounts.min.symm.trans hRaw.min)
    have hMax : r.max = q.max := Option.some.inj (hCounts.max.symm.trans hRaw.max)
    have hAvg := cascade_avg hNested hr
    have hMean := cascade_avg hNone hq
    rw [drift, sub_zero] at hMean
    rw [hr, hq, Option.map_some, Option.map_some, Option.some_inj, bandOf, bandOf, hMin, hMax,
      hAvg, hMean]
    simp [hSome]

theorem mean_of_forall_eq {rows : List (Key × RollupRow ℚ)} {v : ℚ} (hSome : rows ≠ [])
    (hEq : ∀ p ∈ rows, p.2.avg = v) :
    (rows.map fun p => p.2.avg).sum / (rows.length : ℚ) = v := by
  have hLen : (rows.length : ℚ) ≠ 0 := by simpa using hSome
  rw [List.map_congr_left hEq, List.map_const', List.sum_replicate, nsmul_eq_mul,
    mul_div_cancel_left₀ _ hLen]

/-- Equal values stay as they are. -/
theorem avg_cascade_of_forall_eq {ws : List Nat} (hNested : NestedWidths ws)
    {xs : List (Key × ℚ)} {v : ℚ} (hEq : ∀ x ∈ xs, x.2 = v) :
    ∀ p ∈ cascade ws xs, p.2.avg = v := by
  induction ws generalizing xs with
  | nil =>
      intro p hp
      obtain ⟨x, hx, rfl⟩ := List.mem_map.mp hp
      exact hEq x hx
  | cons w ws ih =>
      obtain ⟨hWidths, hRest⟩ := hNested
      intro p hp
      have hRow := (mem_cascade hWidths).mp hp
      have hBelow : ∀ q ∈ cascade ws (group (Key.bucket w) p.1 xs), q.2.avg = v := by
        apply ih hRest
        intro x hx
        exact hEq x (mem_group.mp hx).1
      rw [avg_foldGroup hRow]
      exact mean_of_forall_eq (cascade_eq_nil.not.mpr (ne_nil_of_foldGroup_cascade hRow)) hBelow

theorem band_of_forall_eq {ws : List Nat} (hNested : NestedWidths ws) {xs : List (Key × ℚ)}
    {v : ℚ} (hSome : xs ≠ []) (hEq : ∀ x ∈ xs, x.2 = v) :
    (foldGroup aggregateRows (cascade ws xs)).map bandOf = some (v, v, v) := by
  obtain ⟨r, hr⟩ := foldGroup_cascade_of_ne_nil ws hSome
  have hCounts := cascade_counts hNested hr
  have hValue : ∀ a ∈ xs.map Prod.snd, a = v := by
    intro a ha
    obtain ⟨x, hx, rfl⟩ := List.mem_map.mp ha
    exact hEq x hx
  have hMin := hValue _ (List.min?_eq_some_iff.mp hCounts.min).1
  have hMax := hValue _ (List.max?_eq_some_iff.mp hCounts.max).1
  have hAvg : r.avg = v := by
    rw [avg_foldGroup hr]
    exact mean_of_forall_eq (cascade_eq_nil.not.mpr hSome)
      (avg_cascade_of_forall_eq hNested hEq)
  rw [hr, Option.map_some, bandOf, hMin, hMax, hAvg]

/-- Rows with equal bands, of which one has one value alone. -/
theorem forall_eq_of_band {ws : List Nat} (hNested : NestedWidths ws) {xs ys : List (Key × ℚ)}
    {v : ℚ} (hSome : ys ≠ []) (hEq : ∀ y ∈ ys, y.2 = v)
    (hBand : (foldGroup aggregateRows (cascade ws xs)).map bandOf =
      (foldGroup aggregateRows (cascade [] ys)).map bandOf) : ∀ x ∈ xs, x.2 = v := by
  have hNone : NestedWidths [] := trivial
  rw [band_of_forall_eq hNone hSome hEq, Option.map_eq_some_iff] at hBand
  obtain ⟨r, hr, hv⟩ := hBand
  simp only [bandOf, Prod.mk.injEq] at hv
  obtain ⟨_, hMin, hMax⟩ := hv
  have hCounts := cascade_counts hNested hr
  intro x hx
  have hMem := List.mem_map_of_mem (f := Prod.snd) hx
  have hLower := (List.min?_eq_some_iff.mp hCounts.min).2 _ hMem
  have hUpper := (List.max?_eq_some_iff.mp hCounts.max).2 _ hMem
  rw [hMin] at hLower
  rw [hMax] at hUpper
  exact le_antisymm hUpper hLower

/-! The two groups of a bucket: the samples that its rows stand for, and those of the
window. -/

section Buckets

variable {b w : Nat} (hb : 0 < b) (hw : 0 < w) (hWidth : w ∣ b) (hSince : (b : Int) ∣ sinceTs)
  (hUntil : (b : Int) ∣ untilTs)

include hb hw hWidth hSince hUntil

/-- Before the end of the window the groups are the same. -/
theorem group_reached_eq {k : Key} (hk : (k.ts : Int) < untilTs) :
    group (Key.bucket b) k (reachedSamples db device metric sinceTs untilTs w) =
      group (Key.bucket b) k (windowSamples db device metric sinceTs untilTs) := by
  have hWidthInt : (w : Int) ∣ b := Int.natCast_dvd_natCast.mpr hWidth
  apply eq_of_mem_iff ((db.samples.sorted.filter _).filter _)
    ((db.samples.sorted.filter _).filter _)
  intro x
  change x ∈ group (Key.bucket b) k (reachedSamples db device metric sinceTs untilTs w) ↔
    x ∈ group (Key.bucket b) k (windowSamples db device metric sinceTs untilTs)
  rw [mem_group, mem_group, mem_windowSamples,
    mem_reachedSamples hw (hWidthInt.trans hSince) (hWidthInt.trans hUntil)]
  have hBefore : x.1.bucket b = k → (x.1.ts : Int) < untilTs := by
    rintro rfl
    exact lt_of_not_ge fun hGe => absurd ((Key.le_bucket_iff hb hUntil x.1).mpr hGe) (not_le.mpr hk)
  constructor
  · rintro ⟨⟨hMem, hDevice, hMetric, hFrom, _⟩, hKey⟩
    exact ⟨⟨hMem, hDevice, hMetric, hFrom, (hBefore hKey).le⟩, hKey⟩
  · rintro ⟨⟨hMem, hDevice, hMetric, hFrom, _⟩, hKey⟩
    have hLt := hBefore hKey
    exact ⟨⟨hMem, hDevice, hMetric, hFrom, by omega⟩, hKey⟩

omit hSince hw in
/-- A row that reaches past the end of the window stands in the bucket at its end. -/
theorem bucket_at_end {x : Key × ℚ} (hFrom : untilTs ≤ x.1.ts)
    (hTo : (x.1.ts : Int) < untilTs + w) : ((x.1.bucket b).ts : Int) = untilTs := by
  have hLe := Nat.le_of_dvd hb hWidth
  apply le_antisymm
  · exact (Key.bucket_le_iff hb hUntil x.1).mpr (by omega)
  · exact (Key.le_bucket_iff hb hUntil x.1).mpr hFrom

omit hb in
theorem window_subset_reached {x : Key × ℚ}
    (hx : x ∈ windowSamples db device metric sinceTs untilTs) :
    x ∈ reachedSamples db device metric sinceTs untilTs w := by
  have hWidthInt : (w : Int) ∣ b := Int.natCast_dvd_natCast.mpr hWidth
  obtain ⟨hMem, hDevice, hMetric, hFrom, hTo⟩ := mem_windowSamples.mp hx
  apply (mem_reachedSamples hw (hWidthInt.trans hSince) (hWidthInt.trans hUntil)).mpr
  exact ⟨hMem, hDevice, hMetric, hFrom, by omega⟩

omit hb hw hWidth hSince hUntil

/-- The bucket at the end of the window has at most the sample at its end. -/
theorem ts_of_group_window (hUntil : (b : Int) ∣ untilTs) (hb : 0 < b) {k : Key}
    (hk : (k.ts : Int) = untilTs) {x : Key × ℚ}
    (hx : x ∈ group (Key.bucket b) k (windowSamples db device metric sinceTs untilTs)) :
    (x.1.ts : Int) = untilTs := by
  obtain ⟨hMem, rfl⟩ := mem_group.mp hx
  obtain ⟨_, _, _, _, hTo⟩ := mem_windowSamples.mp hMem
  have hFrom := (Key.le_bucket_iff hb hUntil x.1).mp hk.ge
  omega

/-- A metric has one sample at a time. -/
theorem eq_of_same_ts {x y : Key × ℚ} (hx : x ∈ db.samples.rows) (hy : y ∈ db.samples.rows)
    (hDevice : x.1.device = y.1.device) (hMetric : x.1.metric = y.1.metric)
    (hTs : (x.1.ts : Int) = y.1.ts) : x = y := by
  obtain ⟨⟨ts, device, metric⟩, v⟩ := x
  obtain ⟨⟨ts', device', metric'⟩, v'⟩ := y
  obtain rfl : ts = ts' := Int.ofNat.inj hTs
  obtain rfl : device = device' := hDevice
  obtain rfl : metric = metric' := hMetric
  rw [unique_of_sorted db.samples.sorted hx hy]

theorem eq_of_window_end {x y : Key × ℚ} (hx : x ∈ windowSamples db device metric sinceTs untilTs)
    (hy : y ∈ db.samples.rows) (hDevice : y.1.device = device) (hMetric : y.1.metric = metric)
    (hxTs : (x.1.ts : Int) = untilTs) (hyTs : (y.1.ts : Int) = untilTs) : x = y := by
  obtain ⟨hMem, hxDevice, hxMetric, _⟩ := mem_windowSamples.mp hx
  exact eq_of_same_ts hMem hy (hxDevice.trans hDevice.symm) (hxMetric.trans hMetric.symm)
    (hxTs.trans hyTs.symm)

end Buckets

section Agreement

variable {b : Nat} (hRange : 6 * 3600 < untilTs - sinceTs) (hb : 0 < b)
  (hWidth : (pickHistoryTable (untilTs - sinceTs)).2 ∣ b) (hSince : (b : Int) ∣ sinceTs)
  (hUntil : (b : Int) ∣ untilTs)

/-- What the query and the raw samples say of one bucket. -/
def BandAgrees (db : Db ℚ) (device metric : String) (sinceTs untilTs : Int) (b : Nat)
    (k : Key) : Prop :=
  (foldGroup aggregateRows (cascade (pickHistoryTable (untilTs - sinceTs)).1.widths
      (group (Key.bucket b) k (reachedSamples db device metric sinceTs untilTs
        (pickHistoryTable (untilTs - sinceTs)).2)))).map bandOf =
    (foldGroup aggregateRows (cascade [] (group (Key.bucket b) k
      (windowSamples db device metric sinceTs untilTs)))).map bandOf

include hRange hb hWidth hSince hUntil

omit hb in
theorem mem_reached {x : Key × ℚ} :
    x ∈ reachedSamples db device metric sinceTs untilTs (pickHistoryTable (untilTs - sinceTs)).2 ↔
      x ∈ db.samples.rows ∧ x.1.device = device ∧ x.1.metric = metric ∧ sinceTs ≤ x.1.ts ∧
        (x.1.ts : Int) < untilTs + (pickHistoryTable (untilTs - sinceTs)).2 := by
  have hWidthInt : ((pickHistoryTable (untilTs - sinceTs)).2 : Int) ∣ b :=
    Int.natCast_dvd_natCast.mpr hWidth
  exact mem_reachedSamples (pickHistoryTable_rollup hRange).2.1 (hWidthInt.trans hSince)
    (hWidthInt.trans hUntil)

/-- Before the end of the window a bucket agrees where the levels do not drift. -/
theorem bandAgrees_before_iff {k : Key} (hk : (k.ts : Int) < untilTs) :
    BandAgrees db device metric sinceTs untilTs b k ↔
      (group (Key.bucket b) k (windowSamples db device metric sinceTs untilTs) ≠ [] →
        drift (pickHistoryTable (untilTs - sinceTs)).1.widths
          (group (Key.bucket b) k (windowSamples db device metric sinceTs untilTs)) = 0) := by
  have hw := (pickHistoryTable_rollup hRange).2.1
  rw [BandAgrees, group_reached_eq hb hw hWidth hSince hUntil hk]
  exact band_cascade_iff (HistoryTable.nested_widths _)

/-- At the end of the window a row agrees with the one sample there, if that has the value
of every sample that the row stands for. -/
theorem bandAgrees_end_iff {k : Key} (hk : (k.ts : Int) = untilTs) :
    BandAgrees db device metric sinceTs untilTs b k ↔
      ∀ y ∈ group (Key.bucket b) k (reachedSamples db device metric sinceTs untilTs
          (pickHistoryTable (untilTs - sinceTs)).2),
        ∃ x ∈ windowSamples db device metric sinceTs untilTs,
          x.1.bucket b = k ∧ (x.1.ts : Int) = untilTs ∧ x.2 = y.2 := by
  have hw := (pickHistoryTable_rollup hRange).2.1
  have hNested := (pickHistoryTable (untilTs - sinceTs)).1.nested_widths
  have hNone : NestedWidths [] := trivial
  have hOne : ∀ x ∈ group (Key.bucket b) k (windowSamples db device metric sinceTs untilTs),
      ∀ z ∈ group (Key.bucket b) k (windowSamples db device metric sinceTs untilTs),
        z.2 = x.2 := by
    intro x hx z hz
    obtain ⟨hzMem, hzDevice, hzMetric, _⟩ := mem_windowSamples.mp (mem_group.mp hz).1
    rw [eq_of_window_end (mem_group.mp hx).1 hzMem hzDevice hzMetric
      (ts_of_group_window hUntil hb hk hx) (ts_of_group_window hUntil hb hk hz)]
  constructor
  · intro hBand y hy
    have hSome : group (Key.bucket b) k (windowSamples db device metric sinceTs untilTs) ≠ [] := by
      intro hNil
      obtain ⟨r, hr⟩ := foldGroup_cascade_of_ne_nil
        (pickHistoryTable (untilTs - sinceTs)).1.widths (List.ne_nil_of_mem hy)
      rw [BandAgrees, hNil, hr] at hBand
      cases hBand
    obtain ⟨x, hx⟩ := List.exists_mem_of_ne_nil _ hSome
    exact ⟨x, (mem_group.mp hx).1, (mem_group.mp hx).2, ts_of_group_window hUntil hb hk hx,
      (forall_eq_of_band hNested hSome (hOne x hx) hBand y hy).symm⟩
  · intro hEnd
    rw [BandAgrees]
    by_cases hNil : group (Key.bucket b) k (reachedSamples db device metric sinceTs untilTs
        (pickHistoryTable (untilTs - sinceTs)).2) = []
    · have hEmpty :
          group (Key.bucket b) k (windowSamples db device metric sinceTs untilTs) = [] := by
        rw [List.eq_nil_iff_forall_not_mem] at hNil ⊢
        intro x hx
        obtain ⟨hMem, hKey⟩ := mem_group.mp hx
        exact hNil x
          (mem_group.mpr ⟨window_subset_reached hw hWidth hSince hUntil hMem, hKey⟩)
      rw [hNil, hEmpty, foldGroup_cascade_nil, foldGroup_cascade_nil]
    · obtain ⟨y, hy⟩ := List.exists_mem_of_ne_nil _ hNil
      obtain ⟨x, hx, hKey, _⟩ := hEnd y hy
      have hIn : x ∈ group (Key.bucket b) k (windowSamples db device metric sinceTs untilTs) :=
        mem_group.mpr ⟨hx, hKey⟩
      rw [band_of_forall_eq hNested hNil, band_of_forall_eq hNone (List.ne_nil_of_mem hIn)
        (hOne x hIn)]
      intro z hz
      obtain ⟨x', hx', hKey', _, hValue⟩ := hEnd z hz
      rw [← hValue]
      exact hOne x hIn x' (mem_group.mpr ⟨hx', hKey'⟩)

/-- Every bucket agrees where nothing drifts. -/
theorem forall_bandAgrees_iff :
    (∀ k, BandAgrees db device metric sinceTs untilTs b k) ↔
      Undrifted db device metric sinceTs untilTs b := by
  have hw := (pickHistoryTable_rollup hRange).2.1
  constructor
  · intro hBands
    constructor
    · intro x hx hLt
      have hk : ((x.1.bucket b).ts : Int) < untilTs := by
        have hLe := Key.bucket_ts_le b x.1
        omega
      exact (bandAgrees_before_iff hRange hb hWidth hSince hUntil hk).mp (hBands _)
        (List.ne_nil_of_mem (mem_group.mpr ⟨hx, rfl⟩))
    · intro y hy hDevice hMetric hFrom hTo
      have hk := bucket_at_end hb hWidth hUntil hFrom.le hTo
      have hReached : y ∈ reachedSamples db device metric sinceTs untilTs
          (pickHistoryTable (untilTs - sinceTs)).2 :=
        (mem_reached hRange hWidth hSince hUntil).mpr ⟨hy, hDevice, hMetric, by omega, hTo⟩
      obtain ⟨x, hx, _, hTs, hValue⟩ := (bandAgrees_end_iff hRange hb hWidth hSince hUntil hk).mp
        (hBands _) y (mem_group.mpr ⟨hReached, rfl⟩)
      exact ⟨x, hx, hTs, hValue⟩
  · intro hUndrifted k
    rcases lt_trichotomy (k.ts : Int) untilTs with hLt | hEq | hGt
    · apply (bandAgrees_before_iff hRange hb hWidth hSince hUntil hLt).mpr
      intro hSome
      obtain ⟨x, hx⟩ := List.exists_mem_of_ne_nil _ hSome
      obtain ⟨hMem, rfl⟩ := mem_group.mp hx
      have hxLt : (x.1.ts : Int) < untilTs := lt_of_not_ge fun hGe =>
        absurd ((Key.le_bucket_iff hb hUntil x.1).mpr hGe) (not_le.mpr hLt)
      exact hUndrifted.means x hMem hxLt
    · apply (bandAgrees_end_iff hRange hb hWidth hSince hUntil hEq).mpr
      intro y hy
      obtain ⟨hReached, rfl⟩ := mem_group.mp hy
      obtain ⟨hMem, hDevice, hMetric, hSpan, hTo⟩ :=
        (mem_reached hRange hWidth hSince hUntil).mp hReached
      have hFrom := (Key.le_bucket_iff hb hUntil y.1).mp hEq.ge
      rcases hFrom.eq_or_lt with hTs | hLt
      · exact ⟨y, mem_windowSamples.mpr ⟨hMem, hDevice, hMetric, hSpan, hTs.ge⟩, rfl, hTs.symm, rfl⟩
      · obtain ⟨x, hx, hTs, hValue⟩ := hUndrifted.lastRow y hMem hDevice hMetric hLt hTo
        obtain ⟨_, hxDevice, hxMetric, _⟩ := mem_windowSamples.mp hx
        refine ⟨x, hx, ?_, hTs, hValue⟩
        have hSame : (x.1.bucket b).ts = (y.1.bucket b).ts := by
          have hxEnd := bucket_at_end hb hWidth hUntil hTs.ge (by omega)
          omega
        have hDevices : x.1.device = y.1.device := hxDevice.trans hDevice.symm
        have hMetrics : x.1.metric = y.1.metric := hxMetric.trans hMetric.symm
        rw [Key.bucket_ts, Key.bucket_ts] at hSame
        rw [Key.bucket, Key.bucket, hSame, hDevices, hMetrics]
    · -- no row starts behind the end of the window
      have hNone : ∀ xs : List (Key × ℚ), (∀ x ∈ xs, x ∈ reachedSamples db device metric sinceTs
          untilTs (pickHistoryTable (untilTs - sinceTs)).2) → group (Key.bucket b) k xs = [] := by
        intro xs hxs
        rw [List.eq_nil_iff_forall_not_mem]
        intro x hx
        obtain ⟨hMem, rfl⟩ := mem_group.mp hx
        obtain ⟨_, _, _, _, hTo⟩ := (mem_reached hRange hWidth hSince hUntil).mp (hxs x hMem)
        have hLe := Nat.le_of_dvd hb hWidth
        have hBucket := (Key.bucket_le_iff hb hUntil x.1).mpr (by omega)
        omega
      rw [BandAgrees, hNone _ fun x hx => hx,
        hNone _ fun x hx => window_subset_reached hw hWidth hSince hUntil hx,
        foldGroup_cascade_nil, foldGroup_cascade_nil]

end Agreement

/-- The rows of the query over tables that hold the towers of the samples. -/
theorem historyRows_eq {tables : Db ℚ} {b : Nat} (hRange : 6 * 3600 < untilTs - sinceTs)
    (hb : 0 < b) (hWidth : (pickHistoryTable (untilTs - sinceTs)).2 ∣ b)
    (hTables : (pickHistoryTable (untilTs - sinceTs)).1.bands tables =
      cascade (pickHistoryTable (untilTs - sinceTs)).1.widths db.samples.rows) :
    historyRows tables device metric sinceTs untilTs b =
      (groupBy (Key.bucket b) aggregateRows
        (cascade (pickHistoryTable (untilTs - sinceTs)).1.widths
          (reachedSamples db device metric sinceTs untilTs
            (pickHistoryTable (untilTs - sinceTs)).2))).rows := by
  obtain ⟨_, hw, rest, hWidths⟩ := pickHistoryTable_rollup hRange
  have hNested := (pickHistoryTable (untilTs - sinceTs)).1.nested_widths
  rw [hWidths] at hNested hTables ⊢
  have hRows : ((pickHistoryTable (untilTs - sinceTs)).1.bands tables).filter
      (fun r => inWindow device metric sinceTs untilTs r.1) =
      cascade ((pickHistoryTable (untilTs - sinceTs)).2 :: rest)
        (reachedSamples db device metric sinceTs untilTs
          (pickHistoryTable (untilTs - sinceTs)).2) := by
    rw [hTables]
    exact filter_cascade_cons hNested.1 (inWindow device metric sinceTs untilTs) _
  simp only [historyRows, hRows]
  split_ifs with hBucket
  · rfl
  · have hEq : (pickHistoryTable (untilTs - sinceTs)).2 = b :=
      le_antisymm (Nat.le_of_dvd hb hWidth) (not_lt.mp hBucket)
    rw [cascade, ← hEq, groupBy_aggregateRows_self]
    intro k hk
    obtain ⟨x, _, rfl⟩ := has_groupBy.mp hk
    exact Key.bucket_self x.1

/-! ### The answer -/

theorem exists_sample_of_bucket {ws : List Nat} {b : Nat} (hWidths : ∀ u ∈ ws, u ∣ b)
    {xs : List (Key × ℚ)} {k : Key}
    (hk : (groupBy (Key.bucket b) aggregateRows (cascade ws xs)).Has k) :
    ∃ x ∈ xs, x.1.bucket b = k := by
  obtain ⟨r, hr⟩ := Table.has_iff_lookup.mp hk
  rw [lookup_cascade hWidths] at hr
  obtain ⟨x, hx⟩ := List.exists_mem_of_ne_nil _ (ne_nil_of_foldGroup_cascade hr)
  exact ⟨x, mem_group.mp hx⟩

/-- Rows of one metric are determined by their columns. -/
theorem columns_eq_iff {t u : Table Key (RollupRow ℚ)}
    (ht : ∀ k, t.Has k → k.device = device ∧ k.metric = metric)
    (hu : ∀ k, u.Has k → k.device = device ∧ k.metric = metric) :
    ((t.rows.map fun r => r.1.ts) = (u.rows.map fun r => r.1.ts) ∧
        (t.rows.map fun r => r.2.avg) = (u.rows.map fun r => r.2.avg) ∧
        (t.rows.map fun r => r.2.min) = (u.rows.map fun r => r.2.min) ∧
        (t.rows.map fun r => r.2.max) = (u.rows.map fun r => r.2.max)) ↔
      ∀ k, (t.lookup k).map bandOf = (u.lookup k).map bandOf := by
  rw [← Table.map_rows_eq_iff]
  have hKeys : ∀ v : Table Key (RollupRow ℚ),
      (∀ k, v.Has k → k.device = device ∧ k.metric = metric) →
      (v.rows.map fun r => (r.1, bandOf r.2)) =
        ((v.rows.map fun r => r.1.ts).zip ((v.rows.map fun r => r.2.avg).zip
          ((v.rows.map fun r => r.2.min).zip (v.rows.map fun r => r.2.max)))).map
            fun c => ((⟨c.1, device, metric⟩ : Key), c.2) := by
    intro v hv
    rw [List.zip_map', List.zip_map', List.zip_map', List.map_map]
    apply List.map_congr_left
    rintro ⟨⟨ts, device', metric'⟩, r⟩ hr
    obtain ⟨rfl, rfl⟩ := hv _ ⟨r, hr⟩
    rfl
  constructor
  · rintro ⟨hTs, hAvg, hMin, hMax⟩
    rw [hKeys t ht, hKeys u hu, hTs, hAvg, hMin, hMax]
  · intro hRows
    have hColumn : ∀ {A : Type} (f : Key × ℚ × ℚ × ℚ → A),
        (t.rows.map fun r => f (r.1, bandOf r.2)) = u.rows.map fun r => f (r.1, bandOf r.2) := by
      intro A f
      have hMap := congrArg (List.map f) hRows
      rwa [List.map_map, List.map_map] at hMap
    exact ⟨hColumn fun c => c.1.ts, hColumn fun c => c.2.1, hColumn fun c => c.2.2.1,
      hColumn fun c => c.2.2.2⟩

theorem extremes_cascade {ws : List Nat} (hNested : NestedWidths ws) (xs : List (Key × ℚ)) :
    ((cascade ws xs).map fun r => r.2.min).min? = (xs.map Prod.snd).min? ∧
      ((cascade ws xs).map fun r => r.2.max).max? = (xs.map Prod.snd).max? := by
  by_cases hSome : xs = []
  · subst hSome
    rw [cascade_eq_nil.mpr rfl]
    exact ⟨rfl, rfl⟩
  · obtain ⟨r, hr⟩ := foldGroup_cascade_of_ne_nil ws hSome
    have hCounts := cascade_counts hNested hr
    rw [hCounts.min, hCounts.max]
    cases hRows : cascade ws xs with
    | nil => rw [hRows] at hr; cases hr
    | cons p ps =>
        rw [hRows] at hr
        obtain rfl := Option.some.inj hr
        simp only [aggregateRows, List.map_cons, List.map_map, List.min?_cons', List.max?_cons']
        exact ⟨rfl, rfl⟩

theorem historyStats_extremes (rows : List (Key × RollupRow ℚ)) :
    (historyStats (rows.map fun r => r.2.avg) (rows.map fun r => r.2.min)
        (rows.map fun r => r.2.max)).min =
        (rows.map fun r => r.2.min).min?.map (fun v => PyDict.round v 4) ∧
      (historyStats (rows.map fun r => r.2.avg) (rows.map fun r => r.2.min)
        (rows.map fun r => r.2.max)).max =
        (rows.map fun r => r.2.max).max?.map (fun v => PyDict.round v 4) := by
  cases rows with
  | nil => exact ⟨rfl, rfl⟩
  | cons p ps =>
      simp only [List.map_cons, historyStats, List.getLast?_cons, List.min?_cons', List.max?_cons',
        Option.map_some]
      exact ⟨trivial, trivial⟩

/-- For samples that every retention window still holds, the history read from a rollup
table is that of the raw samples if and only if nothing drifts. -/
theorem history_same_as_raw_iff {ret : Retention} {now : Int} (h1min : db.samples1min = .empty)
    (h1hour : db.samples1hour = .empty) (h1day : db.samples1day = .empty)
    (hInside : ∀ k, db.samples.Has k → SeenByDay ret now k)
    (hRange : 6 * 3600 < untilTs - sinceTs) {b : Nat} (hb : 0 < b)
    (hWidth : (pickHistoryTable (untilTs - sinceTs)).2 ∣ b) (hSince : (b : Int) ∣ sinceTs)
    (hUntil : (b : Int) ∣ untilTs) :
    SameAsRaw (getHistoryAnswer (rollupAndPurge ret now db) device metric sinceTs untilTs b) b
        (windowSamples db device metric sinceTs untilTs) ↔
      Undrifted db device metric sinceTs untilTs b := by
  obtain ⟨hTable, hw, rest, hWidths⟩ := pickHistoryTable_rollup hRange
  have hAll : ∀ u ∈ (pickHistoryTable (untilTs - sinceTs)).1.widths, u ∣ b := by
    have hNested := (pickHistoryTable (untilTs - sinceTs)).1.nested_widths
    rw [hWidths] at hNested ⊢
    exact List.forall_mem_cons.mpr ⟨hWidth, fun u hu => (hNested.1 u hu).trans hWidth⟩
  have hRows : historyRows (rollupAndPurge ret now db) device metric sinceTs untilTs b = _ :=
    historyRows_eq hRange hb hWidth (bands_rollupAndPurge h1min h1hour h1day hInside _)
  have hLevel : ∀ k, (groupBy (Key.bucket b) aggregateRows
      (cascade (pickHistoryTable (untilTs - sinceTs)).1.widths
        (reachedSamples db device metric sinceTs untilTs
          (pickHistoryTable (untilTs - sinceTs)).2))).Has k →
      k.device = device ∧ k.metric = metric := by
    intro k hk
    obtain ⟨x, hx, rfl⟩ := exists_sample_of_bucket hAll hk
    obtain ⟨_, hDevice, hMetric, _⟩ := (mem_reached hRange hWidth hSince hUntil).mp hx
    exact ⟨hDevice, hMetric⟩
  have hRaw : ∀ k, (rawBuckets b (windowSamples db device metric sinceTs untilTs)).Has k →
      k.device = device ∧ k.metric = metric := by
    intro k hk
    obtain ⟨x, hx, rfl⟩ := has_groupBy.mp hk
    obtain ⟨_, hDevice, hMetric, _⟩ := mem_windowSamples.mp hx
    exact ⟨hDevice, hMetric⟩
  have hColumns := columns_eq_iff hLevel hRaw
  simp only [lookup_cascade hAll, lookup_rawBuckets] at hColumns
  rw [← forall_bandAgrees_iff hRange hb hWidth hSince hUntil]
  change _ ↔ ∀ k, BandAgrees db device metric sinceTs untilTs b k at hColumns
  rw [← hColumns]
  have hBanded : (decide ((pickHistoryTable (untilTs - sinceTs)).1 ≠ .samples) ||
      decide ((pickHistoryTable (untilTs - sinceTs)).2 < b)) = true := by
    rw [decide_eq_true hTable, Bool.true_or]
  constructor
  · intro hSame
    have hMin := hSame.min
    have hMax := hSame.max
    have hTs := hSame.ts
    have hValues := hSame.values
    simp only [getHistoryAnswer, hRows, hBanded, if_true, Option.some_inj] at hTs hValues hMin hMax
    exact ⟨hTs, hValues, hMin, hMax⟩
  · rintro ⟨hTs, hValues, hMin, hMax⟩
    have hNested : NestedWidths [b] := ⟨List.forall_mem_nil _, trivial⟩
    have hExtremes := extremes_cascade hNested (windowSamples db device metric sinceTs untilTs)
    rw [← groupBy_aggregateSamples] at hExtremes
    obtain ⟨hStatsMin, hStatsMax⟩ := historyStats_extremes
      (historyRows (rollupAndPurge ret now db) device metric sinceTs untilTs b)
    constructor
    · simpa only [getHistoryAnswer, hRows] using hTs
    · simpa only [getHistoryAnswer, hRows] using hValues
    · simpa only [getHistoryAnswer, hRows, hBanded, if_true, Option.some_inj] using hMin
    · simpa only [getHistoryAnswer, hRows, hBanded, if_true, Option.some_inj] using hMax
    · rw [getHistoryAnswer, hStatsMin, hRows, hMin, rawBuckets, hExtremes.1]
    · rw [getHistoryAnswer, hStatsMax, hRows, hMax, rawBuckets, hExtremes.2]

/-- Seven hours of the bank in hours, from the minute table: one reading in each of two
minutes. -/
theorem history_same_as_raw_even_minutes :
    SameAsRaw (getHistoryAnswer (rollupAndPurge .default 25200 (readings [(0, 60), (60, 62)]))
      "bank" "soc_pct" 0 25200 3600) 3600
      (windowSamples (readings [(0, 60), (60, 62)]) "bank" "soc_pct" 0 25200) := by
  have hTs : ∀ x ∈ (readings [(0, 60), (60, 62)]).samples.rows,
      x = (⟨0, "bank", "soc_pct"⟩, 60) ∨ x = (⟨60, "bank", "soc_pct"⟩, 62) := by
    intro x hx
    change x ∈ [(⟨0, "bank", "soc_pct"⟩, 60), (⟨60, "bank", "soc_pct"⟩, 62)] at hx
    simpa using hx
  have hInside : ∀ k, (readings [(0, 60), (60, 62)]).samples.Has k →
      SeenByDay .default 25200 k := by
    rintro k ⟨v, hv⟩
    rcases hTs _ hv with h | h <;> obtain ⟨rfl, _⟩ := Prod.mk.inj h <;> decide
  apply (history_same_as_raw_iff rfl rfl rfl hInside (by decide) (by decide) (by decide)
    (by decide) (by decide)).mpr
  constructor
  · intro x hx _
    rcases hTs x (mem_windowSamples.mp hx).1 with rfl | rfl <;> decide +kernel
  · intro y hy _ _ hFrom
    rcases hTs y hy with rfl | rfl <;> exact absurd hFrom (by decide)

/-- Two readings of zero in one minute and a reading of three in the next: the hour's value
is 3/2 where the mean is 1. And a reading thirty seconds after the end of the window: it is
in the row that starts there. -/
theorem history_differs_from_raw :
    ¬ SameAsRaw (getHistoryAnswer
        (rollupAndPurge .default 25200 (readings [(0, 0), (1, 0), (60, 3)]))
        "bank" "soc_pct" 0 25200 3600) 3600
        (windowSamples (readings [(0, 0), (1, 0), (60, 3)]) "bank" "soc_pct" 0 25200) ∧
      ¬ SameAsRaw (getHistoryAnswer
        (rollupAndPurge .default 25260 (readings [(25200, 1), (25230, 5)]))
        "bank" "soc_pct" 0 25200 60) 60
        (windowSamples (readings [(25200, 1), (25230, 5)]) "bank" "soc_pct" 0 25200) := by
  constructor
  · intro h
    exact absurd h.values (by decide +kernel)
  · intro h
    exact absurd h.statsMax (by decide +kernel)

end History

end WattPost.Storage
