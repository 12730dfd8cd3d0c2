import Mathlib.Tactic.FieldSimp
import Mathlib.Tactic.Ring
import Mathlib.Tactic.LinearCombination
import WattPost.Storage.RollupCascade

/-! Rollup rows as aggregates of the raw samples, over exact rationals. The
upper levels take `AVG(avg)` of the rows below, without their weights `n`.
Counts, minima and maxima survive the cascade. The mean survives exactly when
the number of samples in the lower buckets is uncorrelated with their means. -/
namespace WattPost.Storage

open Keyed

/-- The row is the count, minimum, maximum and arithmetic mean of the values. -/
def RollupRow.IsAggregateOf (r : RollupRow ℚ) (vs : List ℚ) : Prop :=
  r.n = vs.length ∧ vs.min? = some r.min ∧ vs.max? = some r.max ∧ r.avg = vs.sum / vs.length

/-- The values of the raw samples of a device and metric in one bucket. -/
def rawValues (db : Db ℚ) (w : Nat) (k : Key) : List ℚ :=
  (group (Key.bucket w) k db.samples.rows).map Prod.snd

/-- Sample count and mean of a group. -/
def countMean (v : ℚ) (vs : List ℚ) : ℚ × ℚ := ((v :: vs).length, (v :: vs).sum / (v :: vs).length)

/-- Count and mean of every bucket of width `w` among some samples. -/
def bucketStats (w : Nat) (xs : List (Key × ℚ)) : List (ℚ × ℚ) :=
  (groupBy (Key.bucket w) countMean xs).rows.map Prod.snd

/-- The sample covariance of the two components is zero. -/
def Uncorrelated (ps : List (ℚ × ℚ)) : Prop :=
  (ps.map (fun p => (p.1 - (ps.map Prod.fst).sum / ps.length) *
    (p.2 - (ps.map Prod.snd).sum / ps.length))).sum = 0

/-! ### Means of means -/

theorem sum_centred (ps : List (ℚ × ℚ)) (a b : ℚ) :
    (ps.map (fun p => (p.1 - a) * (p.2 - b))).sum =
      (ps.map (fun p => p.1 * p.2)).sum - b * (ps.map Prod.fst).sum -
        a * (ps.map Prod.snd).sum + ps.length * (a * b) := by
  induction ps with
  | nil => simp
  | cons p ps ih =>
      simp only [List.map_cons, List.sum_cons, List.length_cons, ih]
      push_cast
      ring

/-- The covariance over the first components is what the weighted mean exceeds the mean by. -/
theorem sum_centred_div {ps : List (ℚ × ℚ)} (hps : ps ≠ []) (hn : (ps.map Prod.fst).sum ≠ 0) :
    (ps.map (fun p => (p.1 - (ps.map Prod.fst).sum / ps.length) *
        (p.2 - (ps.map Prod.snd).sum / ps.length))).sum / (ps.map Prod.fst).sum =
      (ps.map (fun p => p.1 * p.2)).sum / (ps.map Prod.fst).sum -
        (ps.map Prod.snd).sum / ps.length := by
  have hLen : (ps.length : ℚ) ≠ 0 := by simpa using hps
  rw [sum_centred]
  field_simp
  ring

/-- The mean of the means is the weighted mean exactly when counts and means
are uncorrelated. -/
theorem uncorrelated_iff {ps : List (ℚ × ℚ)} (hps : ps ≠ []) (hn : (ps.map Prod.fst).sum ≠ 0) :
    Uncorrelated ps ↔
      (ps.map Prod.snd).sum / ps.length =
        (ps.map (fun p => p.1 * p.2)).sum / (ps.map Prod.fst).sum := by
  rw [eq_comm, ← sub_eq_zero, ← sum_centred_div hps hn, div_eq_zero_iff, or_iff_left hn,
    Uncorrelated]

/-! ### One step of the cascade -/

theorem RollupRow.IsAggregateOf.eq {r : RollupRow ℚ} {v : ℚ} {vs : List ℚ}
    (h : r.IsAggregateOf (v :: vs)) : r = aggregateSamples v vs := by
  obtain ⟨hn, hMin, hMax, hAvg⟩ := h
  obtain ⟨avg, min, max, n⟩ := r
  simp only [List.min?_cons', List.max?_cons', Option.some.injEq] at hn hMin hMax hAvg
  simp [aggregateSamples, hn, ← hMin, ← hMax, hAvg, SqlReal.avg]

section Step

variable {w : Nat} {xs : List (Key × ℚ)} {r : RollupRow ℚ}

/-- The rows of the lower level, as a level rolls them up. -/
def lowerRows (w : Nat) (xs : List (Key × ℚ)) : List (Key × RollupRow ℚ) :=
  (groupBy (Key.bucket w) aggregateSamples xs).rows

theorem exists_lowerRow {x : Key × ℚ} (hx : x ∈ xs) :
    ∃ p ∈ lowerRows w xs, p.1 = x.1.bucket w := by
  have hHas : (groupBy (Key.bucket w) (aggregateSamples : ℚ → _) xs).Has (x.1.bucket w) :=
    has_groupBy.mpr ⟨x, hx, rfl⟩
  obtain ⟨q, hq⟩ := hHas
  exact ⟨(_, q), hq, rfl⟩

/-- Counts, minima and maxima of the samples survive a step. -/
theorem step_counts (hr : foldGroup aggregateRows (lowerRows w xs) = some r) :
    r.n = xs.length ∧ (xs.map Prod.snd).min? = some r.min ∧
      (xs.map Prod.snd).max? = some r.max := by
  rw [lowerRows, groupBy_aggregateSamples] at hr
  have hNested : NestedWidths [w] := ⟨by simp, trivial⟩
  have hCounts := cascade_counts hNested hr
  exact ⟨by simpa using hCounts.n, hCounts.min, hCounts.max⟩

theorem bucketStats_eq (w : Nat) (xs : List (Key × ℚ)) :
    bucketStats w xs = (lowerRows w xs).map (fun p => ((p.2.n : ℚ), p.2.avg)) := by
  have hMap := groupBy_rows_map (Key.bucket w) aggregateSamples
    (fun r : RollupRow ℚ => ((r.n : ℚ), r.avg)) xs
  change (groupBy (Key.bucket w) countMean xs).rows = _ at hMap
  rw [bucketStats, hMap, List.map_map, lowerRows]
  rfl

theorem sum_counts_bucketStats (w : Nat) (xs : List (Key × ℚ)) :
    ((bucketStats w xs).map Prod.fst).sum = (xs.length : ℚ) := by
  have h := sum_groupBy (Key.bucket w) countMean (fun _ => (1 : ℚ)) Prod.fst
    (fun v vs => by simp [countMean]; ring) xs
  simpa [bucketStats, Function.comp_def] using h

theorem sum_bucketStats (w : Nat) (xs : List (Key × ℚ)) :
    ((bucketStats w xs).map (fun p => p.1 * p.2)).sum = (xs.map Prod.snd).sum := by
  have h := sum_groupBy (Key.bucket w) countMean (fun v => v) (fun p => p.1 * p.2)
    (fun v vs => by
      have hLen : ((v :: vs).length : ℚ) ≠ 0 := Nat.cast_ne_zero.mpr (by simp)
      rw [countMean, mul_div_cancel₀ _ hLen, List.map_id']) xs
  simpa [bucketStats, Function.comp_def] using h

/-- A step keeps the mean exactly on uncorrelated counts and means. -/
theorem step_isAggregateOf_iff (hr : foldGroup aggregateRows (lowerRows w xs) = some r) :
    r.IsAggregateOf (xs.map Prod.snd) ↔ Uncorrelated (bucketStats w xs) := by
  obtain ⟨hn, hMin, hMax⟩ := step_counts hr
  have hCount := sum_counts_bucketStats w xs
  have hSum := sum_bucketStats w xs
  have hNe : bucketStats w xs ≠ [] := by
    rw [bucketStats_eq]
    intro hNil
    rw [List.map_eq_nil_iff.mp hNil] at hr
    cases hr
  have hxs : (xs.length : ℚ) ≠ 0 := by
    intro h0
    have hNil : xs = [] := by simpa using h0
    subst hNil
    exact hNe rfl
  have hAvg : r.avg = ((bucketStats w xs).map Prod.snd).sum / (bucketStats w xs).length := by
    rw [bucketStats_eq]
    cases hRows : lowerRows w xs with
    | nil => rw [hRows] at hr; cases hr
    | cons p ps =>
        rw [hRows, foldGroup, Option.some.injEq] at hr
        subst hr
        simp [aggregateRows, SqlReal.avg, Function.comp_def]
  rw [uncorrelated_iff hNe (hCount ▸ hxs), hCount, hSum, ← hAvg]
  constructor
  · intro h
    simpa using h.2.2.2
  · intro h
    exact ⟨by simpa using hn, hMin, hMax, by simpa using h⟩

end Step

/-! ### A pass over raw samples -/

/-- A pass at `now` rolls the sample up into its hour's row. -/
def SeenByHour (ret : Retention) (now : Int) (k : Key) : Prop :=
  now - ret.raw ≤ k.ts ∧ now - ret.oneMin ≤ (k.bucket 60).ts

/-- A pass at `now` rolls the sample up into its day's row and keeps its hour's row. -/
def SeenByDay (ret : Retention) (now : Int) (k : Key) : Prop :=
  SeenByHour ret now k ∧ now - ret.oneHour ≤ (k.bucket 3600).ts

instance (ret : Retention) (now : Int) : DecidablePred (SeenByHour ret now) :=
  fun _ => inferInstanceAs (Decidable (_ ∧ _))

instance (ret : Retention) (now : Int) : DecidablePred (SeenByDay ret now) :=
  fun _ => inferInstanceAs (Decidable (_ ∧ _))

/-- Every hour and day row after a pass is the aggregate of the raw samples in
its bucket. -/
def FaithfulRollups (ret : Retention) (now : Int) (db : Db ℚ) : Prop :=
  (∀ k r, (rollupAndPurge ret now db).samples1hour.table.lookup k = some r →
    r.IsAggregateOf (rawValues db 3600 k)) ∧
  (∀ k r, (rollupAndPurge ret now db).samples1day.table.lookup k = some r →
    r.IsAggregateOf (rawValues db 86400 k))

/-- The condition on the samples. Around every sample that reaches the day
table, no sample of its hour or day is left out by a cutoff, the minutes of its
hour have counts uncorrelated with their means, and so have the hours of its
day. -/
def Balanced (ret : Retention) (now : Int) (db : Db ℚ) : Prop :=
  ∀ x, db.samples.Has x → SeenByDay ret now x →
    ((∀ y, db.samples.Has y → y.bucket 3600 = x.bucket 3600 → SeenByHour ret now y) ∧
      Uncorrelated (bucketStats 60 (group (Key.bucket 3600) (x.bucket 3600) db.samples.rows))) ∧
    ((∀ y, db.samples.Has y → y.bucket 86400 = x.bucket 86400 → SeenByDay ret now y) ∧
      Uncorrelated (bucketStats 3600 (group (Key.bucket 86400) (x.bucket 86400) db.samples.rows)))

section Pass

variable {ret : Retention} {now : Int} {db : Db ℚ}

/-- The samples that reach the hour rows, and those that reach the day rows. -/
def hourSeen (ret : Retention) (now : Int) (db : Db ℚ) : List (Key × ℚ) :=
  db.samples.rows.filter (fun x => SeenByHour ret now x.1)

def daySeen (ret : Retention) (now : Int) (db : Db ℚ) : List (Key × ℚ) :=
  db.samples.rows.filter (fun x => SeenByDay ret now x.1)

theorem since_rolled1min (h1min : db.samples1min = .empty) :
    since (rolled1min ret now db).table (now - ret.oneMin) =
      groupBy (Key.bucket 60) aggregateSamples (hourSeen ret now db) := by
  apply Table.ext_lookup
  intro k
  rw [lookup_groupBy, since, Table.lookup_filterKeys, rolled1min, lookup_rollInto, h1min]
  have hGroup : group (Key.bucket 60) k (hourSeen ret now db) =
      if now - ret.oneMin ≤ k.ts then rollGroup 60 db.samples (now - ret.raw) k else [] := by
    split_ifs with hk
    · simp only [rollGroup, group, hourSeen, since, Table.filterKeys, List.filter_filter]
      apply List.filter_congr
      rintro ⟨x, v⟩ _
      by_cases hx : x.bucket 60 = k
      · simp [SeenByHour, hx, hk]
      · simp [hx]
    · rw [List.eq_nil_iff_forall_not_mem]
      intro x hx
      obtain ⟨hx, hxk⟩ := mem_group.mp hx
      have hSeen : SeenByHour ret now x.1 := by simpa using (List.mem_filter.mp hx).2
      exact hk (hxk ▸ hSeen.2)
  rw [hGroup]
  by_cases hk : now - ret.oneMin ≤ k.ts
  · simp only [hk, decide_true, if_true]
    exact Option.or_none
  · simp [hk, foldGroup]

/-- An hour row is one step over the samples of its hour that the pass sees. -/
theorem lookup_rolled1hour (h1min : db.samples1min = .empty) (h1hour : db.samples1hour = .empty)
    (k : Key) : (rolled1hour ret now db).table.lookup k =
      foldGroup aggregateRows (lowerRows 60 (group (Key.bucket 3600) k (hourSeen ret now db))) := by
  rw [rolled1hour, lookup_rollInto, h1hour, rollGroup, since_rolled1min h1min, group_groupBy]
  simp only [Key.bucket_bucket 60 60]
  exact Option.or_none

theorem group_daySeen (k : Key) : group (Key.bucket 3600) k (daySeen ret now db) =
    if now - ret.oneHour ≤ k.ts then group (Key.bucket 3600) k (hourSeen ret now db) else [] := by
  split_ifs with hk
  · simp only [group, hourSeen, daySeen, List.filter_filter]
    apply List.filter_congr
    rintro ⟨x, v⟩ _
    by_cases hx : x.bucket 3600 = k
    · simp [SeenByDay, hx, hk]
    · simp [hx]
  · rw [List.eq_nil_iff_forall_not_mem]
    intro x hx
    obtain ⟨hx, hxk⟩ := mem_group.mp hx
    have hSeen : SeenByDay ret now x.1 := by simpa using (List.mem_filter.mp hx).2
    exact hk (hxk ▸ hSeen.2)

/-- A group that a filter shortens has fewer rows than the whole group. -/
theorem group_filter_eq_of_length {p : Key → Prop} [DecidablePred p] {w : Nat} {k : Key}
    {xs : List (Key × ℚ)}
    (h : (group (Key.bucket w) k (xs.filter (fun x => p x.1))).length =
      (group (Key.bucket w) k xs).length) :
    (∀ x ∈ xs, x.1.bucket w = k → p x.1) ∧
      group (Key.bucket w) k (xs.filter (fun x => p x.1)) = group (Key.bucket w) k xs := by
  have hSwap : group (Key.bucket w) k (xs.filter (fun x => p x.1)) =
      (group (Key.bucket w) k xs).filter (fun x => p x.1) := by
    simp only [group, List.filter_filter, Bool.and_comm]
  rw [hSwap] at h ⊢
  have hAll := List.length_filter_eq_length_iff.mp h
  refine ⟨fun x hx hxk => ?_, List.filter_eq_self.mpr hAll⟩
  simpa using hAll x (mem_group.mpr ⟨hx, hxk⟩)

theorem group_filter_eq {p : Key → Prop} [DecidablePred p] {w : Nat} {k : Key}
    {xs : List (Key × ℚ)} (h : ∀ x ∈ xs, x.1.bucket w = k → p x.1) :
    group (Key.bucket w) k (xs.filter (fun x => p x.1)) = group (Key.bucket w) k xs := by
  simp only [group, List.filter_filter]
  apply List.filter_congr
  intro x hx
  by_cases hxk : x.1.bucket w = k
  · simp [hxk, h x hx hxk]
  · simp [hxk]

theorem group_hourSeen {k : Key}
    (h : ∀ y, db.samples.Has y → y.bucket 3600 = k → SeenByHour ret now y) :
    group (Key.bucket 3600) k (hourSeen ret now db) =
      group (Key.bucket 3600) k db.samples.rows :=
  group_filter_eq fun x hx hxk => h x.1 ⟨x.2, hx⟩ hxk

/-- The hour part of the condition, for one hour whose row stays. -/
theorem hour_isAggregateOf_iff (h1min : db.samples1min = .empty)
    (h1hour : db.samples1hour = .empty) {k : Key} {r : RollupRow ℚ}
    (hr : (rolled1hour ret now db).table.lookup k = some r) :
    r.IsAggregateOf (rawValues db 3600 k) ↔
      (∀ y, db.samples.Has y → y.bucket 3600 = k → SeenByHour ret now y) ∧
        Uncorrelated (bucketStats 60 (group (Key.bucket 3600) k db.samples.rows)) := by
  rw [lookup_rolled1hour h1min h1hour] at hr
  constructor
  · intro h
    have hLen : (group (Key.bucket 3600) k (hourSeen ret now db)).length =
        (group (Key.bucket 3600) k db.samples.rows).length := by
      rw [← (step_counts hr).1, h.1, rawValues, List.length_map]
    obtain ⟨hSeen, hSame⟩ := group_filter_eq_of_length hLen
    refine ⟨fun y ⟨v, hv⟩ hy => hSeen (y, v) hv hy, ?_⟩
    rw [hourSeen, hSame] at hr
    exact (step_isAggregateOf_iff hr).mp h
  · rintro ⟨hSeen, hUncorrelated⟩
    rw [group_hourSeen hSeen] at hr
    exact (step_isAggregateOf_iff hr).mpr hUncorrelated

/-- Faithful hour rows are what the day level would see if the hour level
aggregated the samples themselves. -/
theorem since_rolled1hour (h1min : db.samples1min = .empty) (h1hour : db.samples1hour = .empty)
    (hHour : ∀ k r, (rollupAndPurge ret now db).samples1hour.table.lookup k = some r →
      r.IsAggregateOf (rawValues db 3600 k)) :
    since (rolled1hour ret now db).table (now - ret.oneHour) =
      groupBy (Key.bucket 3600) aggregateSamples (daySeen ret now db) := by
  apply Table.ext_lookup
  intro k
  rw [lookup_groupBy, since, Table.lookup_filterKeys, group_daySeen]
  by_cases hk : now - ret.oneHour ≤ k.ts
  · simp only [hk, decide_true, if_true]
    cases hr : (rolled1hour ret now db).table.lookup k with
    | none =>
        rw [lookup_rolled1hour h1min h1hour, foldGroup_eq_none] at hr
        rw [eq_comm, foldGroup_eq_none, List.eq_nil_iff_forall_not_mem]
        intro x hx
        obtain ⟨p, hp, _⟩ := exists_lowerRow (w := 60) hx
        rw [hr] at hp
        cases hp
    | some r =>
        have hFaithful := hHour k r (by
          rw [rollupAndPurge_samples1hour, RollupTable.lookup_deleteBefore, if_pos hk, hr])
        have hSeen := ((hour_isAggregateOf_iff h1min h1hour hr).mp hFaithful).1
        rw [lookup_rolled1hour h1min h1hour, group_hourSeen hSeen] at hr
        rw [group_hourSeen hSeen]
        rw [rawValues] at hFaithful
        cases hGroup : group (Key.bucket 3600) k db.samples.rows with
        | nil =>
            rw [hGroup] at hr
            cases hr
        | cons x xs =>
            rw [hGroup, List.map_cons] at hFaithful
            rw [hFaithful.eq]
            rfl
  · simp [hk, foldGroup]

theorem lookup_rolled1day (h1min : db.samples1min = .empty) (h1hour : db.samples1hour = .empty)
    (h1day : db.samples1day = .empty)
    (hHour : ∀ k r, (rollupAndPurge ret now db).samples1hour.table.lookup k = some r →
      r.IsAggregateOf (rawValues db 3600 k)) (k : Key) :
    (rolled1day ret now db).table.lookup k =
      foldGroup aggregateRows (lowerRows 3600 (group (Key.bucket 86400) k (daySeen ret now db))) := by
  rw [rolled1day, lookup_rollInto, h1day, rollGroup, since_rolled1hour h1min h1hour hHour,
    group_groupBy]
  simp only [Key.bucket_bucket 3600 24]
  exact Option.or_none

/-- The day part of the condition, once the hour rows are faithful. -/
theorem day_isAggregateOf_iff (h1min : db.samples1min = .empty) (h1hour : db.samples1hour = .empty)
    (h1day : db.samples1day = .empty)
    (hHour : ∀ k r, (rollupAndPurge ret now db).samples1hour.table.lookup k = some r →
      r.IsAggregateOf (rawValues db 3600 k)) {k : Key} {r : RollupRow ℚ}
    (hr : (rolled1day ret now db).table.lookup k = some r) :
    r.IsAggregateOf (rawValues db 86400 k) ↔
      (∀ y, db.samples.Has y → y.bucket 86400 = k → SeenByDay ret now y) ∧
        Uncorrelated (bucketStats 3600 (group (Key.bucket 86400) k db.samples.rows)) := by
  have hStep := hr
  rw [lookup_rolled1day h1min h1hour h1day hHour] at hStep
  constructor
  · intro h
    have hLen : (group (Key.bucket 86400) k (daySeen ret now db)).length =
        (group (Key.bucket 86400) k db.samples.rows).length := by
      rw [← (step_counts hStep).1, h.1, rawValues, List.length_map]
    obtain ⟨hSeen, hSame⟩ := group_filter_eq_of_length hLen
    refine ⟨fun y ⟨v, hv⟩ hy => hSeen (y, v) hv hy, ?_⟩
    rw [daySeen, hSame] at hStep
    exact (step_isAggregateOf_iff hStep).mp h
  · rintro ⟨hSeen, hUncorrelated⟩
    have hSame : group (Key.bucket 86400) k (daySeen ret now db) =
        group (Key.bucket 86400) k db.samples.rows :=
      group_filter_eq fun x hx hxk => hSeen x.1 ⟨x.2, hx⟩ hxk
    rw [hSame] at hStep
    exact (step_isAggregateOf_iff hStep).mpr hUncorrelated

/-- A group has a row one level up exactly when it has a sample. -/
theorem exists_step_iff {w v : Nat} {k : Key} {xs : List (Key × ℚ)} :
    (∃ r, foldGroup aggregateRows (lowerRows w (group (Key.bucket v) k xs)) = some r) ↔
      ∃ x ∈ xs, x.1.bucket v = k := by
  constructor
  · rintro ⟨r, hr⟩
    cases hGroup : group (Key.bucket v) k xs with
    | nil => rw [hGroup] at hr; cases hr
    | cons x rest =>
        have hx : x ∈ group (Key.bucket v) k xs := by
          rw [hGroup]
          exact List.mem_cons_self
        exact ⟨x, mem_group.mp hx⟩
  · rintro ⟨x, hx, hxk⟩
    obtain ⟨p, hp, _⟩ := exists_lowerRow (w := w) (mem_group.mpr ⟨hx, hxk⟩)
    cases hRows : lowerRows w (group (Key.bucket v) k xs) with
    | nil => rw [hRows] at hp; cases hp
    | cons q qs => exact ⟨_, rfl⟩

/-- The samples that a pass sees have a bucket in common with one of the raw samples. -/
theorem exists_filter_iff {p : Key → Prop} [DecidablePred p] {w : Nat} {k : Key} :
    (∃ x ∈ db.samples.rows.filter (fun x => p x.1), x.1.bucket w = k) ↔
      ∃ x, db.samples.Has x ∧ p x ∧ x.bucket w = k := by
  constructor
  · rintro ⟨x, hx, hBucket⟩
    obtain ⟨hMem, hSeen⟩ := List.mem_filter.mp hx
    exact ⟨x.1, ⟨x.2, hMem⟩, of_decide_eq_true hSeen, hBucket⟩
  · rintro ⟨x, ⟨v, hMem⟩, hSeen, hBucket⟩
    exact ⟨(x, v), List.mem_filter.mpr ⟨hMem, decide_eq_true hSeen⟩, hBucket⟩

theorem exists_hourRow_iff (h1min : db.samples1min = .empty) (h1hour : db.samples1hour = .empty)
    {k : Key} : (∃ r, (rolled1hour ret now db).table.lookup k = some r) ↔
      ∃ x, db.samples.Has x ∧ SeenByHour ret now x ∧ x.bucket 3600 = k := by
  rw [lookup_rolled1hour h1min h1hour, exists_step_iff]
  exact exists_filter_iff

theorem exists_dayRow_iff (h1min : db.samples1min = .empty) (h1hour : db.samples1hour = .empty)
    (h1day : db.samples1day = .empty)
    (hHour : ∀ k r, (rollupAndPurge ret now db).samples1hour.table.lookup k = some r →
      r.IsAggregateOf (rawValues db 3600 k)) {k : Key} :
    (∃ r, (rolled1day ret now db).table.lookup k = some r) ↔
      ∃ x, db.samples.Has x ∧ SeenByDay ret now x ∧ x.bucket 86400 = k := by
  rw [lookup_rolled1day h1min h1hour h1day hHour, exists_step_iff]
  exact exists_filter_iff

end Pass

/-- A pass over raw samples alone leaves faithful hour and day rows exactly
when the samples are balanced: the unweighted `AVG(avg)` is the mean only there. -/
theorem faithfulRollups_iff_balanced (ret : Retention) (now : Int) (db : Db ℚ)
    (h1min : db.samples1min = .empty) (h1hour : db.samples1hour = .empty)
    (h1day : db.samples1day = .empty) :
    FaithfulRollups ret now db ↔ Balanced ret now db := by
  constructor
  · rintro ⟨hHour, hDay⟩ x hx hSeen
    constructor
    · obtain ⟨r, hr⟩ := (exists_hourRow_iff h1min h1hour).mpr ⟨x, hx, hSeen.1, rfl⟩
      apply (hour_isAggregateOf_iff h1min h1hour hr).mp
      apply hHour
      rw [rollupAndPurge_samples1hour, RollupTable.lookup_deleteBefore, if_pos hSeen.2, hr]
    · obtain ⟨r, hr⟩ := (exists_dayRow_iff h1min h1hour h1day hHour).mpr ⟨x, hx, hSeen, rfl⟩
      exact (day_isAggregateOf_iff h1min h1hour h1day hHour hr).mp (hDay _ _ hr)
  · intro hBalanced
    have hHour : ∀ k r, (rollupAndPurge ret now db).samples1hour.table.lookup k = some r →
        r.IsAggregateOf (rawValues db 3600 k) := by
      intro k r hr
      rw [rollupAndPurge_samples1hour, RollupTable.lookup_deleteBefore] at hr
      split_ifs at hr with hk
      obtain ⟨x, hx, hSeen, rfl⟩ := (exists_hourRow_iff h1min h1hour).mp ⟨r, hr⟩
      exact (hour_isAggregateOf_iff h1min h1hour hr).mpr (hBalanced x hx ⟨hSeen, hk⟩).1
    refine ⟨hHour, ?_⟩
    intro k r hr
    rw [rollupAndPurge_samples1day] at hr
    obtain ⟨x, hx, hSeen, rfl⟩ := (exists_dayRow_iff h1min h1hour h1day hHour).mp ⟨r, hr⟩
    exact (day_isAggregateOf_iff h1min h1hour h1day hHour hr).mpr (hBalanced x hx hSeen).2

/-- A database with these readings of one device and metric and nothing else. -/
def readings (vs : List (Nat × ℚ)) : Db ℚ :=
  { Db.empty with samples := Table.empty.insertAll (vs.map fun x => (⟨x.1, "bank", "soc_pct"⟩, x.2)) }

/-- One reading in each of two minutes. -/
theorem faithfulRollups_even_minutes :
    FaithfulRollups .default 120 (readings [(0, 60), (60, 62)]) := by
  refine (faithfulRollups_iff_balanced .default 120 (readings [(0, 60), (60, 62)])
    rfl rfl rfl).mpr ?_
  have hTs : ∀ x, (readings [(0, 60), (60, 62)]).samples.Has x →
      x = ⟨0, "bank", "soc_pct"⟩ ∨ x = ⟨60, "bank", "soc_pct"⟩ := by
    rintro x ⟨v, hv⟩
    change (x, v) ∈ [(⟨0, "bank", "soc_pct"⟩, 60), (⟨60, "bank", "soc_pct"⟩, 62)] at hv
    simp only [List.mem_cons, Prod.mk.injEq, List.not_mem_nil, or_false] at hv
    tauto
  intro x hx _
  have hBucket : x.bucket 3600 = ⟨0, "bank", "soc_pct"⟩ ∧ x.bucket 86400 = ⟨0, "bank", "soc_pct"⟩ := by
    rcases hTs x hx with rfl | rfl <;> decide
  have hSeen : ∀ y, (readings [(0, 60), (60, 62)]).samples.Has y → SeenByDay .default 120 y := by
    intro y hy
    rcases hTs y hy with rfl | rfl <;> decide
  rw [hBucket.1, hBucket.2]
  refine ⟨⟨fun y hy _ => (hSeen y hy).1, ?_⟩, fun y hy _ => hSeen y hy, ?_⟩
  · show _ = (0 : ℚ)
    decide +kernel
  · show _ = (0 : ℚ)
    decide +kernel

/-- Two readings of zero in one minute and a reading of three in the next: the
hour's average is stored as 3/2 where the mean of its samples is 1. -/
theorem uneven_minutes_shift_avg :
    (readings [(0, 0), (1, 0), (60, 3)]).samples1min = .empty ∧
    (readings [(0, 0), (1, 0), (60, 3)]).samples1hour = .empty ∧
    (readings [(0, 0), (1, 0), (60, 3)]).samples1day = .empty ∧
    (∀ k, (readings [(0, 0), (1, 0), (60, 3)]).samples.Has k → SeenByDay .default 120 k) ∧
    ¬ FaithfulRollups .default 120 (readings [(0, 0), (1, 0), (60, 3)]) := by
  refine ⟨rfl, rfl, rfl, ?_, ?_⟩
  · rintro k ⟨v, hv⟩
    change (k, v) ∈ [(⟨0, "bank", "soc_pct"⟩, 0), (⟨1, "bank", "soc_pct"⟩, 0),
      (⟨60, "bank", "soc_pct"⟩, 3)] at hv
    simp only [List.mem_cons, Prod.mk.injEq, List.not_mem_nil, or_false] at hv
    rcases hv with ⟨rfl, _⟩ | ⟨rfl, _⟩ | ⟨rfl, _⟩ <;> decide
  · rintro ⟨hHour, _⟩
    have hRow := hHour ⟨0, "bank", "soc_pct"⟩ ⟨3 / 2, 0, 3, 3⟩ (by decide +kernel)
    exact absurd hRow.2.2.2 (by decide +kernel)

end WattPost.Storage
