import WattPost.Storage.Schema

/-! `Store.rollup_and_purge` and the writes of `Store.record_poll`. The three
rollup levels are one `INSERT OR REPLACE ... SELECT ... GROUP BY` with their own
width, source, aggregate and cutoff. Each level re-rolls the source rows at or
after its cutoff; afterwards each source drops the rows before it. -/
namespace WattPost.Storage

open Keyed

section Aggregate

variable {V : Type} [SqlReal V]

/-- `AVG(value), MIN(value), MAX(value), COUNT(*)` of a group of samples. -/
def aggregateSamples (v : V) (vs : List V) : RollupRow V where
  avg := SqlReal.avg (v :: vs)
  min := vs.foldl min v
  max := vs.foldl max v
  n := (v :: vs).length

/-- `AVG(avg), MIN(min), MAX(max), SUM(n)` of a group of rollup rows. -/
def aggregateRows (r : RollupRow V) (rs : List (RollupRow V)) : RollupRow V where
  avg := SqlReal.avg ((r :: rs).map RollupRow.avg)
  min := (rs.map RollupRow.min).foldl min r.min
  max := (rs.map RollupRow.max).foldl max r.max
  n := ((r :: rs).map RollupRow.n).sum

/-- A sample seen as a row that aggregates itself alone. -/
def RollupRow.ofSample (v : V) : RollupRow V := ⟨v, v, v, 1⟩

theorem aggregateSamples_eq (v : V) (vs : List V) :
    aggregateSamples v vs = aggregateRows (.ofSample v) (vs.map .ofSample) := by
  simp [aggregateSamples, aggregateRows, RollupRow.ofSample, Function.comp_def, Nat.add_comm]

theorem aggregateRows_min (r : RollupRow V) (rs : List (RollupRow V)) :
    (∃ x ∈ r :: rs, (aggregateRows r rs).min = x.min) ∧
      ∀ x ∈ r :: rs, (aggregateRows r rs).min ≤ x.min := by
  have h : ((r :: rs).map RollupRow.min).min? = some (aggregateRows r rs).min := rfl
  obtain ⟨hMem, hLe⟩ := List.min?_eq_some_iff.mp h
  refine ⟨?_, fun x hx => hLe _ (List.mem_map_of_mem hx)⟩
  obtain ⟨x, hx, he⟩ := List.mem_map.mp hMem
  exact ⟨x, hx, he.symm⟩

theorem aggregateRows_max (r : RollupRow V) (rs : List (RollupRow V)) :
    (∃ x ∈ r :: rs, (aggregateRows r rs).max = x.max) ∧
      ∀ x ∈ r :: rs, x.max ≤ (aggregateRows r rs).max := by
  have h : ((r :: rs).map RollupRow.max).max? = some (aggregateRows r rs).max := rfl
  obtain ⟨hMem, hLe⟩ := List.max?_eq_some_iff.mp h
  refine ⟨?_, fun x hx => hLe _ (List.mem_map_of_mem hx)⟩
  obtain ⟨x, hx, he⟩ := List.mem_map.mp hMem
  exact ⟨x, hx, he.symm⟩

end Aggregate

section Level

variable {V R : Type} (w : Nat) (agg : R → List R → RollupRow V)

/-- The rows of the source that a level re-rolls: `WHERE ts >= c`. -/
def since (src : Table Key R) (c : Int) : Table Key R := src.filterKeys (fun k => c ≤ k.ts)

theorem has_since {src : Table Key R} {c : Int} {k : Key} :
    (since src c).Has k ↔ src.Has k ∧ c ≤ k.ts := by
  simp [since, Table.has_filterKeys]

/-- The `SELECT` of one level: bucket, group and aggregate. -/
def rollSelect (src : Table Key R) (c : Int) : Table Key (RollupRow V) :=
  groupBy (Key.bucket w) agg (since src c).rows

/-- The source rows that a level counts in the target row with key `k`. -/
def rollGroup (src : Table Key R) (c : Int) (k : Key) : List (Key × R) :=
  group (Key.bucket w) k (since src c).rows

/-- One rollup level. -/
def rollInto (src : Table Key R) (c : Int) (dst : RollupTable w V) : RollupTable w V where
  table := dst.table.replaceWith (rollSelect w agg src c)
  aligned k h := by
    rcases Table.has_replaceWith.mp h with h | h
    · exact dst.aligned k h
    · obtain ⟨x, _, rfl⟩ := has_groupBy.mp h
      exact Nat.dvd_mul_left _ _

variable {w agg}

theorem mem_rollGroup {src : Table Key R} {c : Int} {k : Key} {x : Key × R} :
    x ∈ rollGroup w src c k ↔ x ∈ src.rows ∧ c ≤ x.1.ts ∧ x.1.bucket w = k := by
  simp [rollGroup, mem_group, since, and_assoc]

/-- A target row is replaced exactly when its bucket has a re-rolled source row. -/
theorem lookup_rollInto (src : Table Key R) (c : Int) (dst : RollupTable w V) (k : Key) :
    (rollInto w agg src c dst).table.lookup k =
      (foldGroup agg (rollGroup w src c k)).or (dst.table.lookup k) := by
  rw [rollInto, Table.lookup_replaceWith, rollSelect, lookup_groupBy, rollGroup]

theorem has_rollInto {src : Table Key R} {c : Int} {dst : RollupTable w V} {k : Key} :
    (rollInto w agg src c dst).table.Has k ↔
      dst.table.Has k ∨ ∃ x, src.Has x ∧ c ≤ x.ts ∧ x.bucket w = k := by
  rw [rollInto, Table.has_replaceWith, rollSelect, has_groupBy]
  constructor
  · rintro (h | ⟨x, hx, hk⟩)
    · exact Or.inl h
    · obtain ⟨h, hc⟩ := has_since.mp ⟨x.2, hx⟩
      exact Or.inr ⟨x.1, h, hc, hk⟩
  · rintro (h | ⟨x, hx, hc, hk⟩)
    · exact Or.inl h
    · obtain ⟨r, hr⟩ := has_since.mpr ⟨hx, hc⟩
      exact Or.inr ⟨(x, r), hr, hk⟩

/-- A level depends only on the source rows at or after its cutoff. -/
theorem rollInto_congr {src src' : Table Key R} {c : Int} (h : since src' c = since src c)
    (dst : RollupTable w V) : rollInto w agg src' c dst = rollInto w agg src c dst := by
  simp only [rollInto, rollSelect, h]

/-- Rolling the same source rows again replaces each row by itself. -/
theorem rollInto_again {src src' : Table Key R} {c : Int} (h : since src' c = since src c)
    (dst : RollupTable w V) :
    rollInto w agg src' c (rollInto w agg src c dst) = rollInto w agg src c dst := by
  rw [rollInto_congr h]
  apply RollupTable.ext_lookup
  intro k
  rw [lookup_rollInto, lookup_rollInto, ← Option.or_assoc, Option.or_self]

/-- The same with the target purged in between: what the second roll brings
back below the target's own cutoff is deleted again. -/
theorem rollInto_deleteBefore_again {src src' : Table Key R} {c : Int}
    (h : since src' c = since src c) (p : Int) (dst : RollupTable w V) :
    (rollInto w agg src' c ((rollInto w agg src c dst).deleteBefore p)).deleteBefore p =
      (rollInto w agg src c dst).deleteBefore p := by
  rw [rollInto_congr h]
  apply RollupTable.ext_lookup
  intro k
  simp only [RollupTable.lookup_deleteBefore, lookup_rollInto]
  split_ifs with hp
  · rw [← Option.or_assoc, Option.or_self]
  · rfl

end Level

/-! ### Maintenance -/

section Maintenance

variable {V : Type} [SqlReal V]

/-- `samples_1min` after `samples` is rolled up into it. -/
def rolled1min (ret : Retention) (now : Int) (db : Db V) : RollupTable 60 V :=
  rollInto 60 aggregateSamples db.samples (now - ret.raw) db.samples1min

/-- `samples_1hour` after the new `samples_1min` is rolled up into it. -/
def rolled1hour (ret : Retention) (now : Int) (db : Db V) : RollupTable 3600 V :=
  rollInto 3600 aggregateRows (rolled1min ret now db).table (now - ret.oneMin) db.samples1hour

/-- `samples_1day` after the new `samples_1hour` is rolled up into it. -/
def rolled1day (ret : Retention) (now : Int) (db : Db V) : RollupTable 86400 V :=
  rollInto 86400 aggregateRows (rolled1hour ret now db).table (now - ret.oneHour) db.samples1day

/-- `Store.rollup_and_purge`, without the row counts that it logs: the three
levels, one after the other, and then the purges. -/
def rollupAndPurge (ret : Retention) (now : Int) (db : Db V) : Db V :=
  { db with
    samples1min := (rolled1min ret now db).deleteBefore (now - ret.oneMin)
    samples1hour := (rolled1hour ret now db).deleteBefore (now - ret.oneHour)
    samples1day := rolled1day ret now db
    samples := since db.samples (now - ret.raw)
    samplesStr := db.samplesStr.filterKeys (fun k => now - ret.raw ≤ k.ts)
    pollRuns := db.pollRuns.filterKeys (fun ts => now - 30 * 86400 ≤ ts)
    hostSamples := db.hostSamples.filter (fun h => now - 30 * 86400 ≤ h.ts)
    forecastHistory := db.forecastHistory.filterKeys
      (fun k => now - 30 * 86400 ≤ (ofLex k).2) }

section Fields

variable (ret : Retention) (now : Int) (db : Db V)

@[simp] theorem rollupAndPurge_samples :
    (rollupAndPurge ret now db).samples = since db.samples (now - ret.raw) := rfl

@[simp] theorem rollupAndPurge_samples1min : (rollupAndPurge ret now db).samples1min =
    (rolled1min ret now db).deleteBefore (now - ret.oneMin) := rfl

@[simp] theorem rollupAndPurge_samples1hour : (rollupAndPurge ret now db).samples1hour =
    (rolled1hour ret now db).deleteBefore (now - ret.oneHour) := rfl

@[simp] theorem rollupAndPurge_samples1day :
    (rollupAndPurge ret now db).samples1day = rolled1day ret now db := rfl

end Fields

theorem filterKeys_idem {K R : Type} [LinearOrder K] (t : Table K R) (p : K → Bool) :
    (t.filterKeys p).filterKeys p = t.filterKeys p := by
  apply Table.ext_lookup
  intro k
  by_cases hp : p k = true <;> simp [hp]

omit [SqlReal V] in
theorem since_deleteBefore {w : Nat} (t : RollupTable w V) (c : Int) :
    since (t.deleteBefore c).table c = since t.table c :=
  filterKeys_idem t.table (fun k => c ≤ k.ts)

/-- The docstring's promise: running the maintenance pass twice at one time
leaves every table as running it once, whatever the order of the retention
windows. -/
theorem rollupAndPurge_idempotent (ret : Retention) (now : Int) (db : Db V) :
    rollupAndPurge ret now (rollupAndPurge ret now db) = rollupAndPurge ret now db := by
  have hRaw : since (since db.samples (now - ret.raw)) (now - ret.raw) =
      since db.samples (now - ret.raw) := filterKeys_idem _ _
  have hMin : (rolled1min ret now (rollupAndPurge ret now db)).deleteBefore (now - ret.oneMin) =
      (rolled1min ret now db).deleteBefore (now - ret.oneMin) :=
    rollInto_deleteBefore_again hRaw _ _
  -- the hour level sees the same minute rows in both runs, since it reads
  -- only those that the purge keeps
  have hMinSrc : since (rolled1min ret now (rollupAndPurge ret now db)).table (now - ret.oneMin) =
      since (rolled1min ret now db).table (now - ret.oneMin) := by
    rw [← since_deleteBefore, hMin, since_deleteBefore]
  have hHour : (rolled1hour ret now (rollupAndPurge ret now db)).deleteBefore (now - ret.oneHour) =
      (rolled1hour ret now db).deleteBefore (now - ret.oneHour) :=
    rollInto_deleteBefore_again hMinSrc _ _
  have hHourSrc :
      since (rolled1hour ret now (rollupAndPurge ret now db)).table (now - ret.oneHour) =
        since (rolled1hour ret now db).table (now - ret.oneHour) := by
    rw [← since_deleteBefore, hHour, since_deleteBefore]
  have hDay : rolled1day ret now (rollupAndPurge ret now db) = rolled1day ret now db :=
    rollInto_again hHourSrc _
  rw [rollupAndPurge, hMin, hHour, hDay]
  simp only [rollupAndPurge, filterKeys_idem, hRaw, List.filter_filter, Bool.and_self]

end Maintenance

/-! ### Polls -/

variable {V : Type}

/-- The rows that `record_poll` has gathered when it starts to write. They
carry one timestamp. `num` is `num_rows` and feeds `latest` too, as `str` does. -/
structure PollRows (V : Type) where
  ts : Nat
  num : List (String × String × V)
  str : List (String × String × String)
  deviceMeta : List (String × String × String × Option Int)
  run : PollRun

/-- `INSERT INTO device_meta ... ON CONFLICT(device) DO UPDATE SET last_seen`. -/
def touchDevice (ts : Nat) (t : Table String DeviceMeta)
    (row : String × String × String × Option Int) : Table String DeviceMeta :=
  match t.lookup row.1 with
  | some old => t.insert row.1 { old with lastSeen := ts }
  | none => t.insert row.1 ⟨row.2.1, row.2.2.1, row.2.2.2, ts, ts⟩

/-- The rows of `num_rows` with their primary keys. -/
def PollRows.sampleRows (p : PollRows V) : List (Key × V) :=
  p.num.map fun x => (⟨p.ts, x.1, x.2.1⟩, x.2.2)

/-- The transaction at the end of `Store.record_poll`. -/
def recordPoll (p : PollRows V) (db : Db V) : Db V :=
  { db with
    samples := db.samples.insertAll p.sampleRows
    samplesStr := db.samplesStr.insertAll (p.str.map fun x => (⟨p.ts, x.1, x.2.1⟩, x.2.2))
    latest := (db.latest.insertAll
        (p.num.map fun x => (toLex (x.1, x.2.1), ⟨p.ts, some x.2.2, none⟩))).insertAll
          (p.str.map fun x => (toLex (x.1, x.2.1), ⟨p.ts, none, some x.2.2⟩))
    deviceMeta := p.deviceMeta.foldl (touchDevice p.ts) db.deviceMeta
    pollRuns := db.pollRuns.insert p.ts p.run }

end WattPost.Storage
