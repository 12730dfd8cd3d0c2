import WattPost.Storage.RollupBeforePurge

/-! What a rollup row keeps covering. A pass replaces a row by the aggregate of
the source rows at or after the cutoff, so a row can lose what it covered when
the cutoff falls inside its bucket. Away from such buckets the rows of each
level only grow: later passes count at least as much and over at least the same
range of values. -/
namespace WattPost.Storage

open Keyed

variable {V : Type} [SqlReal V]

/-- The later row counts as many samples and spans the earlier row's range. -/
def RollupRow.CoveredBy (r r' : RollupRow V) : Prop :=
  r.n ≤ r'.n ∧ r'.min ≤ r.min ∧ r.max ≤ r'.max

theorem RollupRow.CoveredBy.refl (r : RollupRow V) : r.CoveredBy r :=
  ⟨le_refl _, le_refl _, le_refl _⟩

theorem RollupRow.CoveredBy.trans {a b c : RollupRow V} (hab : a.CoveredBy b)
    (hbc : b.CoveredBy c) : a.CoveredBy c :=
  ⟨hab.1.trans hbc.1, hbc.2.1.trans hab.2.1, hab.2.2.trans hbc.2.2⟩

/-! ### One level -/

/-- A time before the last cutoff, if there was one. -/
def Cut (last : Option Int) (t : Nat) : Prop := ∃ c ∈ last, (t : Int) < c

section Level

variable {R : Type} {w : Nat} {agg : R → List R → RollupRow V} {stat : R → RollupRow V}

/-- Matching every row of a group by a row that covers it makes the aggregate
of the one cover the aggregate of the other. -/
theorem foldGroup_coveredBy (hAgg : ∀ r rs, agg r rs = aggregateRows (stat r) (rs.map stat))
    {xs ys : List (Key × R)} (hx : xs.Pairwise KeyLt)
    (h : ∀ x ∈ xs, ∃ r, (x.1, r) ∈ ys ∧ (stat x.2).CoveredBy (stat r)) {a : RollupRow V}
    (ha : foldGroup agg xs = some a) : ∃ b, foldGroup agg ys = some b ∧ a.CoveredBy b := by
  obtain ⟨x, xs', rfl⟩ : ∃ x xs', xs = x :: xs' := by
    cases xs with
    | nil => cases ha
    | cons x xs' => exact ⟨x, xs', rfl⟩
  obtain ⟨y, ys', rfl⟩ : ∃ y ys', ys = y :: ys' := by
    obtain ⟨r, hr, _⟩ := h x List.mem_cons_self
    cases ys with
    | nil => cases hr
    | cons y ys' => exact ⟨y, ys', rfl⟩
  simp only [foldGroup, Option.some.injEq] at ha
  subst ha
  refine ⟨_, rfl, ?_⟩
  have hStat : ∀ (z : Key × R) (zs : List (Key × R)),
      stat z.2 :: (zs.map Prod.snd).map stat = (z :: zs).map (fun z => stat z.2) := by simp
  rw [hAgg, hAgg]
  refine ⟨?_, ?_, ?_⟩
  · have hSum := sum_map_le_of_match (fun r => (stat r).n) (fun r => (stat r).n)
      (hx.imp fun hab => ne_of_lt hab)
      (fun x hx => (h x hx).imp fun r hr => ⟨hr.1, hr.2.1⟩)
    simpa [aggregateRows, Function.comp_def] using hSum
  · obtain ⟨u, hu, he⟩ := (aggregateRows_min (stat x.2) ((xs'.map Prod.snd).map stat)).1
    rw [hStat] at hu
    obtain ⟨z, hz, rfl⟩ := List.mem_map.mp hu
    obtain ⟨r, hr, hCov⟩ := h z hz
    rw [he]
    refine ((aggregateRows_min (stat y.2) ((ys'.map Prod.snd).map stat)).2 _ ?_).trans hCov.2.1
    rw [hStat]
    exact List.mem_map_of_mem (f := fun z => stat z.2) hr
  · obtain ⟨u, hu, he⟩ := (aggregateRows_max (stat x.2) ((xs'.map Prod.snd).map stat)).1
    rw [hStat] at hu
    obtain ⟨z, hz, rfl⟩ := List.mem_map.mp hu
    obtain ⟨r, hr, hCov⟩ := h z hz
    rw [he]
    refine hCov.2.2.trans ((aggregateRows_max (stat y.2) ((ys'.map Prod.snd).map stat)).2 _ ?_)
    rw [hStat]
    exact List.mem_map_of_mem (f := fun z => stat z.2) hr

/-- Each target row is covered by what its bucket still holds in the source,
or its bucket has been cut and nothing at or after the last cutoff is left. -/
def LevelInv (agg : R → List R → RollupRow V) (src : Table Key R) (dst : RollupTable w V)
    (last : Option Int) : Prop :=
  ∀ k r, dst.table.lookup k = some r →
    (∃ a, foldGroup agg (group (Key.bucket w) k src.rows) = some a ∧ r.CoveredBy a) ∨
      (Cut last k.ts ∧ ∀ x, src.Has x → x.bucket w = k → Cut last x.ts)

/-- No target row selected by `keep` has source rows on both sides of the cutoff. -/
def WholeBuckets (w : Nat) (src : Key → Prop) (c : Int) (keep : Key → Prop) : Prop :=
  ∀ k, keep k → (∃ x, src x ∧ x.bucket w = k ∧ (x.ts : Int) < c) →
    ¬ ∃ y, src y ∧ y.bucket w = k ∧ c ≤ y.ts

/-- How the source of a level changes up to its next re-roll: it keeps its
keys, the rows at or after the new cutoff grow, and a new row does not lie
behind the last cutoff in a bucket that this cutoff has cut. -/
structure Grows (w : Nat) (stat : R → RollupRow V) (last : Option Int) (c : Int)
    (src src' : Table Key R) : Prop where
  keys : ∀ x, src.Has x → src'.Has x
  rows : ∀ x r, src.lookup x = some r → c ≤ x.ts →
    ∃ r', src'.lookup x = some r' ∧ (stat r).CoveredBy (stat r')
  new : ∀ x, src'.Has x → c ≤ x.ts → ¬ src.Has x → Cut last (x.bucket w).ts → Cut last x.ts

theorem Grows.refl (last : Option Int) (c : Int) (src : Table Key R) :
    Grows w stat last c src src :=
  ⟨fun _ h => h, fun _ r h _ => ⟨r, h, .refl _⟩, fun _ h _ hn => absurd h hn⟩

variable {src src' : Table Key R} {dst : RollupTable w V} {last : Option Int} {c : Int}

/-- The rows of a whole bucket that is re-rolled are all at or after the cutoff. -/
theorem LevelInv.roll_coveredBy
    (hAgg : ∀ r rs, agg r rs = aggregateRows (stat r) (rs.map stat))
    (h : LevelInv agg src dst last) (hGrows : Grows w stat last c src src')
    (hLast : ∀ l ∈ last, l ≤ c) {keep : Key → Prop} (hWhole : WholeBuckets w src'.Has c keep)
    {k : Key} (hKeep : keep k) {r : RollupRow V} (hr : dst.table.lookup k = some r) :
    ∃ r', (rollInto w agg src' c dst).table.lookup k = some r' ∧ r.CoveredBy r' := by
  rw [lookup_rollInto, hr]
  cases hGroup : rollGroup w src' c k with
  | nil => exact ⟨r, rfl, .refl r⟩
  | cons y ys =>
      have hy : y ∈ rollGroup w src' c k := by rw [hGroup]; exact List.mem_cons_self
      obtain ⟨hyMem, hyc, hyk⟩ := mem_rollGroup.mp hy
      have hHigh : ∃ y, src'.Has y ∧ y.bucket w = k ∧ c ≤ y.ts := ⟨y.1, ⟨y.2, hyMem⟩, hyk, hyc⟩
      rcases h k r hr with ⟨a, ha, hra⟩ | ⟨hCut, hCutAll⟩
      · have hMatch : ∀ x ∈ group (Key.bucket w) k src.rows,
            ∃ r', (x.1, r') ∈ rollGroup w src' c k ∧ (stat x.2).CoveredBy (stat r') := by
          intro x hx
          obtain ⟨hxMem, hxk⟩ := mem_group.mp hx
          have hxc : c ≤ x.1.ts := by
            by_contra hlt
            exact hWhole k hKeep ⟨x.1, hGrows.keys _ ⟨x.2, hxMem⟩, hxk, not_le.mp hlt⟩ hHigh
          obtain ⟨r', hr', hCov⟩ := hGrows.rows x.1 x.2 (Table.lookup_eq_some_iff.mpr hxMem) hxc
          exact ⟨r', mem_rollGroup.mpr ⟨Table.lookup_eq_some_iff.mp hr', hxc, hxk⟩, hCov⟩
        obtain ⟨b, hb, hab⟩ := foldGroup_coveredBy hAgg (src.sorted.filter _) hMatch ha
        refine ⟨b, ?_, hra.trans hab⟩
        rw [← hGroup, hb]
        rfl
      · have hyCut : Cut last y.1.ts := by
          by_cases hOld : src.Has y.1
          · exact hCutAll y.1 hOld hyk
          · exact hGrows.new y.1 ⟨y.2, hyMem⟩ hyc hOld (hyk ▸ hCut)
        obtain ⟨l, hl, hlt⟩ := hyCut
        have := hLast l hl
        omega

/-- A re-roll and the purge of the source restore the invariant at the new cutoff. -/
theorem LevelInv.roll (h : LevelInv agg src dst last) (hKeys : ∀ x, src.Has x → src'.Has x)
    (hLast : ∀ l ∈ last, l ≤ c) :
    LevelInv agg (since src' c) (rollInto w agg src' c dst) (some c) := by
  intro k r hr
  rw [lookup_rollInto] at hr
  cases hGroup : foldGroup agg (rollGroup w src' c k) with
  | some a =>
      rw [hGroup, Option.some_or, Option.some.injEq] at hr
      subst hr
      exact Or.inl ⟨a, hGroup, .refl a⟩
  | none =>
      rw [hGroup, Option.none_or] at hr
      rw [foldGroup_eq_none] at hGroup
      have hEmpty : ∀ x, src'.Has x → x.bucket w = k → (x.ts : Int) < c := by
        rintro x ⟨v, hv⟩ hxk
        by_contra hlt
        have hm : (x, v) ∈ rollGroup w src' c k := mem_rollGroup.mpr ⟨hv, not_lt.mp hlt, hxk⟩
        rw [hGroup] at hm
        cases hm
      refine Or.inr ⟨⟨c, rfl, ?_⟩, fun x hx hxk => ⟨c, rfl, hEmpty x (has_since.mp hx).1 hxk⟩⟩
      rcases h k r hr with ⟨a, ha, _⟩ | ⟨⟨l, hl, hlt⟩, _⟩
      · cases hOld : group (Key.bucket w) k src.rows with
        | nil => rw [hOld] at ha; cases ha
        | cons x xs =>
            have hx : x ∈ group (Key.bucket w) k src.rows := by
              rw [hOld]; exact List.mem_cons_self
            obtain ⟨hxMem, hxk⟩ := mem_group.mp hx
            have hxc := hEmpty x.1 (hKeys _ ⟨x.2, hxMem⟩) hxk
            have hle := Key.bucket_ts_le w x.1
            rw [hxk] at hle
            omega
      · have := hLast l hl
        omega

/-- Between passes a growing source keeps the invariant. -/
theorem LevelInv.grow (hAgg : ∀ r rs, agg r rs = aggregateRows (stat r) (rs.map stat))
    (h : LevelInv agg src dst last)
    (hRows : ∀ x r, src.lookup x = some r →
      ∃ r', src'.lookup x = some r' ∧ (stat r).CoveredBy (stat r'))
    (hNew : ∀ x, src'.Has x → ¬ src.Has x → Cut last (x.bucket w).ts → Cut last x.ts) :
    LevelInv agg src' dst last := by
  intro k r hr
  rcases h k r hr with ⟨a, ha, hra⟩ | ⟨hCut, hCutAll⟩
  · have hMatch : ∀ x ∈ group (Key.bucket w) k src.rows,
        ∃ r', (x.1, r') ∈ group (Key.bucket w) k src'.rows ∧ (stat x.2).CoveredBy (stat r') := by
      intro x hx
      obtain ⟨hxMem, hxk⟩ := mem_group.mp hx
      obtain ⟨r', hr', hCov⟩ := hRows x.1 x.2 (Table.lookup_eq_some_iff.mpr hxMem)
      exact ⟨r', mem_group.mpr ⟨Table.lookup_eq_some_iff.mp hr', hxk⟩, hCov⟩
    obtain ⟨b, hb, hab⟩ := foldGroup_coveredBy hAgg (src.sorted.filter _) hMatch ha
    exact Or.inl ⟨b, hb, hra.trans hab⟩
  · refine Or.inr ⟨hCut, fun x hx hxk => ?_⟩
    by_cases hOld : src.Has x
    · exact hCutAll x hOld hxk
    · exact hNew x hx hOld (hxk ▸ hCut)

/-- Deleting target rows keeps the invariant. -/
theorem LevelInv.deleteBefore (h : LevelInv agg src dst last) (p : Int) :
    LevelInv agg src (dst.deleteBefore p) last := by
  intro k r hr
  rw [RollupTable.lookup_deleteBefore] at hr
  split_ifs at hr with hp
  exact h k r hr

end Level

/-! ### Runs -/

/-- The time of the last maintenance pass. -/
def lastPass (ops : List (StoreOp V)) : Option Int :=
  ops.foldl (fun acc op =>
    match op with
    | .rollupAndPurge now => some now
    | _ => acc) none

/-- Passes at nondecreasing times under fixed retention settings. -/
def InOrder (before : List (StoreOp V)) (_ : Store V) : StoreOp V → Prop
  | .recordPoll _ => True
  | .rollupAndPurge now => ∀ l ∈ lastPass before, l ≤ now
  | .setRetentionPolicy .. => False

/-- The bucket of the source row starts before the cutoff and the row does not. -/
def Straddles (w : Nat) (c : Int) (k : Key) : Prop := ((k.bucket w).ts : Int) < c ∧ c ≤ k.ts

instance (w : Nat) (c : Int) (k : Key) : Decidable (Straddles w c k) :=
  inferInstanceAs (Decidable (_ ∧ _))

/-- A sample recorded after a pass at `l` is too old ever to be rolled up, or
the cutoffs of that pass have cut none of the buckets that will count it. -/
def NotLate (ret : Retention) (l : Int) (k : Key) : Prop :=
  l - ret.raw ≤ k.ts →
    ¬ Straddles 60 (l - ret.raw) k ∧ ¬ Straddles 3600 (l - ret.oneMin) (k.bucket 60) ∧
      ¬ Straddles 86400 (l - ret.oneHour) (k.bucket 3600)

/-- The minutes that have a row once a pass at `now` has rolled up `samples`. -/
def MinuteKey (ret : Retention) (now : Int) (db : Db V) (k : Key) : Prop :=
  db.samples1min.table.Has k ∨ ∃ x, db.samples.Has x ∧ now - ret.raw ≤ x.ts ∧ x.bucket 60 = k

/-- The hours that have a row once those minutes are rolled up. -/
def HourKey (ret : Retention) (now : Int) (db : Db V) (k : Key) : Prop :=
  db.samples1hour.table.Has k ∨
    ∃ x, MinuteKey ret now db x ∧ now - ret.oneMin ≤ x.ts ∧ x.bucket 3600 = k

/-- The condition on one operation. A poll neither overwrites a stored sample
with another value nor adds a sample to a bucket that a cutoff has cut. A pass
finds no row that it keeps with source rows on both sides of the cutoff. -/
def KeepsBucketsWhole (before : List (StoreOp V)) (s : Store V) : StoreOp V → Prop
  | .recordPoll p => ∀ x ∈ p.sampleRows,
      (∀ v, s.db.samples.lookup x.1 = some v → v = x.2) ∧
        (¬ s.db.samples.Has x.1 → ∀ l ∈ lastPass before, NotLate s.ret l x.1)
  | .rollupAndPurge now =>
      WholeBuckets 60 s.db.samples.Has (now - s.ret.raw)
        (fun k => s.db.samples1min.table.Has k ∧ now - s.ret.oneMin ≤ k.ts) ∧
      WholeBuckets 3600 (MinuteKey s.ret now s.db) (now - s.ret.oneMin)
        (fun k => s.db.samples1hour.table.Has k ∧ now - s.ret.oneHour ≤ k.ts) ∧
      WholeBuckets 86400 (HourKey s.ret now s.db) (now - s.ret.oneHour) s.db.samples1day.table.Has
  | .setRetentionPolicy .. => True

/-- From one pass to the next, each row that stays in its table keeps covering
what it covered. -/
def RowsKeepCovering (db db' : Db V) : Prop :=
  (∀ k r r', db.samples1min.table.lookup k = some r → db'.samples1min.table.lookup k = some r' →
    r.CoveredBy r') ∧
  (∀ k r r', db.samples1hour.table.lookup k = some r →
    db'.samples1hour.table.lookup k = some r' → r.CoveredBy r') ∧
  (∀ k r r', db.samples1day.table.lookup k = some r → db'.samples1day.table.lookup k = some r' →
    r.CoveredBy r')

/-- The level invariants, and what the last pass has left no work for: inside
a bucket that it has cut, everything it could roll up has its row. -/
structure CoverInv (ret : Retention) (last : Option Int) (db : Db V) : Prop where
  oneMin : LevelInv aggregateSamples db.samples db.samples1min (last.map (· - ret.raw))
  oneHour : LevelInv aggregateRows db.samples1min.table db.samples1hour (last.map (· - ret.oneMin))
  oneDay : LevelInv aggregateRows db.samples1hour.table db.samples1day (last.map (· - ret.oneHour))
  minutes : ∀ l ∈ last, ∀ x, db.samples.Has x → l - ret.raw ≤ x.ts →
    Straddles 3600 (l - ret.oneMin) (x.bucket 60) → db.samples1min.table.Has (x.bucket 60)
  hours : ∀ l ∈ last, ∀ x, db.samples.Has x → l - ret.raw ≤ x.ts →
    l - ret.oneMin ≤ (x.bucket 60).ts → Straddles 86400 (l - ret.oneHour) (x.bucket 3600) →
      db.samples1hour.table.Has (x.bucket 3600)
  minuteHours : ∀ l ∈ last, ∀ x, db.samples1min.table.Has x →
    Straddles 86400 (l - ret.oneHour) (x.bucket 3600) → db.samples1hour.table.Has (x.bucket 3600)

theorem cut_map {last : Option Int} {d : Int} {t : Nat} :
    Cut (last.map (· - d)) t ↔ ∃ l ∈ last, (t : Int) < l - d := by
  simp [Cut]

section Pass

variable {ret : Retention} {last : Option Int} {db : Db V} {now : Int}

theorem has_rolled1min {k : Key} :
    (rolled1min ret now db).table.Has k ↔ MinuteKey ret now db k := has_rollInto

theorem has_rolled1hour {k : Key} :
    (rolled1hour ret now db).table.Has k ↔ HourKey ret now db k := by
  simp only [rolled1hour, has_rollInto, has_rolled1min, HourKey]

theorem wholeBuckets_congr {w : Nat} {src src' : Key → Prop} (h : ∀ k, src' k ↔ src k) {c : Int}
    {keep : Key → Prop} (hWhole : WholeBuckets w src c keep) : WholeBuckets w src' c keep := by
  have : src' = src := funext fun k => propext (h k)
  rwa [this]

theorem last_map_le (hLast : ∀ l ∈ last, l ≤ now) (d : Int) :
    ∀ l ∈ last.map (· - d), l ≤ now - d := by
  intro l hl
  obtain ⟨l', hl', rfl⟩ := Option.mem_map.mp hl
  have := hLast l' hl'
  omega

theorem aggregateRows_id (r : RollupRow V) (rs : List (RollupRow V)) :
    aggregateRows r rs = aggregateRows (id r) (rs.map id) := by simp

/-- A kept minute row is covered by its re-roll. -/
theorem CoverInv.oneMin_pass (h : CoverInv ret last db) (hLast : ∀ l ∈ last, l ≤ now)
    (hWhole : WholeBuckets 60 db.samples.Has (now - ret.raw)
      (fun k => db.samples1min.table.Has k ∧ now - ret.oneMin ≤ k.ts))
    {k : Key} (hk : now - ret.oneMin ≤ k.ts) {r : RollupRow V}
    (hr : db.samples1min.table.lookup k = some r) :
    ∃ r', (rolled1min ret now db).table.lookup k = some r' ∧ r.CoveredBy r' :=
  h.oneMin.roll_coveredBy aggregateSamples_eq (.refl _ _ _) (last_map_le hLast _) hWhole
    ⟨Table.has_iff_lookup.mpr ⟨r, hr⟩, hk⟩ hr

theorem CoverInv.minutes_grow (h : CoverInv ret last db) (hLast : ∀ l ∈ last, l ≤ now)
    (hWhole : WholeBuckets 60 db.samples.Has (now - ret.raw)
      (fun k => db.samples1min.table.Has k ∧ now - ret.oneMin ≤ k.ts)) :
    Grows 3600 id (last.map (· - ret.oneMin)) (now - ret.oneMin) db.samples1min.table
      (rolled1min ret now db).table where
  keys x hx := has_rolled1min.mpr (Or.inl hx)
  rows x r hr hx := h.oneMin_pass hLast hWhole hx hr
  new x hx hxc hNew hCut := by
    obtain ⟨l, hl, hlt⟩ := cut_map.mp hCut
    refine cut_map.mpr ⟨l, hl, ?_⟩
    by_contra hge
    rcases has_rolled1min.mp hx with hOld | ⟨y, hy, hyc, rfl⟩
    · exact hNew hOld
    · have := hLast l hl
      exact hNew (h.minutes l hl y hy (by omega) ⟨hlt, not_lt.mp hge⟩)

/-- A kept hour row is covered by its re-roll. -/
theorem CoverInv.oneHour_pass (h : CoverInv ret last db) (hLast : ∀ l ∈ last, l ≤ now)
    (hWhole : WholeBuckets 60 db.samples.Has (now - ret.raw)
      (fun k => db.samples1min.table.Has k ∧ now - ret.oneMin ≤ k.ts))
    (hWholeHour : WholeBuckets 3600 (MinuteKey ret now db) (now - ret.oneMin)
      (fun k => db.samples1hour.table.Has k ∧ now - ret.oneHour ≤ k.ts))
    {k : Key} (hk : now - ret.oneHour ≤ k.ts) {r : RollupRow V}
    (hr : db.samples1hour.table.lookup k = some r) :
    ∃ r', (rolled1hour ret now db).table.lookup k = some r' ∧ r.CoveredBy r' :=
  h.oneHour.roll_coveredBy aggregateRows_id (h.minutes_grow hLast hWhole) (last_map_le hLast _)
    (wholeBuckets_congr (fun _ => has_rolled1min) hWholeHour)
    ⟨Table.has_iff_lookup.mpr ⟨r, hr⟩, hk⟩ hr

theorem CoverInv.hours_grow (h : CoverInv ret last db) (hLast : ∀ l ∈ last, l ≤ now)
    (hWhole : WholeBuckets 60 db.samples.Has (now - ret.raw)
      (fun k => db.samples1min.table.Has k ∧ now - ret.oneMin ≤ k.ts))
    (hWholeHour : WholeBuckets 3600 (MinuteKey ret now db) (now - ret.oneMin)
      (fun k => db.samples1hour.table.Has k ∧ now - ret.oneHour ≤ k.ts)) :
    Grows 86400 id (last.map (· - ret.oneHour)) (now - ret.oneHour) db.samples1hour.table
      (rolled1hour ret now db).table where
  keys x hx := has_rolled1hour.mpr (Or.inl hx)
  rows x r hr hx := h.oneHour_pass hLast hWhole hWholeHour hx hr
  new x hx hxc hNew hCut := by
    obtain ⟨l, hl, hlt⟩ := cut_map.mp hCut
    refine cut_map.mpr ⟨l, hl, ?_⟩
    by_contra hge
    have hLe := hLast l hl
    rcases has_rolled1hour.mp hx with hOld | ⟨m, hm, hmc, rfl⟩
    · exact hNew hOld
    · rcases hm with hOld | ⟨y, hy, hyc, rfl⟩
      · exact hNew (h.minuteHours l hl m hOld ⟨hlt, not_lt.mp hge⟩)
      · rw [Key.bucket_bucket 60 60 y] at hNew hlt hge
        exact hNew (h.hours l hl y hy (by omega) (by omega) ⟨hlt, not_lt.mp hge⟩)

/-- A day row is covered by its re-roll. -/
theorem CoverInv.oneDay_pass (h : CoverInv ret last db) (hLast : ∀ l ∈ last, l ≤ now)
    (hWhole : WholeBuckets 60 db.samples.Has (now - ret.raw)
      (fun k => db.samples1min.table.Has k ∧ now - ret.oneMin ≤ k.ts))
    (hWholeHour : WholeBuckets 3600 (MinuteKey ret now db) (now - ret.oneMin)
      (fun k => db.samples1hour.table.Has k ∧ now - ret.oneHour ≤ k.ts))
    (hWholeDay : WholeBuckets 86400 (HourKey ret now db) (now - ret.oneHour)
      db.samples1day.table.Has)
    {k : Key} {r : RollupRow V} (hr : db.samples1day.table.lookup k = some r) :
    ∃ r', (rolled1day ret now db).table.lookup k = some r' ∧ r.CoveredBy r' :=
  h.oneDay.roll_coveredBy aggregateRows_id (h.hours_grow hLast hWhole hWholeHour)
    (last_map_le hLast _) (wholeBuckets_congr (fun _ => has_rolled1hour) hWholeDay)
    (Table.has_iff_lookup.mpr ⟨r, hr⟩) hr

theorem CoverInv.pass (h : CoverInv ret last db) (hLast : ∀ l ∈ last, l ≤ now) :
    CoverInv ret (some now) (rollupAndPurge ret now db) where
  oneMin := (h.oneMin.roll (fun _ hx => hx) (last_map_le hLast _)).deleteBefore _
  oneHour := (h.oneHour.roll (fun _ hx => has_rolled1min.mpr (Or.inl hx))
    (last_map_le hLast _)).deleteBefore _
  oneDay := h.oneDay.roll (fun _ hx => has_rolled1hour.mpr (Or.inl hx)) (last_map_le hLast _)
  minutes := by
    rintro l hl x hx hxc hStraddles
    obtain rfl : now = l := by simpa using hl
    refine RollupTable.has_deleteBefore.mpr ⟨?_, hStraddles.2⟩
    exact has_rolled1min.mpr (Or.inr ⟨x, (has_since.mp hx).1, hxc, rfl⟩)
  hours := by
    rintro l hl x hx hxc hxm hStraddles
    obtain rfl : now = l := by simpa using hl
    refine RollupTable.has_deleteBefore.mpr ⟨?_, hStraddles.2⟩
    exact has_rolled1hour.mpr (Or.inr ⟨x.bucket 60, Or.inr ⟨x, (has_since.mp hx).1, hxc, rfl⟩,
      hxm, Key.bucket_bucket 60 60 x⟩)
  minuteHours := by
    rintro l hl x hx hStraddles
    obtain rfl : now = l := by simpa using hl
    obtain ⟨hx, hxc⟩ := RollupTable.has_deleteBefore.mp hx
    refine RollupTable.has_deleteBefore.mpr ⟨?_, hStraddles.2⟩
    exact has_rolled1hour.mpr (Or.inr ⟨x, has_rolled1min.mp hx, hxc, rfl⟩)

end Pass

/-- A poll that overwrites nothing and reaches into no cut bucket. -/
theorem CoverInv.poll {ret : Retention} {last : Option Int} {db : Db V} (h : CoverInv ret last db)
    (p : PollRows V)
    (hPoll : ∀ x ∈ p.sampleRows, (∀ v, db.samples.lookup x.1 = some v → v = x.2) ∧
      (¬ db.samples.Has x.1 → ∀ l ∈ last, NotLate ret l x.1)) :
    CoverInv ret last (recordPoll p db) := by
  have hRows : ∀ x v, db.samples.lookup x = some v →
      ∃ v', (recordPoll p db).samples.lookup x = some v' ∧
        (RollupRow.ofSample v).CoveredBy (RollupRow.ofSample v') := by
    intro x v hv
    by_cases hMem : ∃ v', (x, v') ∈ p.sampleRows
    · obtain ⟨v', hv'⟩ := hMem
      obtain ⟨u, hu, huMem⟩ := Table.lookup_insertAll_of_mem (t := db.samples) hv'
      obtain rfl : v = u := (hPoll _ huMem).1 v hv
      exact ⟨v, hu, .refl _⟩
    · refine ⟨v, ?_, .refl _⟩
      rw [← hv]
      apply Table.lookup_insertAll_of_forall_ne
      rintro y hy rfl
      exact hMem ⟨y.2, hy⟩
  have hNew : ∀ x, (recordPoll p db).samples.Has x → ¬ db.samples.Has x →
      ∀ l ∈ last, NotLate ret l x := by
    intro x hx hOld
    obtain ⟨v, hv⟩ := (Table.has_insertAll.mp hx).resolve_left hOld
    exact (hPoll _ hv).2 hOld
  refine ⟨?_, h.oneHour, h.oneDay, ?_, ?_, h.minuteHours⟩
  · refine h.oneMin.grow aggregateSamples_eq hRows ?_
    intro x hx hOld hCut
    obtain ⟨l, hl, hlt⟩ := cut_map.mp hCut
    refine cut_map.mpr ⟨l, hl, ?_⟩
    by_contra hge
    exact (hNew x hx hOld l hl (not_lt.mp hge)).1 ⟨hlt, not_lt.mp hge⟩
  · intro l hl x hx hxc hStraddles
    by_cases hOld : db.samples.Has x
    · exact h.minutes l hl x hOld hxc hStraddles
    · exact absurd hStraddles (hNew x hx hOld l hl hxc).2.1
  · intro l hl x hx hxc hxm hStraddles
    by_cases hOld : db.samples.Has x
    · exact h.hours l hl x hOld hxc hxm hStraddles
    · exact absurd hStraddles (hNew x hx hOld l hl hxc).2.2

theorem CoverInv.empty (ret : Retention) : CoverInv ret none (Db.empty : Db V) := by
  refine ⟨?_, ?_, ?_, ?_, ?_, ?_⟩
  · intro k r hr
    cases hr
  · intro k r hr
    cases hr
  · intro k r hr
    cases hr
  all_goals
    intro l hl
    cases hl

omit [SqlReal V] in
theorem lastPass_concat (ops : List (StoreOp V)) (op : StoreOp V) :
    lastPass (ops ++ [op]) =
      match op with
      | .rollupAndPurge now => some now
      | _ => lastPass ops := by
  simp only [lastPass, List.foldl_append, List.foldl_cons, List.foldl_nil]

/-- The retention settings have not changed, and the level invariants hold. -/
def CoversAfter (ret : Retention) (ops : List (StoreOp V)) : Prop :=
  (Runs.run Store.step ⟨Db.empty, ret⟩ ops).ret = ret ∧
    CoverInv ret (lastPass ops) (Runs.run Store.step ⟨Db.empty, ret⟩ ops).db

theorem coversAfter_run (ret : Retention) {ops : List (StoreOp V)}
    (hOrder : Runs.StepsOk Store.step InOrder ⟨Db.empty, ret⟩ ops)
    (hWhole : Runs.StepsOk Store.step KeepsBucketsWhole ⟨Db.empty, ret⟩ ops) :
    CoversAfter ret ops := by
  have hBoth : Runs.StepsOk Store.step
      (fun before s op => InOrder before s op ∧ KeepsBucketsWhole before s op)
      ⟨Db.empty, ret⟩ ops :=
    fun before op after he => ⟨hOrder before op after he, hWhole before op after he⟩
  refine Runs.invariant ⟨rfl, CoverInv.empty ret⟩ ?_ hBoth
  rintro before op ⟨hRet, hInv⟩ ⟨hStep, hKeeps⟩
  rw [CoversAfter, lastPass_concat, Runs.run_concat]
  cases op with
  | recordPoll p =>
      simp only [KeepsBucketsWhole, hRet] at hKeeps
      exact ⟨hRet, hInv.poll p hKeeps⟩
  | rollupAndPurge now =>
      refine ⟨hRet, ?_⟩
      simp only [Store.step, hRet]
      exact hInv.pass hStep
  | setRetentionPolicy a b c => exact hStep.elim

/-- In every run with passes at nondecreasing times, fixed retention settings
and whole buckets, no row loses samples or range from one pass to the next. -/
theorem rows_keep_covering (ret : Retention) (ops : List (StoreOp V))
    (hOrder : Runs.StepsOk Store.step InOrder ⟨Db.empty, ret⟩ ops)
    (hWhole : Runs.StepsOk Store.step KeepsBucketsWhole ⟨Db.empty, ret⟩ ops)
    (before after : List (StoreOp V)) (now : Int)
    (hSplit : ops = before ++ .rollupAndPurge now :: after) :
    RowsKeepCovering (Runs.run Store.step ⟨Db.empty, ret⟩ before).db
      (Runs.run Store.step ⟨Db.empty, ret⟩ (before ++ [.rollupAndPurge now])).db := by
  obtain ⟨hRet, hInv⟩ := coversAfter_run ret (hSplit ▸ hOrder).of_append (hSplit ▸ hWhole).of_append
  have hLast : ∀ l ∈ lastPass before, l ≤ now := hOrder before _ after hSplit
  obtain ⟨hMin, hHour, hDay⟩ := hWhole before _ after hSplit
  rw [Runs.run_concat]
  simp only [Store.step, hRet] at hMin hHour hDay ⊢
  refine ⟨?_, ?_, ?_⟩ <;> intro k r r' hr hr'
  · rw [rollupAndPurge_samples1min, RollupTable.lookup_deleteBefore] at hr'
    split_ifs at hr' with hk
    obtain ⟨u, hu, hCov⟩ := hInv.oneMin_pass hLast hMin hk hr
    rw [hu, Option.some.injEq] at hr'
    exact hr' ▸ hCov
  · rw [rollupAndPurge_samples1hour, RollupTable.lookup_deleteBefore] at hr'
    split_ifs at hr' with hk
    obtain ⟨u, hu, hCov⟩ := hInv.oneHour_pass hLast hMin hHour hk hr
    rw [hu, Option.some.injEq] at hr'
    exact hr' ▸ hCov
  · obtain ⟨u, hu, hCov⟩ := hInv.oneDay_pass hLast hMin hHour hDay hr
    rw [rollupAndPurge_samples1day, hu, Option.some.injEq] at hr'
    exact hr' ▸ hCov

/-- A poll with one reading. -/
def onePoll (ts : Nat) (v : ℚ) : PollRows ℚ :=
  ⟨ts, [("bank", "soc_pct", v)], [], [], ⟨0, 1, 0, none⟩⟩

theorem wholeBuckets_of_nonpos {w : Nat} {src keep : Key → Prop} {c : Int} (hc : c ≤ 0) :
    WholeBuckets w src c keep := by
  rintro k _ ⟨x, _, _, hx⟩
  omega

/-- A minute that is rolled up while it is open, and again once it is full. -/
theorem rows_keep_covering_open_minute :
    RowsKeepCovering
      (Runs.run Store.step ⟨Db.empty, Retention.default⟩
        [.recordPoll (onePoll 0 60), .rollupAndPurge 30, .recordPoll (onePoll 40 61)]).db
      (Runs.run Store.step ⟨Db.empty, Retention.default⟩
        ([.recordPoll (onePoll 0 60), .rollupAndPurge 30, .recordPoll (onePoll 40 61)] ++
          [.rollupAndPurge 60])).db := by
  refine rows_keep_covering Retention.default
    [.recordPoll (onePoll 0 60), .rollupAndPurge 30, .recordPoll (onePoll 40 61),
      .rollupAndPurge 60] ?_ ?_ _ [] _ rfl
  · simp [Runs.stepsOk_cons, InOrder, lastPass]
  · refine Runs.stepsOk_cons.mpr ⟨?_, Runs.stepsOk_cons.mpr ⟨?_, Runs.stepsOk_cons.mpr ⟨?_,
      Runs.stepsOk_cons.mpr ⟨?_, Runs.stepsOk_nil⟩⟩⟩⟩
    · intro x hx
      refine ⟨fun v hv => ?_, fun _ l hl => ?_⟩
      · cases hv
      · cases hl
    · exact ⟨wholeBuckets_of_nonpos (by decide), wholeBuckets_of_nonpos (by decide),
        wholeBuckets_of_nonpos (by decide)⟩
    · intro x hx
      obtain rfl : x = (⟨40, "bank", "soc_pct"⟩, 61) := by
        simpa [onePoll, PollRows.sampleRows] using hx
      refine ⟨fun v hv => ?_, fun _ l hl => ?_⟩
      · cases (show none = some v from hv)
      · obtain rfl : 30 = l := by simpa [lastPass] using hl
        intro _
        decide
    · exact ⟨wholeBuckets_of_nonpos (by decide), wholeBuckets_of_nonpos (by decide),
        wholeBuckets_of_nonpos (by decide)⟩

/-- Two samples of one minute, rolled up once while both are inside the raw
window and once when the cutoff lies between them: the second pass replaces the
row of two samples by a row of one. -/
theorem row_loses_sample_at_cutoff :
    Runs.StepsOk Store.step InOrder ⟨Db.empty, Retention.default⟩
      [.recordPoll (onePoll 0 60), .recordPoll (onePoll 30 61), .rollupAndPurge 60,
        .rollupAndPurge (7 * 86400 + 10)] ∧
    ¬ RowsKeepCovering
      (Runs.run Store.step ⟨Db.empty, Retention.default⟩
        [.recordPoll (onePoll 0 60), .recordPoll (onePoll 30 61), .rollupAndPurge 60]).db
      (Runs.run Store.step ⟨Db.empty, Retention.default⟩
        ([.recordPoll (onePoll 0 60), .recordPoll (onePoll 30 61), .rollupAndPurge 60] ++
          [.rollupAndPurge (7 * 86400 + 10)])).db := by
  refine ⟨by simp [Runs.stepsOk_cons, InOrder, lastPass], ?_⟩
  rintro ⟨hMin, _, _⟩
  have hBefore : ((Runs.run Store.step ⟨Db.empty, Retention.default⟩
      [.recordPoll (onePoll 0 60), .recordPoll (onePoll 30 61),
        .rollupAndPurge 60]).db.samples1min.table.lookup ⟨0, "bank", "soc_pct"⟩).map
          RollupRow.n = some 2 := by decide +kernel
  have hAfter : ((Runs.run Store.step ⟨Db.empty, Retention.default⟩
      ([.recordPoll (onePoll 0 60), .recordPoll (onePoll 30 61), .rollupAndPurge 60] ++
        [.rollupAndPurge (7 * 86400 + 10)])).db.samples1min.table.lookup
          ⟨0, "bank", "soc_pct"⟩).map RollupRow.n = some 1 := by decide +kernel
  obtain ⟨r, hr, hn⟩ := Option.map_eq_some_iff.mp hBefore
  obtain ⟨r', hr', hn'⟩ := Option.map_eq_some_iff.mp hAfter
  have := (hMin _ r r' hr hr').1
  omega

end WattPost.Storage
