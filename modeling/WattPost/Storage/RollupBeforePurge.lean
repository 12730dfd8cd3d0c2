import WattPost.Lib.Runs
import WattPost.Storage.Rollup

/-! Runs of the store and the order of rolling up and deleting. A level rolls
up exactly the rows that its purge keeps, so a row is rolled up before it is
deleted only if some earlier pass still found it inside the window. -/
namespace WattPost.Storage

open Keyed

/-- The store with its live retention settings. -/
structure Store (V : Type) where
  db : Db V
  ret : Retention

/-- What changes the store. -/
inductive StoreOp (V : Type) where
  | recordPoll (p : PollRows V)
  | rollupAndPurge (now : Int)
  | setRetentionPolicy (rawDays minDays hourDays : Option Int)

variable {V : Type} [SqlReal V]

def Store.step (s : Store V) : StoreOp V → Store V
  | .recordPoll p => { s with db := recordPoll p s.db }
  | .rollupAndPurge now => { s with db := rollupAndPurge s.ret now s.db }
  | .setRetentionPolicy rawDays minDays hourDays =>
      { s with ret := s.ret.setRetentionPolicy rawDays minDays hourDays }

/-- A new store. The overrides of the configuration are a first operation. -/
def Store.init : Store V := ⟨Db.empty, Retention.default⟩

/-! ### What a run has counted -/

/-- A pass of the run counted the sample in the `n` of its minute's row. -/
def Counted1min (s : Store V) (ops : List (StoreOp V)) (k : Key) : Prop :=
  ∃ before now after, ops = before ++ .rollupAndPurge now :: after ∧
    let t := Runs.run Store.step s before
    ∃ v, (k, v) ∈ rollGroup 60 t.db.samples (now - t.ret.raw) (k.bucket 60)

/-- A pass of the run counted the minute's row in the `n` of its hour's row. -/
def Counted1hour (s : Store V) (ops : List (StoreOp V)) (k : Key) : Prop :=
  ∃ before now after, ops = before ++ .rollupAndPurge now :: after ∧
    let t := Runs.run Store.step s before
    ∃ r, (k, r) ∈
      rollGroup 3600 (rolled1min t.ret now t.db).table (now - t.ret.oneMin) (k.bucket 3600)

/-- A pass of the run counted the hour's row in the `n` of its day's row. -/
def Counted1day (s : Store V) (ops : List (StoreOp V)) (k : Key) : Prop :=
  ∃ before now after, ops = before ++ .rollupAndPurge now :: after ∧
    let t := Runs.run Store.step s before
    ∃ r, (k, r) ∈
      rollGroup 86400 (rolled1hour t.ret now t.db).table (now - t.ret.oneHour) (k.bucket 86400)

/-- A pass at `now` deletes nothing that the run, this pass included, has not
counted one level up. -/
def DeletesOnlyCounted (s : Store V) (before : List (StoreOp V)) (now : Int) : Prop :=
  let t := Runs.run Store.step s before
  let t' := t.step (.rollupAndPurge now)
  let ops := before ++ [.rollupAndPurge now]
  (∀ k, t.db.samples.Has k → ¬ t'.db.samples.Has k → Counted1min s ops k) ∧
  (∀ k, (rolled1min t.ret now t.db).table.Has k → ¬ t'.db.samples1min.table.Has k →
    Counted1hour s ops k) ∧
  (∀ k, (rolled1hour t.ret now t.db).table.Has k → ¬ t'.db.samples1hour.table.Has k →
    Counted1day s ops k)

section Monotone

variable {s : Store V} {ops : List (StoreOp V)} {k : Key}

omit [SqlReal V] in
private theorem split_append {before after more : List (StoreOp V)} {op : StoreOp V}
    (h : ops = before ++ op :: after) : ops ++ more = before ++ op :: (after ++ more) := by
  rw [h, List.append_assoc, List.cons_append]

theorem Counted1min.append (h : Counted1min s ops k) (more : List (StoreOp V)) :
    Counted1min s (ops ++ more) k := by
  obtain ⟨before, now, after, he, hCounted⟩ := h
  exact ⟨before, now, after ++ more, split_append he, hCounted⟩

theorem Counted1hour.append (h : Counted1hour s ops k) (more : List (StoreOp V)) :
    Counted1hour s (ops ++ more) k := by
  obtain ⟨before, now, after, he, hCounted⟩ := h
  exact ⟨before, now, after ++ more, split_append he, hCounted⟩

theorem Counted1day.append (h : Counted1day s ops k) (more : List (StoreOp V)) :
    Counted1day s (ops ++ more) k := by
  obtain ⟨before, now, after, he, hCounted⟩ := h
  exact ⟨before, now, after ++ more, split_append he, hCounted⟩

/-- What the last pass finds inside the window it counts. -/
theorem counted1min_last {now : Int} (h : (Runs.run Store.step s ops).db.samples.Has k)
    (hc : now - (Runs.run Store.step s ops).ret.raw ≤ k.ts) :
    Counted1min s (ops ++ [.rollupAndPurge now]) k := by
  obtain ⟨v, hv⟩ := h
  exact ⟨ops, now, [], rfl, v, mem_rollGroup.mpr ⟨hv, hc, rfl⟩⟩

theorem counted1hour_last {now : Int} (h : (rolled1min (Runs.run Store.step s ops).ret now
      (Runs.run Store.step s ops).db).table.Has k)
    (hc : now - (Runs.run Store.step s ops).ret.oneMin ≤ k.ts) :
    Counted1hour s (ops ++ [.rollupAndPurge now]) k := by
  obtain ⟨r, hr⟩ := h
  exact ⟨ops, now, [], rfl, r, mem_rollGroup.mpr ⟨hr, hc, rfl⟩⟩

theorem counted1day_last {now : Int} (h : (rolled1hour (Runs.run Store.step s ops).ret now
      (Runs.run Store.step s ops).db).table.Has k)
    (hc : now - (Runs.run Store.step s ops).ret.oneHour ≤ k.ts) :
    Counted1day s (ops ++ [.rollupAndPurge now]) k := by
  obtain ⟨r, hr⟩ := h
  exact ⟨ops, now, [], rfl, r, mem_rollGroup.mpr ⟨hr, hc, rfl⟩⟩

end Monotone

/-! ### When a run loses nothing -/

/-- The samples written since the last maintenance pass. -/
def pending (ops : List (StoreOp V)) : List Key :=
  ops.foldl (fun acc op =>
    match op with
    | .recordPoll p => acc ++ p.sampleRows.map Prod.fst
    | .rollupAndPurge _ => []
    | .setRetentionPolicy .. => acc) []

/-- At `now` the sample is inside the raw window, its minute inside the
one-minute window and its hour inside the one-hour window. -/
def InWindows (ret : Retention) (now : Int) (k : Key) : Prop :=
  now - ret.raw ≤ k.ts ∧ now - ret.oneMin ≤ (k.bucket 60).ts ∧
    now - ret.oneHour ≤ (k.bucket 3600).ts

instance (ret : Retention) (now : Int) (k : Key) : Decidable (InWindows ret now k) :=
  inferInstanceAs (Decidable (_ ∧ _ ∧ _))

/-- The condition on one operation: a maintenance pass comes before anything
written since the last pass has left a window. -/
def PassInTime (before : List (StoreOp V)) (s : Store V) : StoreOp V → Prop
  | .rollupAndPurge now => ∀ k ∈ pending before, InWindows s.ret now k
  | _ => True

/-- Every stored row is still pending or has been counted at every level
above it. -/
structure AllCounted (s : Store V) (ops : List (StoreOp V)) : Prop where
  samples : ∀ k, (Runs.run Store.step s ops).db.samples.Has k → k ∈ pending ops ∨
    (Counted1min s ops k ∧ Counted1hour s ops (k.bucket 60) ∧ Counted1day s ops (k.bucket 3600))
  oneMin : ∀ k, (Runs.run Store.step s ops).db.samples1min.table.Has k →
    Counted1hour s ops k ∧ Counted1day s ops (k.bucket 3600)
  oneHour : ∀ k, (Runs.run Store.step s ops).db.samples1hour.table.Has k → Counted1day s ops k

omit [SqlReal V] in
@[simp] theorem pending_recordPoll (ops : List (StoreOp V)) (p : PollRows V) :
    pending (ops ++ [.recordPoll p]) = pending ops ++ p.sampleRows.map Prod.fst := by
  simp [pending]

omit [SqlReal V] in
@[simp] theorem pending_setRetentionPolicy (ops : List (StoreOp V)) (a b c : Option Int) :
    pending (ops ++ [.setRetentionPolicy a b c]) = pending ops := by
  simp [pending]

section Pass

variable {s : Store V} {ops : List (StoreOp V)} {now : Int}

/-- A pass in time counts every sample of the store at every level: the old
ones have been counted, the pending ones are inside all three windows. -/
theorem AllCounted.samples_pass (h : AllCounted s ops)
    (hOk : PassInTime ops (Runs.run Store.step s ops) (.rollupAndPurge now)) {k : Key}
    (hk : (Runs.run Store.step s ops).db.samples.Has k) :
    Counted1min s (ops ++ [.rollupAndPurge now]) k ∧
      Counted1hour s (ops ++ [.rollupAndPurge now]) (k.bucket 60) ∧
      Counted1day s (ops ++ [.rollupAndPurge now]) (k.bucket 3600) := by
  rcases h.samples k hk with hPending | ⟨hMin, hHour, hDay⟩
  · obtain ⟨hRaw, hOneMin, hOneHour⟩ := hOk k hPending
    have hMinute : (rolled1min (Runs.run Store.step s ops).ret now
        (Runs.run Store.step s ops).db).table.Has (k.bucket 60) :=
      has_rollInto.mpr (Or.inr ⟨k, hk, hRaw, rfl⟩)
    have hHour : (rolled1hour (Runs.run Store.step s ops).ret now
        (Runs.run Store.step s ops).db).table.Has (k.bucket 3600) :=
      has_rollInto.mpr (Or.inr ⟨k.bucket 60, hMinute, hOneMin, Key.bucket_bucket 60 60 k⟩)
    exact ⟨counted1min_last hk hRaw, counted1hour_last hMinute hOneMin,
      counted1day_last hHour hOneHour⟩
  · exact ⟨hMin.append _, hHour.append _, hDay.append _⟩

/-- The same for every minute row, before the purge. -/
theorem AllCounted.oneMin_pass (h : AllCounted s ops)
    (hOk : PassInTime ops (Runs.run Store.step s ops) (.rollupAndPurge now)) {k : Key}
    (hk : (rolled1min (Runs.run Store.step s ops).ret now
      (Runs.run Store.step s ops).db).table.Has k) :
    Counted1hour s (ops ++ [.rollupAndPurge now]) k ∧
      Counted1day s (ops ++ [.rollupAndPurge now]) (k.bucket 3600) := by
  rcases has_rollInto.mp hk with hOld | ⟨x, hx, _, rfl⟩
  · obtain ⟨hHour, hDay⟩ := h.oneMin k hOld
    exact ⟨hHour.append _, hDay.append _⟩
  · obtain ⟨_, hHour, hDay⟩ := h.samples_pass hOk hx
    exact ⟨hHour, (Key.bucket_bucket 60 60 x).symm ▸ hDay⟩

/-- The same for every hour row, before the purge. -/
theorem AllCounted.oneHour_pass (h : AllCounted s ops)
    (hOk : PassInTime ops (Runs.run Store.step s ops) (.rollupAndPurge now)) {k : Key}
    (hk : (rolled1hour (Runs.run Store.step s ops).ret now
      (Runs.run Store.step s ops).db).table.Has k) :
    Counted1day s (ops ++ [.rollupAndPurge now]) k := by
  rcases has_rollInto.mp hk with hOld | ⟨x, hx, _, rfl⟩
  · exact (h.oneHour k hOld).append _
  · exact (h.oneMin_pass hOk hx).2

end Pass

theorem AllCounted.step {s : Store V} (before : List (StoreOp V)) (op : StoreOp V)
    (h : AllCounted s before) (hOk : PassInTime before (Runs.run Store.step s before) op) :
    AllCounted s (before ++ [op]) := by
  cases op with
  | recordPoll p =>
      refine ⟨?_, ?_, ?_⟩ <;> intro k hk <;>
        simp only [Runs.run_concat, Store.step, recordPoll] at hk
      · rw [pending_recordPoll]
        rcases Table.has_insertAll.mp hk with hOld | ⟨v, hv⟩
        · rcases h.samples k hOld with hPending | ⟨hMin, hHour, hDay⟩
          · exact Or.inl (List.mem_append_left _ hPending)
          · exact Or.inr ⟨hMin.append _, hHour.append _, hDay.append _⟩
        · exact Or.inl (List.mem_append_right _ (List.mem_map_of_mem (f := Prod.fst) hv))
      · exact ⟨(h.oneMin k hk).1.append _, (h.oneMin k hk).2.append _⟩
      · exact (h.oneHour k hk).append _
  | rollupAndPurge now =>
      refine ⟨?_, ?_, ?_⟩ <;> intro k hk <;>
        simp only [Runs.run_concat, Store.step, rollupAndPurge_samples,
          rollupAndPurge_samples1min, rollupAndPurge_samples1hour] at hk
      · exact Or.inr (h.samples_pass hOk (has_since.mp hk).1)
      · exact h.oneMin_pass hOk (RollupTable.has_deleteBefore.mp hk).1
      · exact h.oneHour_pass hOk (RollupTable.has_deleteBefore.mp hk).1
  | setRetentionPolicy a b c =>
      refine ⟨?_, ?_, ?_⟩ <;> intro k hk <;> simp only [Runs.run_concat, Store.step] at hk
      · rw [pending_setRetentionPolicy]
        rcases h.samples k hk with hPending | ⟨hMin, hHour, hDay⟩
        · exact Or.inl hPending
        · exact Or.inr ⟨hMin.append _, hHour.append _, hDay.append _⟩
      · exact ⟨(h.oneMin k hk).1.append _, (h.oneMin k hk).2.append _⟩
      · exact (h.oneHour k hk).append _

theorem AllCounted.init : AllCounted (Store.init : Store V) [] := by
  refine ⟨?_, ?_, ?_⟩ <;> rintro k ⟨r, hr⟩ <;> cases hr

/-- In a run whose passes all come in time, with any gaps between them and any
changes of the retention settings, every row that a pass deletes has been
counted one level up by that pass or an earlier one. -/
theorem deletes_only_counted (ops : List (StoreOp V))
    (hOk : Runs.StepsOk Store.step PassInTime Store.init ops) (before after : List (StoreOp V))
    (now : Int) (hSplit : ops = before ++ .rollupAndPurge now :: after) :
    DeletesOnlyCounted Store.init before now := by
  have hAll : AllCounted Store.init before :=
    Runs.invariant AllCounted.init AllCounted.step (hSplit ▸ hOk).of_append
  have hPass := hOk before (.rollupAndPurge now) after hSplit
  refine ⟨?_, ?_, ?_⟩
  · intro k hk _
    exact (hAll.samples_pass hPass hk).1
  · intro k hk _
    exact (hAll.oneMin_pass hPass hk).1
  · intro k hk _
    exact hAll.oneHour_pass hPass hk

/-- One reading of one device at the start of the epoch. -/
def lonePoll : PollRows ℚ := ⟨0, [("bank", "soc_pct", 60)], [], [], ⟨0, 1, 0, none⟩⟩

/-- The reading is rolled up after a minute and deleted eight days later. -/
theorem deletes_only_counted_lonePoll :
    DeletesOnlyCounted Store.init [.recordPoll lonePoll, .rollupAndPurge 60] (8 * 86400) := by
  refine deletes_only_counted
    [.recordPoll lonePoll, .rollupAndPurge 60, .rollupAndPurge (8 * 86400)] ?_ _ [] _ rfl
  refine Runs.stepsOk_cons.mpr ⟨trivial, Runs.stepsOk_cons.mpr ⟨?_, Runs.stepsOk_cons.mpr ⟨?_, ?_⟩⟩⟩
  · intro k hk
    obtain rfl : k = ⟨0, "bank", "soc_pct"⟩ := by
      simpa [pending, lonePoll, PollRows.sampleRows] using hk
    decide
  · intro k hk
    cases hk
  · exact Runs.stepsOk_nil

/-- An appliance that was off for longer than the raw retention: the first pass
after the reading deletes it, and no pass has counted it. -/
theorem deletes_uncounted_lonePoll :
    ¬ DeletesOnlyCounted Store.init [.recordPoll lonePoll] (8 * 86400) := by
  rintro ⟨hRaw, _, _⟩
  have hCounted := hRaw ⟨0, "bank", "soc_pct"⟩ ⟨60, by decide⟩ (by
    rintro ⟨v, hv⟩
    exact absurd (has_since.mp ⟨v, hv⟩).2 (by decide))
  obtain ⟨before, now, after, he, v, hv⟩ := hCounted
  rcases before with _ | ⟨a, _ | ⟨b, rest⟩⟩ <;>
    simp only [List.nil_append, List.cons_append, List.cons.injEq, List.nil_eq,
      List.append_eq_nil_iff, reduceCtorEq, and_false, false_and] at he
  obtain ⟨rfl, hNow, _⟩ := he
  cases hNow
  exact absurd (mem_rollGroup.mp hv).2.1 (show ¬ (8 * 86400 - 7 * 86400 : Int) ≤ 0 by decide)

end WattPost.Storage
