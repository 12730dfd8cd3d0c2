import WattPost.Outputs.Schedules

/-! What the firings of a rule have to look like over any sequence of ticks: one
on a local day at most, on the days of its mask, and not before the time that
the rule denotes for that day. -/
namespace WattPost.Outputs.Schedules

open LocalTime Runs

/-- The sunrise and sunset of each local day. -/
structure Sky where
  sunrise : Int → Int
  sunset : Int → Int

/-- By the instant, the time that the rule denotes for the day has come: the
local clock has shown the time of day, or the sun has risen or set, with the
offset. -/
def Passed (zone : Zone) (sky : Sky) (rule : Rule) (day instant : Int) : Prop :=
  match rule.triggerKind with
  | .time => ∃ hm, parseHhmm rule.triggerTime = some hm ∧
      ∃ u, u ≤ instant ∧ day * 86400 + hm.1 * 3600 + hm.2 * 60 ≤ zone.localSeconds u
  | .sunrise => sky.sunrise day + rule.offsetMin * 60 ≤ instant
  | .sunset => sky.sunset day + rule.offsetMin * 60 ≤ instant

theorem Passed.mono {zone : Zone} {sky : Sky} {rule : Rule} {day a b : Int}
    (h : Passed zone sky rule day a) (hLe : a ≤ b) : Passed zone sky rule day b := by
  unfold Passed at h ⊢
  split at h
  · obtain ⟨hm, hParse, u, hu, hShown⟩ := h
    exact ⟨hm, hParse, u, by omega, hShown⟩
  · omega
  · omega

/-- The firings of one rule. -/
def firingsOf (scheduleId : Nat) (firings : List Firing) : List Firing :=
  firings.filter fun f => f.scheduleId = scheduleId

/-- At most one firing on a local day, only on days of the mask, and only when
the day's time has come. -/
structure Daily (zone : Zone) (sky : Sky) (rule : Rule) (firings : List Firing) : Prop where
  once : (firingsOf rule.id firings).Pairwise fun a b => zone.dayOf a.time ≠ zone.dayOf b.time
  masked : ∀ f ∈ firingsOf rule.id firings,
    rule.daysMask.testBit (weekday (zone.dayOf f.time)) = true
  timely : ∀ f ∈ firingsOf rule.id firings, Passed zone sky rule (zone.dayOf f.time) f.time

/-- A tick finds the rule with days in its mask; with a fire time that, once it is
over, is not before the day's own; and, after a run, with a calendar that was
not set back and, on the day of the run, with a midnight and a fire time that
did not move beyond it. -/
structure TickOk (zone : Zone) (sky : Sky) (sched : Schedule) (tick : Tick) : Prop where
  mask : sched.rule.daysMask ≠ 0
  notEarly : ∀ fireTs ∈ computeFireTime zone sched.rule tick.nowTs tick.cache,
    fireTs ≤ tick.nowTs → Passed zone sky sched.rule (zone.dayOf tick.nowTs) fireTs
  ordered : ∀ last ∈ sched.lastRunAt, zone.dayOf last ≤ zone.dayOf tick.nowTs
  notMoved : ∀ last ∈ sched.lastRunAt, zone.dayOf last = zone.dayOf tick.nowTs →
    zone.midnight tick.nowTs ≤ last ∧
      ∀ fireTs ∈ computeFireTime zone sched.rule tick.nowTs tick.cache,
        fireTs ≤ tick.nowTs → fireTs ≤ last

/-- The condition for the row of one rule, along a run. -/
def RuleOk (zone : Zone) (sky : Sky) (rule : Rule) : List Tick → State → Tick → Prop :=
  fun _ s tick => ∀ sched ∈ s.rows, sched.rule = rule → TickOk zone sky sched tick

/-! ### One rule at one tick -/

/-- What it takes for a rule to be due. -/
theorem due_cases {zone : Zone} {nowTs : Int} {cache : Option WeatherCache} {sched : Schedule}
    (h : due zone nowTs cache sched = true) :
    (effectiveMask sched.rule.daysMask).testBit (weekday (zone.dayOf nowTs)) = true ∧
      ∃ fireTs, computeFireTime zone sched.rule nowTs cache = some fireTs ∧ fireTs ≤ nowTs ∧
        ¬ (zone.midnight nowTs ≤ sched.lastRunAt.getD 0 ∧
          fireTs ≤ sched.lastRunAt.getD 0) := by
  unfold due at h
  split at h
  · simp at h
  case h_2 fireTs hFire =>
    simp only [Bool.and_eq_true, decide_eq_true_eq, Bool.not_eq_true', decide_eq_false_iff_not]
      at h
    exact ⟨h.1.2, fireTs, hFire, h.2.1, h.2.2⟩

theorem TickOk.masked {zone : Zone} {sky : Sky} {sched : Schedule} {tick : Tick}
    (hOk : TickOk zone sky sched tick) (hDue : due zone tick.nowTs tick.cache sched = true) :
    sched.rule.daysMask.testBit (weekday (zone.dayOf tick.nowTs)) = true := by
  have hMask := (due_cases hDue).1
  rw [effectiveMask, if_neg hOk.mask] at hMask
  exact hMask

theorem TickOk.timely {zone : Zone} {sky : Sky} {sched : Schedule} {tick : Tick}
    (hOk : TickOk zone sky sched tick) (hDue : due zone tick.nowTs tick.cache sched = true) :
    Passed zone sky sched.rule (zone.dayOf tick.nowTs) tick.nowTs := by
  obtain ⟨_, fireTs, hFire, hLe, _⟩ := due_cases hDue
  exact (hOk.notEarly fireTs hFire hLe).mono hLe

/-- A rule that ran on the day is not due again. -/
theorem TickOk.later_day {zone : Zone} {sky : Sky} {sched : Schedule} {tick : Tick}
    (hOk : TickOk zone sky sched tick) (hDue : due zone tick.nowTs tick.cache sched = true)
    {last : Int} (hLast : sched.lastRunAt = some last) :
    zone.dayOf last < zone.dayOf tick.nowTs := by
  obtain ⟨_, fireTs, hFire, hLe, hNot⟩ := due_cases hDue
  have hOrder := hOk.ordered last hLast
  rcases Int.lt_or_eq_of_le hOrder with hLt | hEq
  · exact hLt
  · obtain ⟨hMidnight, hMoved⟩ := hOk.notMoved last hLast hEq
    rw [hLast] at hNot
    exact absurd ⟨hMidnight, hMoved fireTs hFire hLe⟩ hNot

/-! ### The invariant -/

/-- The rows of the rule's id are the rule's, every firing of it is on record,
and the firings so far are as they should be. -/
structure RuleInv (zone : Zone) (sky : Sky) (rule : Rule) (s : State) : Prop where
  nodup : (s.rows.map fun x => x.rule.id).Nodup
  owner : ∀ row ∈ s.rows, row.rule.id = rule.id → row.rule = rule
  recorded : ∀ row ∈ s.rows, row.rule.id = rule.id → ∀ f ∈ firingsOf rule.id s.firings,
    ∃ last, row.lastRunAt = some last ∧ zone.dayOf f.time ≤ zone.dayOf last
  daily : Daily zone sky rule s.firings

section Step

variable {zone : Zone} {sky : Sky} {rule : Rule} {s : State} {tick : Tick}

/-- A tick adds the firing of the rule's row, if it is due. -/
theorem firingsOf_tick (hNodup : (s.rows.map fun x => x.rule.id).Nodup) {row : Schedule}
    (hMem : row ∈ s.rows) :
    firingsOf row.rule.id (fireDueSchedules zone s tick).firings =
      firingsOf row.rule.id s.firings ++
        if due zone tick.nowTs tick.cache row then [firingOf tick.nowTs row] else [] := by
  have hRows : (s.rows.filter (due zone tick.nowTs tick.cache)).filter
      (fun x => x.rule.id = row.rule.id) =
        if due zone tick.nowTs tick.cache row then [row] else [] := by
    rw [List.filter_comm, filter_id_eq hNodup hMem]
    by_cases hDue : due zone tick.nowTs tick.cache row = true <;> simp [hDue]
  have hMap : (fun f : Firing => decide (f.scheduleId = row.rule.id)) ∘ firingOf tick.nowTs =
      fun x => decide (x.rule.id = row.rule.id) := rfl
  rw [fireDueSchedules_firings, firingsOf, List.filter_append, List.filter_map, hMap, hRows]
  split <;> rfl

theorem firingsOf_tick_of_no_row (hNone : ∀ row ∈ s.rows, row.rule.id ≠ rule.id) :
    firingsOf rule.id (fireDueSchedules zone s tick).firings = firingsOf rule.id s.firings := by
  rw [fireDueSchedules_firings, firingsOf, List.filter_append]
  have hNil : ((s.rows.filter (due zone tick.nowTs tick.cache)).map
      (firingOf tick.nowTs)).filter (fun f => f.scheduleId = rule.id) = [] := by
    rw [List.filter_eq_nil_iff]
    intro f hf hId
    obtain ⟨row, hRow, rfl⟩ := List.mem_map.mp hf
    exact hNone row (List.mem_filter.mp hRow).1 (of_decide_eq_true hId)
  rw [hNil, List.append_nil]
  rfl

theorem nodup_tick (hNodup : (s.rows.map fun x => x.rule.id).Nodup) :
    ((fireDueSchedules zone s tick).rows.map fun x => x.rule.id).Nodup := by
  rw [fireDueSchedules_rows, List.map_map]
  simpa only [Function.comp_def, afterRun_rule] using hNodup

/-- The row keeps its last run, or it fired and has the time of the tick. -/
theorem lastRunAt_tick {row : Schedule} (hNodup : (s.rows.map fun x => x.rule.id).Nodup)
    (hMem : row ∈ s.rows) :
    (afterRun tick.nowTs tick.outcome (firedIds zone s tick) row).lastRunAt =
      if due zone tick.nowTs tick.cache row then some tick.nowTs else row.lastRunAt := by
  have hFired : row.rule.id ∈ firedIds zone s tick ↔ due zone tick.nowTs tick.cache row = true := by
    constructor
    · intro hId
      obtain ⟨x, hx, hSame⟩ := List.mem_map.mp hId
      obtain ⟨hIn, hDue⟩ := List.mem_filter.mp hx
      have hOnly : x ∈ s.rows.filter fun y => y.rule.id = row.rule.id := by
        simp [hIn, hSame]
      rw [filter_id_eq hNodup hMem, List.mem_singleton] at hOnly
      exact hOnly ▸ hDue
    · intro hDue
      exact List.mem_map.mpr ⟨row, List.mem_filter.mpr ⟨hMem, hDue⟩, rfl⟩
  unfold afterRun
  by_cases hDue : due zone tick.nowTs tick.cache row = true
  · rw [if_pos (hFired.mpr hDue), if_pos hDue]
  · rw [if_neg (mt hFired.mp hDue), if_neg hDue]

/-- A firing on a later day than all before it. -/
theorem Daily.concat {firings : List Firing} (h : Daily zone sky rule firings) {f : Firing}
    {firings' : List Firing}
    (hNew : firingsOf rule.id firings' = firingsOf rule.id firings ++ [f])
    (hLater : ∀ g ∈ firingsOf rule.id firings, zone.dayOf g.time < zone.dayOf f.time)
    (hMask : rule.daysMask.testBit (weekday (zone.dayOf f.time)) = true)
    (hTimely : Passed zone sky rule (zone.dayOf f.time) f.time) :
    Daily zone sky rule firings' := by
  constructor
  case once =>
    rw [hNew]
    refine List.pairwise_append.mpr ⟨h.once, List.pairwise_singleton _ _, ?_⟩
    intro g hg x hx
    rw [List.mem_singleton.mp hx]
    exact Int.ne_of_lt (hLater g hg)
  case masked =>
    intro g hg
    rw [hNew] at hg
    rcases List.mem_append.mp hg with hOld | hNow
    · exact h.masked g hOld
    · rw [List.mem_singleton.mp hNow]
      exact hMask
  case timely =>
    intro g hg
    rw [hNew] at hg
    rcases List.mem_append.mp hg with hOld | hNow
    · exact h.timely g hOld
    · rw [List.mem_singleton.mp hNow]
      exact hTimely

theorem Daily.of_same {firings firings' : List Firing} (h : Daily zone sky rule firings)
    (hSame : firingsOf rule.id firings' = firingsOf rule.id firings) :
    Daily zone sky rule firings' := by
  constructor <;> rw [hSame]
  · exact h.once
  · exact h.masked
  · exact h.timely

/-- A tick that meets the condition keeps the invariant. -/
theorem RuleInv.step (h : RuleInv zone sky rule s)
    (hOk : ∀ sched ∈ s.rows, sched.rule = rule → TickOk zone sky sched tick) :
    RuleInv zone sky rule (fireDueSchedules zone s tick) := by
  have hNodup : ((fireDueSchedules zone s tick).rows.map fun x => x.rule.id).Nodup :=
    nodup_tick h.nodup
  have hOwner : ∀ row ∈ (fireDueSchedules zone s tick).rows,
      row.rule.id = rule.id → row.rule = rule := by
    intro row hRow
    rw [fireDueSchedules_rows] at hRow
    obtain ⟨old, hOld, rfl⟩ := List.mem_map.mp hRow
    rw [afterRun_rule]
    exact h.owner old hOld
  by_cases hRow : ∃ row ∈ s.rows, row.rule.id = rule.id
  case neg =>
    have hNone : ∀ row ∈ s.rows, row.rule.id ≠ rule.id := fun row hMem hId =>
      hRow ⟨row, hMem, hId⟩
    refine ⟨hNodup, hOwner, ?_, h.daily.of_same (firingsOf_tick_of_no_row hNone)⟩
    intro row hMem hId
    rw [fireDueSchedules_rows] at hMem
    obtain ⟨old, hOld, rfl⟩ := List.mem_map.mp hMem
    rw [afterRun_rule] at hId
    exact absurd hId (hNone old hOld)
  case pos =>
    obtain ⟨row, hMem, hId⟩ := hRow
    obtain rfl : row.rule = rule := h.owner row hMem hId
    have hTick := hOk row hMem rfl
    have hFirings : firingsOf row.rule.id (fireDueSchedules zone s tick).firings =
        firingsOf row.rule.id s.firings ++
          if due zone tick.nowTs tick.cache row then [firingOf tick.nowTs row] else [] :=
      firingsOf_tick h.nodup hMem
    have hEarlier : ∀ f ∈ firingsOf row.rule.id s.firings,
        due zone tick.nowTs tick.cache row = true →
          zone.dayOf f.time < zone.dayOf tick.nowTs := by
      intro f hf hDue
      obtain ⟨last, hLast, hDay⟩ := h.recorded row hMem rfl f hf
      exact Int.lt_of_le_of_lt hDay (hTick.later_day hDue hLast)
    -- The only row of this id is the one we look at.
    have hOnly : ∀ row' ∈ (fireDueSchedules zone s tick).rows, row'.rule.id = row.rule.id →
        row'.lastRunAt =
          if due zone tick.nowTs tick.cache row then some tick.nowTs else row.lastRunAt := by
      intro row' hMem' hId'
      rw [fireDueSchedules_rows] at hMem'
      obtain ⟨old, hOld, rfl⟩ := List.mem_map.mp hMem'
      rw [afterRun_rule] at hId'
      have hFilter : old ∈ s.rows.filter fun y => y.rule.id = row.rule.id := by
        simp [hOld, hId']
      rw [filter_id_eq h.nodup hMem, List.mem_singleton] at hFilter
      rw [hFilter]
      exact lastRunAt_tick h.nodup hMem
    by_cases hDue : due zone tick.nowTs tick.cache row = true
    · rw [if_pos hDue] at hFirings
      refine ⟨hNodup, hOwner, ?_, h.daily.concat hFirings (fun f hf => hEarlier f hf hDue)
        (hTick.masked hDue) (hTick.timely hDue)⟩
      intro row' hMem' hId' f hf
      refine ⟨tick.nowTs, by rw [hOnly row' hMem' hId', if_pos hDue], ?_⟩
      rw [hFirings] at hf
      rcases List.mem_append.mp hf with hOld | hNow
      · exact Int.le_of_lt (hEarlier f hOld hDue)
      · rw [List.mem_singleton.mp hNow]
        exact Int.le_refl _
    · rw [if_neg hDue, List.append_nil] at hFirings
      refine ⟨hNodup, hOwner, ?_, h.daily.of_same hFirings⟩
      intro row' hMem' hId' f hf
      rw [hFirings] at hf
      rw [hOnly row' hMem' hId', if_neg hDue]
      exact h.recorded row hMem rfl f hf

end Step

/-- A table in which nothing was fired yet and the rule has the only row of its
id. -/
theorem RuleInv.init {zone : Zone} {sky : Sky} {rule : Rule} {s : State}
    (hNodup : (s.rows.map fun x => x.rule.id).Nodup) (hRule : ∃ row ∈ s.rows, row.rule = rule)
    (hFirings : s.firings = []) : RuleInv zone sky rule s := by
  obtain ⟨row, hMem, rfl⟩ := hRule
  constructor
  case nodup => exact hNodup
  case owner =>
    intro other hOther hId
    have hFilter : other ∈ s.rows.filter fun y => y.rule.id = row.rule.id := by
      simp [hOther, hId]
    rw [filter_id_eq hNodup hMem, List.mem_singleton] at hFilter
    rw [hFilter]
  case recorded =>
    intro other _ _ f hf
    rw [hFirings] at hf
    cases hf
  case daily =>
    rw [hFirings]
    exact ⟨List.Pairwise.nil, fun f hf => (nomatch hf), fun f hf => (nomatch hf)⟩

/-- Over every sequence of ticks that meet the condition, a rule fires at most
once on a local day, on the days of its mask, and not before the day's time. -/
theorem schedule_fires_daily {zone : Zone} {sky : Sky} {rule : Rule} {s : State}
    (hNodup : (s.rows.map fun x => x.rule.id).Nodup) (hRule : ∃ row ∈ s.rows, row.rule = rule)
    (hFirings : s.firings = []) {ticks : List Tick}
    (hTicks : StepsOk (fireDueSchedules zone) (RuleOk zone sky rule) s ticks) :
    Daily zone sky rule (run (fireDueSchedules zone) s ticks).firings := by
  have hInv : RuleInv zone sky rule (run (fireDueSchedules zone) s ticks) :=
    hTicks.preserves (RuleInv.init hNodup hRule hFirings) fun _ _ _ hBefore hOk =>
      hBefore.step hOk
  exact hInv.daily

/-! ### A clock that is never set, and a cache of the day -/

/-- The fire time of a day in a zone with a fixed offset. -/
def fireTimeOf (offset : Int) (sky : Sky) (rule : Rule) (day : Int) : Option Int :=
  match rule.triggerKind with
  | .time => (parseHhmm rule.triggerTime).map fun hm =>
      day * 86400 - offset + hm.1 * 3600 + hm.2 * 60
  | .sunrise => some (sky.sunrise day + rule.offsetMin * 60)
  | .sunset => some (sky.sunset day + rule.offsetMin * 60)

/-- The cache has the sun times of the tick's own day, or none. -/
def FreshCache (zone : Zone) (sky : Sky) (tick : Tick) : Prop :=
  ∀ cache ∈ tick.cache,
    (∀ ts ∈ cache.sunriseTs, ts = sky.sunrise (zone.dayOf tick.nowTs)) ∧
      ∀ ts ∈ cache.sunsetTs, ts = sky.sunset (zone.dayOf tick.nowTs)

section Fixed

variable {offset : Int} {sky : Sky} {rule : Rule} {s : State} {tick : Tick}

theorem computeFireTime_fresh (hFresh : FreshCache (.fixed offset) sky tick) {fireTs : Int}
    (hFire : computeFireTime (.fixed offset) rule tick.nowTs tick.cache = some fireTs) :
    fireTimeOf offset sky rule ((Zone.fixed offset).dayOf tick.nowTs) = some fireTs := by
  unfold computeFireTime at hFire
  unfold fireTimeOf
  cases hKind : rule.triggerKind with
  | time =>
      simp only [hKind, Zone.midnight_fixed] at hFire
      exact hFire
  | sunrise =>
      simp only [hKind] at hFire
      obtain ⟨ts, hCache, rfl⟩ := Option.map_eq_some_iff.mp hFire
      obtain ⟨cache, hSome, hTs⟩ := Option.bind_eq_some_iff.mp hCache
      rw [(hFresh cache hSome).1 ts hTs]
  | sunset =>
      simp only [hKind] at hFire
      obtain ⟨ts, hCache, rfl⟩ := Option.map_eq_some_iff.mp hFire
      obtain ⟨cache, hSome, hTs⟩ := Option.bind_eq_some_iff.mp hCache
      rw [(hFresh cache hSome).2 ts hTs]

theorem passed_fireTimeOf {day fireTs : Int} (h : fireTimeOf offset sky rule day = some fireTs) :
    Passed (.fixed offset) sky rule day fireTs := by
  unfold fireTimeOf at h
  unfold Passed
  split at h
  case h_1 hKind =>
    obtain ⟨hm, hParse, rfl⟩ := Option.map_eq_some_iff.mp h
    refine ⟨hm, hParse, _, Int.le_refl _, ?_⟩
    simp only [Zone.localSeconds, Zone.fixed]
    omega
  case h_2 hKind =>
    cases h
    exact Int.le_refl _
  case h_3 hKind =>
    cases h
    exact Int.le_refl _

/-- The last run of the rule is over, and was not before its day's time. -/
def RanInTime (offset : Int) (sky : Sky) (rule : Rule) (s : State) (bound : Int) : Prop :=
  ∀ row ∈ s.rows, row.rule = rule → ∀ last ∈ row.lastRunAt, last ≤ bound ∧
    ∀ fireTs ∈ fireTimeOf offset sky rule ((Zone.fixed offset).dayOf last), fireTs ≤ last

theorem RanInTime.tickOk {bound : Int} (h : RanInTime offset sky rule s bound)
    (hBound : bound ≤ tick.nowTs) (hMask : rule.daysMask ≠ 0)
    (hFresh : FreshCache (.fixed offset) sky tick) {row : Schedule} (hRow : row ∈ s.rows)
    (hRule : row.rule = rule) : TickOk (.fixed offset) sky row tick := by
  subst hRule
  constructor
  case mask => exact hMask
  case notEarly =>
    intro fireTs hFire _
    exact passed_fireTimeOf (computeFireTime_fresh hFresh hFire)
  case ordered =>
    intro last hLast
    have hLe := (h row hRow rfl last hLast).1
    exact Int.ediv_le_ediv (by omega) (Int.add_le_add_right (by omega) _)
  case notMoved =>
    intro last hLast hDay
    refine ⟨?_, ?_⟩
    · rw [Zone.midnight_fixed, ← hDay]
      simp only [Zone.dayOf, Zone.localSeconds, Zone.fixed]
      omega
    · intro fireTs hFire _
      have hOfDay := computeFireTime_fresh hFresh hFire
      rw [← hDay] at hOfDay
      exact (h row hRow rfl last hLast).2 fireTs hOfDay

theorem RanInTime.step {bound : Int} (h : RanInTime offset sky rule s bound)
    (hBound : bound ≤ tick.nowTs) (hFresh : FreshCache (.fixed offset) sky tick)
    (hNodup : (s.rows.map fun x => x.rule.id).Nodup) :
    RanInTime offset sky rule (fireDueSchedules (.fixed offset) s tick) tick.nowTs := by
  intro row' hMem' hRule last hLast
  rw [fireDueSchedules_rows] at hMem'
  obtain ⟨row, hMem, rfl⟩ := List.mem_map.mp hMem'
  rw [afterRun_rule] at hRule
  subst hRule
  rw [Option.mem_def, lastRunAt_tick hNodup hMem] at hLast
  split at hLast
  case isTrue hDue =>
    cases hLast
    refine ⟨Int.le_refl _, ?_⟩
    intro fireTs hFire
    obtain ⟨_, fireTs', hFire', hLe, _⟩ := due_cases hDue
    have hSame := computeFireTime_fresh hFresh hFire'
    rw [Option.mem_def, hSame] at hFire
    cases hFire
    exact hLe
  case isFalse =>
    obtain ⟨hLe, hInTime⟩ := h row hMem rfl last hLast
    exact ⟨by omega, hInTime⟩

end Fixed

/-- Where the clock is never set and the cache always has the sun times of the
day, ticks in time order meet the condition for every rule with days in its
mask. -/
theorem stepsOk_of_fresh_cache {offset : Int} {sky : Sky} {rule : Rule}
    (hMask : rule.daysMask ≠ 0) {ticks : List Tick}
    (hOrdered : ticks.Pairwise fun a b => a.nowTs ≤ b.nowTs)
    (hFresh : ∀ tick ∈ ticks, FreshCache (.fixed offset) sky tick) {s : State} (bound : Int)
    (hNodup : (s.rows.map fun x => x.rule.id).Nodup)
    (hBound : ∀ tick ∈ ticks, bound ≤ tick.nowTs) (hRan : RanInTime offset sky rule s bound) :
    StepsOk (fireDueSchedules (.fixed offset)) (RuleOk (.fixed offset) sky rule) s ticks := by
  induction ticks generalizing s bound with
  | nil => exact stepsOk_nil
  | cons tick ticks ih =>
      obtain ⟨hFirst, hRest⟩ := List.pairwise_cons.mp hOrdered
      have hTick := hBound tick (List.mem_cons_self ..)
      have hCache := hFresh tick (List.mem_cons_self ..)
      refine stepsOk_cons.mpr ⟨?_, ?_⟩
      · intro row hRow hRule
        exact hRan.tickOk hTick hMask hCache hRow hRule
      · exact ih hRest (fun t ht => hFresh t (List.mem_cons_of_mem _ ht)) tick.nowTs
          (nodup_tick hNodup) hFirst (hRan.step hTick hCache hNodup)

/-! ### Three days -/

/-- Switch the lamp on at sunrise, every day. -/
def sunriseLamp : Rule where
  id := 1
  outputId := "rover.load"
  on := true
  triggerKind := .sunrise
  triggerTime := none
  offsetMin := 0
  daysMask := 127
  enabled := true

def lampTable : State := { rows := [⟨sunriseLamp, none, none⟩], firings := [] }

/-- The sun rises at six in the morning. -/
def atSix : Sky where
  sunrise := fun day => day * 86400 + 21600
  sunset := fun day => day * 86400 + 64800

def tickAt (nowTs sunriseTs : Int) : Tick where
  nowTs := nowTs
  cache := some ⟨some sunriseTs, none⟩
  outcome := fun _ => .returned true ""

/-- Ticks around two sunrises, each with the cache of its day. -/
def freshTicks : List Tick :=
  [tickAt 20000 21600, tickAt 22000 21600, tickAt 23000 21600, tickAt 90000 108000,
    tickAt 108000 108000]

theorem sunriseLamp_fires_daily :
    Daily (.fixed 0) atSix sunriseLamp
      (run (fireDueSchedules (.fixed 0)) lampTable freshTicks).firings := by
  have hFresh : ∀ tick ∈ freshTicks, FreshCache (.fixed 0) atSix tick := by
    intro tick hTick cache hCache
    simp only [freshTicks, List.mem_cons, List.not_mem_nil, or_false] at hTick
    rcases hTick with rfl | rfl | rfl | rfl | rfl <;> cases hCache <;>
      exact ⟨fun ts hTs => by cases hTs; decide, fun ts hTs => nomatch hTs⟩
  have hRan : RanInTime 0 atSix sunriseLamp lampTable 0 := by
    intro row hRow _ last hLast
    cases List.mem_singleton.mp hRow
    cases hLast
  have hTicks : StepsOk (fireDueSchedules (.fixed 0)) (RuleOk (.fixed 0) atSix sunriseLamp)
      lampTable freshTicks :=
    stepsOk_of_fresh_cache (by decide) (by decide) hFresh 0 (by decide) (by decide) hRan
  exact schedule_fires_daily (s := lampTable) (by decide)
    ⟨_, List.mem_singleton_self _, rfl⟩ rfl hTicks

/-- The cache of the first day is still there at one minute past midnight: the
lamp goes on then, and again at sunrise. -/
def staleTicks : List Tick :=
  [tickAt 21600 21600, tickAt 86460 21600, tickAt 108000 108000]

theorem sunriseLamp_fires_at_midnight :
    (staleTicks.map Tick.nowTs).Pairwise (· ≤ ·) ∧
      ¬ Daily (.fixed 0) atSix sunriseLamp
        (run (fireDueSchedules (.fixed 0)) lampTable staleTicks).firings := by
  have hFirings : firingsOf 1 (run (fireDueSchedules (.fixed 0)) lampTable staleTicks).firings =
      [⟨1, "rover.load", true, 21600⟩, ⟨1, "rover.load", true, 86460⟩,
        ⟨1, "rover.load", true, 108000⟩] := by decide +kernel
  refine ⟨by decide, ?_⟩
  intro hDaily
  have hOnce := hDaily.once
  rw [show sunriseLamp.id = 1 from rfl, hFirings] at hOnce
  revert hOnce
  decide +kernel

end WattPost.Outputs.Schedules
