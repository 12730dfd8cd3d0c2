import WattPost.Lib.Ribbon
import WattPost.Storage.Analytics

/-! The charger's page: the energy that it delivered, and the ribbon of its charging
states over the day with the seconds that it spent in each. -/
namespace WattPost.Storage

open Keyed PairScan Ribbon
open PyDict (Dict)

/-! ### The code -/

/-- `SELECT ts, value FROM samples WHERE device = ? AND metric = ? AND ts BETWEEN ? AND ?
ORDER BY ts`. -/
def chargerRows {R : Type} (table : Table Key R) (device metric : String) (since untilTs : Int) :
    List (Int × R) :=
  (table.rows.filter fun r =>
    r.1.device = device && r.1.metric = metric && between since untilTs r.1.ts).map fun r =>
      ((r.1.ts : Int), r.2)

/-- One step of `_integrate`: the energy, and the seconds above five watts. -/
def integrateActive (a b : Int × ℚ) : ℚ × Int :=
  let dtS := b.1 - a.1
  let avg := max 0 ((a.2 + b.2) / 2)
  (avg * (dtS / 3600), if 5 < avg then dtS else 0)

/-- `_integrate`. -/
def integrate (samples : Table Key ℚ) (device powerMetric : String) (since untilTs : Int) :
    ℚ × Int :=
  ((chargerRows samples device powerMetric since untilTs).foldl (scan integrateActive)
    (none, 0)).2

/-- `per_state[state] = per_state.get(state, 0) + dur`. -/
def tally (perState : Dict Int) (state : String) (dur : Int) : Dict Int :=
  perState.set state ((perState.get state).getD 0 + dur)

/-- The variables of the loop that collapses the rows. -/
structure RibbonLoop where
  ribbon : List (Segment String)
  perState : Dict Int
  segStart : Int
  segState : String

/-- A segment is closed. -/
def RibbonLoop.close (s : RibbonLoop) (endTs : Int) : List (Segment String) × Dict Int :=
  (s.ribbon ++ [⟨s.segStart, endTs, s.segState⟩], tally s.perState s.segState (endTs - s.segStart))

/-- One turn of the loop. -/
def RibbonLoop.step (s : RibbonLoop) (row : Int × String) : RibbonLoop :=
  if row.2 ≠ s.segState then
    let closed := s.close row.1
    { ribbon := closed.1, perState := closed.2, segStart := row.1, segState := row.2 }
  else s

/-- The ribbon and the seconds for each state. -/
def stateRibbon (rows : List (Int × String)) (nowTs : Int) : List (Segment String) × Dict Int :=
  match rows with
  | [] => ([], .empty)
  | first :: rest => (rest.foldl RibbonLoop.step ⟨[], .empty, first.1, first.2⟩).close nowTs

structure ChargerStats where
  device : String
  sinceTs : Int
  nowTs : Int
  lifetimeEnergyWh : ℚ
  todayEnergyWh : ℚ
  todayActiveS : Int
  todayStateSeconds : Dict Int
  stateRibbon : List (Segment String)

/-- `charger_stats`. -/
def chargerStats (db : Db ℚ) (device powerMetric : String) (midnightTs nowTs : Int) :
    ChargerStats :=
  let today := integrate db.samples device powerMetric midnightTs nowTs
  let rows := chargerRows db.samplesStr device "charging_state" midnightTs nowTs
  let states := stateRibbon rows nowTs
  { device := device
    sinceTs := midnightTs
    nowTs := nowTs
    lifetimeEnergyWh := PyDict.round (integrate db.samples device powerMetric 0 nowTs).1 1
    todayEnergyWh := PyDict.round today.1 1
    todayActiveS := today.2
    todayStateSeconds := states.2
    stateRibbon := states.1 }

/-! ### The rows -/

/-- The rows come in the order of time. -/
theorem chargerRows_sorted {R : Type} (table : Table Key R) (device metric : String)
    (since untilTs : Int) :
    (chargerRows table device metric since untilTs).Pairwise fun a b => a.1 ≤ b.1 := by
  rw [chargerRows, List.pairwise_map]
  exact (table.sorted.filter _).imp fun hLt => Int.ofNat_le.mpr (Key.ts_le_of_lt hLt)

theorem chargerRows_le {R : Type} {table : Table Key R} {device metric : String}
    {since untilTs : Int} :
    ∀ r ∈ chargerRows table device metric since untilTs, r.1 ≤ untilTs := by
  intro r hr
  obtain ⟨row, hRow, rfl⟩ := List.mem_map.mp hr
  have hKept := (List.mem_filter.mp hRow).2
  simp only [between, Bool.and_eq_true, decide_eq_true_eq] at hKept
  exact hKept.2.2

/-! ### The loop -/

/-- What the segments of a state add up to. -/
def secondsIn (segments : List (Segment String)) (state : String) : Int :=
  ((segments.filter fun s => s.state = state).map Segment.length).sum

/-- A tally of segments. -/
def tallyAll (perState : Dict Int) (segments : List (Segment String)) : Dict Int :=
  segments.foldl (fun d s => tally d s.state s.length) perState

/-- The loop makes the segments, and tallies each as it closes it. -/
theorem close_foldl (s : RibbonLoop) (rest : List (Int × String)) (nowTs : Int) :
    (rest.foldl RibbonLoop.step s).close nowTs =
      (s.ribbon ++ collapse nowTs s.segStart s.segState rest,
        tallyAll s.perState (collapse nowTs s.segStart s.segState rest)) := by
  induction rest generalizing s with
  | nil => rfl
  | cons row rest ih =>
      rw [List.foldl_cons, ih, collapse, RibbonLoop.step]
      split_ifs with hSame
      · simp only [RibbonLoop.close, List.append_assoc, List.singleton_append]
        rfl
      · rfl

theorem stateRibbon_cons (first : Int × String) (rest : List (Int × String)) (nowTs : Int) :
    stateRibbon (first :: rest) nowTs =
      (collapse nowTs first.1 first.2 rest,
        tallyAll .empty (collapse nowTs first.1 first.2 rest)) :=
  close_foldl ⟨[], .empty, first.1, first.2⟩ rest nowTs

/-! ### The tally -/

theorem get_tally (d : Dict Int) (state : String) (dur : Int) (k : String) :
    ((tally d state dur).get k).getD 0 =
      (d.get k).getD 0 + if state = k then dur else 0 := by
  rw [tally, Dict.get_set]
  by_cases h : state = k
  · rw [if_pos h.symm, if_pos h, h]
    rfl
  · rw [if_neg (Ne.symm h), if_neg h, Int.add_zero]

/-- The tally has the seconds of every state. -/
theorem get_tallyAll (d : Dict Int) (segments : List (Segment String)) (k : String) :
    ((tallyAll d segments).get k).getD 0 = (d.get k).getD 0 + secondsIn segments k := by
  induction segments generalizing d with
  | nil => exact (Int.add_zero _).symm
  | cons s rest ih =>
      have hStep : tallyAll d (s :: rest) = tallyAll (tally d s.state s.length) rest := rfl
      rw [hStep, ih, get_tally, secondsIn, secondsIn, List.filter_cons]
      by_cases h : s.state = k
      · rw [if_pos h, if_pos (decide_eq_true h), List.map_cons, List.sum_cons, Int.add_assoc]
      · rw [if_neg h, if_neg (by simpa using h), Int.add_zero]

/-- It has no other states. -/
theorem mem_keys_tallyAll (d : Dict Int) (segments : List (Segment String)) (k : String) :
    k ∈ (tallyAll d segments).keys ↔ k ∈ d.keys ∨ ∃ s ∈ segments, s.state = k := by
  induction segments generalizing d with
  | nil => simp [tallyAll]
  | cons s rest ih =>
      have hStep : tallyAll d (s :: rest) = tallyAll (tally d s.state s.length) rest := rfl
      have hKeys : k ∈ (tally d s.state s.length).keys ↔ k = s.state ∨ k ∈ d.keys :=
        PyDict.mem_keys_setEntry
      rw [hStep, ih, hKeys, List.exists_mem_cons_iff]
      tauto

/-- Adding to one value adds to the sum of all. -/
theorem sum_setEntry (entries : List (String × Int)) (k : String) (dur : Int) :
    ((PyDict.setEntry k ((entries.lookup k).getD 0 + dur) entries).map Prod.snd).sum =
      (entries.map Prod.snd).sum + dur := by
  induction entries with
  | nil => simp [PyDict.setEntry]
  | cons e rest ih =>
      rw [PyDict.lookup_cons_ite, PyDict.setEntry]
      by_cases h : e.1 = k
      · rw [if_pos h, if_pos h.symm, List.map_cons, List.map_cons, List.sum_cons, List.sum_cons,
          Option.getD_some]
        omega
      · rw [if_neg h, if_neg (Ne.symm h), List.map_cons, List.map_cons, List.sum_cons,
          List.sum_cons, ih, Int.add_assoc]

/-- The values of the tally add up to all the lengths. -/
theorem sum_tallyAll (d : Dict Int) (segments : List (Segment String)) :
    ((tallyAll d segments).entries.map Prod.snd).sum =
      (d.entries.map Prod.snd).sum + (segments.map Segment.length).sum := by
  induction segments generalizing d with
  | nil => exact (Int.add_zero _).symm
  | cons s rest ih =>
      have hStep : tallyAll d (s :: rest) = tallyAll (tally d s.state s.length) rest := rfl
      have hSum : ((tally d s.state s.length).entries.map Prod.snd).sum = _ :=
        sum_setEntry d.entries s.state s.length
      rw [hStep, ih, hSum, List.map_cons, List.sum_cons, Int.add_assoc]

/-! ### The ribbon -/

/-- What a ribbon should be: segments from the first row to now, each following the one
before with another state; at every instant the state of the latest row; and the
seconds of each state are what its segments add up to. -/
structure IsRibbon (rows : List (Int × String)) (firstTs nowTs : Int)
    (segments : List (Segment String)) (perState : Dict Int) : Prop where
  tiles : Tiles firstTs nowTs segments
  alternate : segments.IsChain fun a b => a.state ≠ b.state
  covered : ∀ t, firstTs ≤ t → t < nowTs → ∃ s ∈ segments, s.Covers t
  agrees : ∀ s ∈ segments, ∀ t, s.Covers t → latest rows t = some s.state
  last : (segments.getLast?).map Segment.state = latest rows nowTs
  seconds : ∀ state, (perState.get state).getD 0 = secondsIn segments state
  states : ∀ state, state ∈ perState.keys ↔ ∃ s ∈ segments, s.state = state
  total : (perState.entries.map Prod.snd).sum = nowTs - firstTs

theorem latest_eq_last {rows : List (Int × String)} {nowTs : Int}
    (hNow : ∀ r ∈ rows, r.1 ≤ nowTs) : latest rows nowTs = rows.getLast?.map Prod.snd := by
  have hAll : rows.filter (fun r => decide (r.1 ≤ nowTs)) = rows :=
    List.filter_eq_self.mpr fun r hr => decide_eq_true (hNow r hr)
  rw [latest, hAll]

/-- **The ribbon.** For any rows of the day in the order of time, none after now, the loop
makes the ribbon of these rows; and `charger_stats` answers with what the loop makes
of its rows, which are such. -/
theorem chargerStats_ribbon :
    (∀ (first : Int × String) (rest : List (Int × String)) (nowTs : Int),
      (first :: rest).Pairwise (fun a b => a.1 ≤ b.1) →
      (∀ r ∈ first :: rest, r.1 ≤ nowTs) →
      IsRibbon (first :: rest) first.1 nowTs (stateRibbon (first :: rest) nowTs).1
        (stateRibbon (first :: rest) nowTs).2) ∧
    ∀ (db : Db ℚ) (device powerMetric : String) (midnightTs nowTs : Int),
      let rows := chargerRows db.samplesStr device "charging_state" midnightTs nowTs
      let stats := chargerStats db device powerMetric midnightTs nowTs
      rows.Pairwise (fun a b => a.1 ≤ b.1) ∧ (∀ r ∈ rows, r.1 ≤ nowTs) ∧
        stats.stateRibbon = (stateRibbon rows nowTs).1 ∧
        stats.todayStateSeconds = (stateRibbon rows nowTs).2 := by
  refine ⟨fun first rest nowTs hRows hNow => ?_, fun db device powerMetric midnightTs nowTs =>
    ⟨chargerRows_sorted .., chargerRows_le, rfl, rfl⟩⟩
  have hTiles := tiles_collapse hRows hNow
  rw [stateRibbon_cons]
  refine ⟨hTiles, alternate_collapse .., fun t => hTiles.covered, fun s hs t ht => ?_, ?_,
    fun state => ?_, fun state => ?_, ?_⟩
  · have hReached : first.1 ≤ t := (hTiles.start_ge s hs).trans ht.1
    rw [latest_cons hReached, state_collapse hRows hNow hs ht]
  · rw [last_collapse, latest_eq_last hNow, List.getLast?_cons]
    cases rest.getLast? <;> rfl
  · rw [get_tallyAll, Dict.get_empty]
    exact Int.zero_add _
  · rw [mem_keys_tallyAll]
    exact or_iff_right List.not_mem_nil
  · rw [sum_tallyAll, hTiles.sum_length]
    exact Int.zero_add _

/-- Bulk for an hour, absorption in two polls, and bulk again. -/
theorem chargerStats_ribbon_example :
    IsRibbon [(0, "bulk"), (3600, "absorption"), (3660, "absorption"), (7200, "bulk")] 0 9000
      (stateRibbon [(0, "bulk"), (3600, "absorption"), (3660, "absorption"), (7200, "bulk")] 9000).1
      (stateRibbon [(0, "bulk"), (3600, "absorption"), (3660, "absorption"), (7200, "bulk")] 9000).2 :=
  chargerStats_ribbon.1 (0, "bulk") [(3600, "absorption"), (3660, "absorption"), (7200, "bulk")]
    9000 (by decide) (by decide)

end WattPost.Storage
