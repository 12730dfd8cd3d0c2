import WattPost.ViewModels.RuntimeForecast

/-! The forecast's walk against the battery it forecasts: a store that holds a full
bank above the reserve and no more. -/
namespace WattPost.ViewModels

open Reservoir

/-- The points as stretches of a constant rate, in watt-hours a second. -/
def stretches (loadW : ℚ) (points : List (ℕ × ℚ)) : List Stretch :=
  points.map fun p => (p.1, (p.2 - loadW) / 3600)

theorem follow_stretches {loadW : ℚ} {now : ℕ} {points : List (ℕ × ℚ)}
    (hAfter : ∀ p ∈ points, now < p.1) (hSorted : points.Pairwise fun a b => a.1 < b.1) :
    Follow now (stretches loadW points) := by
  induction points generalizing now with
  | nil => trivial
  | cons p rest ih =>
      obtain ⟨hHead, hTail⟩ := List.pairwise_cons.mp hSorted
      exact ⟨hAfter p List.mem_cons_self, ih hHead hTail⟩

/-- The interpolated second of a step that ends without energy. -/
theorem interpolate {loadW pvW socWh : ℚ} {prevTs ts : ℕ} (hFollow : prevTs < ts)
    (hRate : pvW < loadW) :
    let step := (pvW - loadW) * (((ts : ℚ) - prevTs) / 3600)
    (prevTs : ℚ) + (socWh + step - step) / (-(pvW - loadW) * (((ts : ℚ) - prevTs) / 3600)) *
        ((ts : ℚ) - prevTs) = prevTs + socWh / -((pvW - loadW) / 3600) := by
  have hTime : (ts : ℚ) - prevTs ≠ 0 := by
    have hCast : (prevTs : ℚ) < ts := by exact_mod_cast hFollow
    linarith
  have hNet : pvW - loadW ≠ 0 := by linarith
  dsimp only
  rw [add_sub_cancel_right]
  field_simp

theorem step_neg_iff (loadW pvW : ℚ) {prevTs ts : ℕ} (hFollow : prevTs < ts) :
    (pvW - loadW) * (((ts : ℚ) - prevTs) / 3600) < 0 ↔ pvW < loadW := by
  have hTime : 0 < ((ts : ℚ) - prevTs) / 3600 := by
    have hCast : (prevTs : ℚ) < ts := by exact_mod_cast hFollow
    linarith
  constructor
  · intro hDrop
    by_contra hGain
    have hStep := mul_nonneg (sub_nonneg.mpr (not_lt.mp hGain)) hTime.le
    linarith
  · intro hRate
    exact mul_neg_of_neg_of_pos (sub_neg.mpr hRate) hTime

/-- Above the reserve the loop is the walk over a store without a limit. -/
theorem walk_eq_firstEmpty {loadW : ℚ} {prevTs : ℕ} {socWh : ℚ} {points : List (ℕ × ℚ)}
    (hSoc : 0 < socWh) (hFollow : Follow prevTs (stretches loadW points)) :
    walk loadW prevTs socWh points =
      (firstEmpty id prevTs socWh (stretches loadW points)).map Nat.floor := by
  induction points generalizing prevTs socWh with
  | nil => rfl
  | cons p rest ih =>
      obtain ⟨ts, pvW⟩ := p
      have hStep : (pvW - loadW) / 3600 * ((ts : ℚ) - prevTs) =
          (pvW - loadW) * (((ts : ℚ) - prevTs) / 3600) := by ring
      simp only [walk, stretches, List.map_cons, firstEmpty, hStep, id]
      by_cases hEnd : socWh + (pvW - loadW) * (((ts : ℚ) - prevTs) / 3600) ≤ 0
      · have hDrop : (pvW - loadW) * (((ts : ℚ) - prevTs) / 3600) < 0 := by linarith
        rw [if_pos hEnd, if_pos hDrop, if_pos hEnd,
          interpolate hFollow.1 ((step_neg_iff loadW pvW hFollow.1).mp hDrop)]
        rfl
      · rw [if_neg hEnd, if_neg hEnd]
        exact ih (not_le.mp hEnd) hFollow.2

/-- At the reserve or below, the loop answers with the present second exactly when it
starts at the reserve and drains at once. -/
theorem walk_eq_now_iff {loadW socWh pvW : ℚ} {now ts : ℕ} {rest : List (ℕ × ℚ)} (hNow : 0 < now)
    (hSoc : socWh ≤ 0) (hFollow : Follow now (stretches loadW ((ts, pvW) :: rest))) :
    walk loadW now socWh ((ts, pvW) :: rest) = some now ↔ socWh = 0 ∧ pvW < loadW := by
  have hLater : now < ts := hFollow.1
  have hNeg := step_neg_iff loadW pvW hLater
  simp only [walk]
  by_cases hEnd : socWh + (pvW - loadW) * (((ts : ℚ) - now) / 3600) ≤ 0
  · rw [if_pos hEnd]
    by_cases hDrop : (pvW - loadW) * (((ts : ℚ) - now) / 3600) < 0
    · have hRate := hNeg.mp hDrop
      rw [if_pos hDrop, interpolate hLater hRate, Option.some.injEq]
      constructor
      · intro hFloor
        refine ⟨?_, hRate⟩
        by_contra hBelow
        have hEarlier : (now : ℚ) + socWh / -((pvW - loadW) / 3600) < now := by
          have hDiv : socWh / -((pvW - loadW) / 3600) < 0 :=
            div_neg_of_neg_of_pos (lt_of_le_of_ne hSoc hBelow) (by linarith)
          linarith
        exact ((Nat.floor_lt' hNow.ne').mpr hEarlier).ne hFloor
      · rintro ⟨rfl, _⟩
        simp
    · rw [if_neg hDrop, Option.some.injEq]
      constructor
      · intro hSame
        exact absurd hSame hLater.ne'
      · rintro ⟨_, hRate⟩
        exact absurd (hNeg.mpr hRate) hDrop
  · -- the first step lifts the bank above the reserve, and what follows comes later
    rw [if_neg hEnd, walk_eq_firstEmpty (not_le.mp hEnd) hFollow.2]
    constructor
    · intro hFound
      obtain ⟨u, hu, hFloor⟩ := Option.map_eq_some_iff.mp hFound
      have hAfter : (ts : ℚ) < u := lt_firstEmpty_id (not_le.mp hEnd) hFollow.2 hu
      have hFar : ts ≤ ⌊u⌋₊ := Nat.le_floor hAfter.le
      omega
    · rintro ⟨rfl, hRate⟩
      exact absurd (hNeg.mpr hRate).le (by linarith [not_le.mp hEnd])

/-! ### The answer -/

/-- The answer is that of the bounded battery: the second in which its energy above
the reserve is first used up, or none and a reserve for all of the horizon. -/
def ForecastWalk.Simulates (answer : ForecastWalk) (usableWh fullWh loadW : ℚ) (now : ℕ)
    (future : List (ℕ × ℚ)) : Prop :=
  match answer.depletionTs with
  | some ts => answer.reservesIndefinite = false ∧
      ∃ t : ℚ, Empties fullWh now usableWh (stretches loadW future) (some t) ∧ ts = ⌊t⌋₊
  | none => answer.reservesIndefinite = true ∧
      Empties fullWh now usableWh (stretches loadW future) none

/-- With the reserve used up already, the load must exceed the first point; otherwise
what a full bank could not take must be nothing, or drain within the second. -/
def SurplusHarmless (usableWh fullWh loadW : ℚ) (now : ℕ) (future : List (ℕ × ℚ)) : Prop :=
  if usableWh ≤ 0 then usableWh = 0 ∧ ∀ first ∈ future.head?, first.2 < loadW
  else ∀ e, emptying fullWh now usableWh 0 (stretches loadW future) = some e → e.InTheSecond

theorem runtimeForecast_forecast {bank : BankLatest} {avgW : ℚ}
    {points : List (ℕ × Option ℚ)} {now : ℕ} {forecast : RuntimeForecast} {state : BankState}
    {answer : ForecastWalk} (hState : bankState bank = some state)
    (h : runtimeForecast bank (some avgW) (some points) now = some forecast)
    (hAnswer : forecast.forecast = some answer) :
    futurePoints now points ≠ [] ∧
      answer.depletionTs = walk |avgW| now state.usableWh (futurePoints now points) ∧
      answer.reservesIndefinite = answer.depletionTs.isNone := by
  rw [runtimeForecast, hState] at h
  cases h
  change forecastWalk state.usableWh avgW now (futurePoints now points) = some answer at hAnswer
  rw [forecastWalk] at hAnswer
  cases hLast : (futurePoints now points).getLast? with
  | none =>
      rw [hLast] at hAnswer
      cases hAnswer
  | some last =>
      rw [hLast] at hAnswer
      have hSome : futurePoints now points ≠ [] := by
        intro hNil
        rw [hNil] at hLast
        cases hLast
      by_cases hLoad : avgW < -5
      · simp only [if_pos hLoad, Option.some.injEq] at hAnswer
        subst hAnswer
        exact ⟨hSome, rfl, rfl⟩
      · simp only [if_neg hLoad] at hAnswer
        cases hAnswer

theorem mem_futurePoints {now : ℕ} {points : List (ℕ × Option ℚ)} {p : ℕ × ℚ}
    (h : p ∈ futurePoints now points) : now < p.1 := by
  rw [futurePoints, List.mem_insertionSort] at h
  obtain ⟨q, hq, rfl⟩ := List.mem_map.mp h
  exact of_decide_eq_true (List.mem_filter.mp hq).2

theorem fullWh_pos {state : BankState} (hUsable : 0 < state.usableWh) : 0 < state.fullWh := by
  have hSoc : 0 ≤ max 0 (state.socPct - reservePct) := le_max_left _ _
  have hBank : 0 < state.bankWh := by
    by_contra hBank
    have hProduct := mul_nonpos_of_nonpos_of_nonneg (not_lt.mp hBank) hSoc
    rw [BankState.usableWh] at hUsable
    linarith
  rw [BankState.fullWh, reservePct]
  linarith

theorem ForecastWalk.simulates_iff {answer : ForecastWalk} {usableWh fullWh loadW : ℚ} {now : ℕ}
    {future : List (ℕ × ℚ)} {o : Option ℚ}
    (hIndefinite : answer.reservesIndefinite = answer.depletionTs.isNone)
    (hEmpties : Empties fullWh now usableWh (stretches loadW future) o) :
    answer.Simulates usableWh fullWh loadW now future ↔
      answer.depletionTs = o.map Nat.floor := by
  rw [Simulates]
  cases hTs : answer.depletionTs with
  | none =>
      rw [hTs] at hIndefinite
      constructor
      · rintro ⟨_, hNone⟩
        rw [hEmpties.unique hNone]
        rfl
      · intro hMap
        rw [Option.map_eq_none_iff.mp hMap.symm] at hEmpties
        exact ⟨hIndefinite, hEmpties⟩
  | some ts =>
      rw [hTs] at hIndefinite
      constructor
      · rintro ⟨_, t, hSome, rfl⟩
        rw [hEmpties.unique hSome]
        rfl
      · intro hMap
        obtain ⟨t, rfl, hFloor⟩ := Option.map_eq_some_iff.mp hMap.symm
        exact ⟨hIndefinite, t, hEmpties, hFloor.symm⟩

/-- A full bank of 1 kWh, of which 900 Wh lie above the reserve. -/
def fullBank : BankState := ⟨100, 100, 10, by norm_num⟩

/-- What the endpoint answers for it at 100 s, under a load of 100 W. -/
def fullBankForecast (points : List (ℕ × Option ℚ)) : Option ForecastWalk :=
  forecastWalk fullBank.usableWh (-100) 100 (futurePoints 100 points)

theorem bankState_fullBank : bankState ⟨some 100, some 100, some 10⟩ = some fullBank := by
  norm_num [bankState, fullBank]

theorem runtimeForecast_fullBank (points : List (ℕ × Option ℚ)) :
    ∃ forecast, runtimeForecast ⟨some 100, some 100, some 10⟩ (some (-100)) (some points) 100 =
      some forecast ∧ forecast.forecast = fullBankForecast points := by
  rw [runtimeForecast, bankState_fullBank]
  exact ⟨_, rfl, rfl⟩

/-- Eleven hours without sun: the bank lasts nine. -/
def night : List (ℕ × Option ℚ) := [(3700, none), (39700, none)]

/-- An hour with 900 Wh more than the load takes, and then ten without sun. -/
def sunThenNight : List (ℕ × Option ℚ) := [(3700, some 1000), (39700, none)]

end WattPost.ViewModels
