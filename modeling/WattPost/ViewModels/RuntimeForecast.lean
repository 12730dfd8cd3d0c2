import Mathlib.Data.List.Sort
import WattPost.Lib.Reservoir
import WattPost.Storage.BankPower

/-! `runtime_forecast`: how long the bank lasts, at the present rate and with the
solar forecast ahead. Energies are in watt-hours and exact. -/
namespace WattPost.ViewModels

open Reservoir WattPost.Storage

/-- What `latest["bank"]` holds as numbers. -/
structure BankLatest where
  socPct : Option ℚ
  capacityAh : Option ℚ
  voltageV : Option ℚ

/-- The bank as the forecast takes it. -/
structure BankState where
  socPct : ℚ
  capacityAh : ℚ
  voltageV : ℚ
  hasCapacity : 0 < capacityAh

/-- `none` is the answer `no_bank`; a voltage that is missing or zero counts as that
of a nominal pack. -/
def bankState (bank : BankLatest) : Option BankState := do
  let soc ← bank.socPct
  let capacity ← bank.capacityAh
  let voltage := bank.voltageV.getD 0
  if h : 0 < capacity then
    some ⟨soc, capacity, if voltage = 0 then 12.8 else voltage, h⟩
  else none

/-- `reserve_pct`. -/
def reservePct : ℚ := 10

def BankState.bankWh (bank : BankState) : ℚ := bank.capacityAh * bank.voltageV

/-- `usable_wh`. -/
def BankState.usableWh (bank : BankState) : ℚ :=
  bank.bankWh * max 0 (bank.socPct - reservePct) / 100

/-- What a full bank holds above the reserve. -/
def BankState.fullWh (bank : BankState) : ℚ := bank.bankWh - bank.bankWh * reservePct / 100

inductive Status where
  | charging
  | idle
deriving DecidableEq

structure Naive where
  avgLoadW : Option ℚ
  hoursToEmpty : Option ℚ
  status : Option Status
deriving DecidableEq

/-- The line for the present rate. -/
def naive (usableWh : ℚ) : Option ℚ → Naive
  | none => ⟨none, none, none⟩
  | some avgW =>
      if avgW < -5 then
        ⟨some (PyDict.round avgW 1), some (PyDict.round (usableWh / |avgW|) 2), none⟩
      else if 5 < avgW then ⟨some (PyDict.round avgW 1), none, some .charging⟩
      else ⟨some (PyDict.round avgW 1), none, some .idle⟩

/-- The points of the cached forecast that lie ahead, sorted; a missing power is
zero. -/
def futurePoints (now : ℕ) (points : List (ℕ × Option ℚ)) : List (ℕ × ℚ) :=
  ((points.filter fun p => now < p.1).map fun p => (p.1, p.2.getD 0)).insertionSort
    fun a b => toLex a ≤ toLex b

/-- The loop over the points: when the energy above the reserve is used up. -/
def walk (loadW : ℚ) : ℕ → ℚ → List (ℕ × ℚ) → Option ℕ
  | _, _, [] => none
  | prevTs, socWh, (ts, pvW) :: rest =>
      let dtH := ((ts : ℚ) - prevTs) / 3600
      let netW := pvW - loadW
      let next := socWh + netW * dtH
      if next ≤ 0 then
        let prevSoc := next - netW * dtH
        if netW * dtH < 0 then
          let frac := prevSoc / (-netW * dtH)
          some ⌊prevTs + frac * ((ts : ℚ) - prevTs)⌋₊
        else some ts
      else walk loadW ts next rest

/-- The forecast-aware part, where it is available. -/
structure ForecastWalk where
  horizonHours : ℚ
  depletionTs : Option ℕ
  hoursToEmpty : Option ℚ
  reservesIndefinite : Bool

def forecastWalk (usableWh avgW : ℚ) (now : ℕ) (future : List (ℕ × ℚ)) : Option ForecastWalk :=
  match future.getLast? with
  | none => none
  | some last =>
      if avgW < -5 then
        let depletionTs := walk |avgW| now usableWh future
        some
          { horizonHours := PyDict.round (((last.1 : ℚ) - now) / 3600) 1
            depletionTs := depletionTs
            hoursToEmpty := depletionTs.bind fun ts =>
              if ts = 0 then none else some (PyDict.round (((ts : ℚ) - now) / 3600) 1)
            reservesIndefinite := depletionTs.isNone }
      else none

structure RuntimeForecast where
  socPct : ℚ
  capacityAh : ℚ
  voltageV : ℚ
  usableWh : ℚ
  naive : Naive
  forecast : Option ForecastWalk

/-- `runtime_forecast`, from the bank's latest values, the rolling average of its
power and the cached forecast. -/
def runtimeForecast (bank : BankLatest) (avgW : Option ℚ)
    (cached : Option (List (ℕ × Option ℚ))) (now : ℕ) : Option RuntimeForecast := do
  let bank ← bankState bank
  return {
    socPct := PyDict.round bank.socPct 1
    capacityAh := PyDict.round bank.capacityAh 1
    voltageV := PyDict.round bank.voltageV 2
    usableWh := PyDict.round bank.usableWh 1
    naive := ViewModels.naive bank.usableWh avgW
    forecast := do
      let avgW ← avgW
      let points ← cached
      forecastWalk bank.usableWh avgW now (futurePoints now points) }

/-! ### The rate it goes by -/

/-- The mean of the bank's power over some times. -/
def meanPower (samples : Keyed.Table Key ℚ) (packs : List String) (times : List ℕ) : Option ℚ :=
  if times = [] then none
  else some ((times.map (bankPower samples packs)).sum / times.length)

/-- The rolling average is the mean of the bank's power, the power by time is what the
other queries sum up, and the hours to empty go by that mean. -/
structure SameBankPower (samples : Keyed.Table Key ℚ) (packs : List String) (times : List ℕ)
    (now windowSeconds : Int) : Prop where
  rows : ∀ ts ∈ times, (bankRows samples fun ts => now - windowSeconds ≤ ts).lookup ts =
    some (bankPower samples packs ts)
  average : rollingLoadAvg samples now windowSeconds = meanPower samples packs times
  hours : ∀ bank cached nowTs mean forecast state,
    meanPower samples packs times = some mean → mean < -5 → bankState bank = some state →
    runtimeForecast bank (rollingLoadAvg samples now windowSeconds) cached nowTs = some forecast →
      forecast.naive.hoursToEmpty = some (PyDict.round (state.usableWh / |mean|) 2)

theorem runtimeForecast_naive {bank : BankLatest} {avgW : Option ℚ}
    {cached : Option (List (ℕ × Option ℚ))} {now : ℕ} {forecast : RuntimeForecast}
    {state : BankState} (hState : bankState bank = some state)
    (h : runtimeForecast bank avgW cached now = some forecast) :
    forecast.naive = naive state.usableWh avgW := by
  rw [runtimeForecast, hState] at h
  cases h
  rfl

/-- Dividing by the packs as well leaves a mean as it is when there is one pack, or
nothing to divide. -/
theorem div_packs_eq_iff {total : ℚ} {times packs : ℕ} (hTimes : 0 < times) (hPacks : 0 < packs) :
    total / (times * packs) = total / times ↔ packs = 1 ∨ total = 0 := by
  have hTimes' : (times : ℚ) ≠ 0 := by exact_mod_cast hTimes.ne'
  have hPacks' : (packs : ℚ) ≠ 0 := by exact_mod_cast hPacks.ne'
  rw [div_eq_div_iff (mul_ne_zero hTimes' hPacks') hTimes']
  constructor
  · intro h
    have hProduct : total * times * ((packs : ℚ) - 1) = 0 := by linarith
    rcases mul_eq_zero.mp hProduct with h | h
    · exact Or.inr ((mul_eq_zero.mp h).resolve_right hTimes')
    · exact Or.inl (by exact_mod_cast sub_eq_zero.mp h)
  · rintro (rfl | rfl)
    · simp
    · simp

/-- Packs that give 128 W each, seen once. -/
def packSamples (packs : List String) : Keyed.Table Key ℚ :=
  Keyed.Table.empty.insertAll
    (packs.flatMap fun pack =>
      [(⟨100, pack, "voltage_v"⟩, 12.8), (⟨100, pack, "current_a"⟩, -10)])

theorem isSome_packSamples {packs : List String} {ts : ℕ} {device : String} :
    (packPower (packSamples packs) ts device).isSome = true ↔ ts = 100 ∧ device ∈ packs := by
  have hHas : ∀ k, (packSamples packs).Has k ↔
      k.ts = 100 ∧ k.device ∈ packs ∧ (k.metric = "voltage_v" ∨ k.metric = "current_a") := by
    rintro ⟨ts, device, metric⟩
    rw [packSamples, Keyed.Table.has_insertAll, or_iff_right fun ⟨_, h⟩ => List.not_mem_nil h]
    simp only [List.mem_flatMap, List.mem_cons, List.not_mem_nil, or_false, Prod.mk.injEq,
      Key.mk.injEq]
    constructor
    · rintro ⟨r, pack, hPack, ⟨⟨rfl, rfl, rfl⟩, _⟩ | ⟨⟨rfl, rfl, rfl⟩, _⟩⟩
      · exact ⟨rfl, hPack, Or.inl rfl⟩
      · exact ⟨rfl, hPack, Or.inr rfl⟩
    · rintro ⟨rfl, hPack, rfl | rfl⟩
      · exact ⟨12.8, device, hPack, Or.inl ⟨⟨rfl, rfl, rfl⟩, rfl⟩⟩
      · exact ⟨-10, device, hPack, Or.inr ⟨⟨rfl, rfl, rfl⟩, rfl⟩⟩
  rw [isSome_packPower, hHas, hHas]
  simp

theorem commonPacks_packSamples {packs : List String} (hSome : packs ≠ []) (hNodup : packs.Nodup)
    (hNamed : ∀ pack ∈ packs, ∃ i : ℕ, pack = "battery_" ++ toString i) :
    CommonPacks (packSamples packs) packs where
  some_pack := hSome
  nodup := hNodup
  named := hNamed
  only _ _ _ h := (isSome_packSamples.mp h).2
  together _ _ _ _ hOther h := isSome_packSamples.mpr ⟨(isSome_packSamples.mp h).1, hOther⟩

theorem commonTimes_packSamples {packs : List String} (hSome : packs ≠ []) :
    CommonTimes (packSamples packs) packs (fun ts => (200 : Int) - 3600 ≤ ts) [100] where
  nodup := List.nodup_singleton 100
  mem ts := by
    obtain ⟨pack, hPack⟩ := List.exists_mem_of_ne_nil packs hSome
    rw [List.mem_singleton, decide_eq_true_eq]
    constructor
    · rintro rfl
      exact ⟨by norm_num, pack, hPack, isSome_packSamples.mpr ⟨rfl, hPack⟩⟩
    · rintro ⟨_, _, _, hReports⟩
      exact (isSome_packSamples.mp hReports).1

end WattPost.ViewModels
