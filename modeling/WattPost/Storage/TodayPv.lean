import WattPost.Storage.Analytics
import WattPost.Storage.History

/-! The day's solar energy, device by device: what the queries of `today_aggregate`,
which run over all devices in one scan, make of each. -/
namespace WattPost.Storage

open Keyed PairScan

/-! ### One device -/

/-- The values of a metric of one device, in the order of their times. -/
def series (samples : Table Key ℚ) (metric : String) (lo hi : Int) (device : String) :
    List (ℕ × ℚ) :=
  (samples.rows.filter fun r => inWindow device metric lo hi r.1).map fun r => (r.1.ts, r.2)

/-- The sum of the increments of a counter that are not negative. -/
def counterHarvest (values : List (ℕ × ℚ)) : ℚ :=
  pairSum (fun a b => max 0 (b.2 - a.2)) values

/-- The trapezoid integral of a power. -/
def powerIntegral (values : List (ℕ × ℚ)) : ℚ := pairSum trapezoid values

/-- The integral in which a negative mean counts as none. -/
def clampedIntegral (values : List (ℕ × ℚ)) : ℚ :=
  pairSum (fun a b => max 0 ((a.2 + b.2) / 2) * hoursBetween a.1 b.1) values

/-- No value of the counter is above the one before. -/
def NeverRises (values : List (ℕ × ℚ)) : Prop := values.IsChain fun a b => b.2 ≤ a.2

/-- No two neighbouring powers have a positive mean. -/
def NeverPositive (values : List (ℕ × ℚ)) : Prop := values.IsChain fun a b => a.2 + b.2 ≤ 0

/-- No two neighbouring powers have a negative mean. -/
def NeverNegative (values : List (ℕ × ℚ)) : Prop := values.IsChain fun a b => 0 ≤ a.2 + b.2

theorem counterHarvest_nonneg (values : List (ℕ × ℚ)) : 0 ≤ counterHarvest values :=
  pairSum_nonneg (List.Pairwise.isChain (List.pairwise_of_forall fun _ _ => le_max_left _ _))

theorem counterHarvest_eq_zero_iff {values : List (ℕ × ℚ)} :
    counterHarvest values = 0 ↔ NeverRises values := by
  have hNonneg : values.IsChain fun a b => 0 ≤ max 0 (b.2 - a.2) :=
    List.Pairwise.isChain (List.pairwise_of_forall fun _ _ => le_max_left _ _)
  rw [counterHarvest, pairSum_eq_zero_iff hNonneg]
  apply isChain_congr hNonneg
  intro a b _
  rw [max_eq_left_iff, sub_nonpos]

section Sorted

variable {values : List (ℕ × ℚ)} (hSorted : values.IsChain fun a b => a.1 < b.1)

include hSorted

theorem hoursBetween_pos : values.IsChain fun a b => 0 < hoursBetween a.1 b.1 := by
  refine hSorted.imp ?_
  intro a b hLt
  have hCast : (a.1 : ℚ) < b.1 := by exact_mod_cast hLt
  rw [hoursBetween]
  linarith

/-- Weighted by the hours between them, parts of neighbours that are never negative
vanish together. -/
theorem weighted_eq_zero_iff (part : ℕ × ℚ → ℕ × ℚ → ℚ) (hPart : ∀ a b, 0 ≤ part a b) :
    0 ≤ pairSum (fun a b => part a b * hoursBetween a.1 b.1) values ∧
      (pairSum (fun a b => part a b * hoursBetween a.1 b.1) values = 0 ↔
        values.IsChain fun a b => part a b = 0) := by
  have hHours := hoursBetween_pos hSorted
  have hNonneg : values.IsChain fun a b => 0 ≤ part a b * hoursBetween a.1 b.1 :=
    hHours.imp fun a b hPos => mul_nonneg (hPart a b) hPos.le
  refine ⟨pairSum_nonneg hNonneg, ?_⟩
  rw [pairSum_eq_zero_iff hNonneg]
  apply isChain_congr hHours
  intro a b hPos
  simp [hPos.ne']

theorem clampedIntegral_nonneg : 0 ≤ clampedIntegral values :=
  (weighted_eq_zero_iff hSorted _ fun _ _ => le_max_left _ _).1

theorem clampedIntegral_eq_zero_iff : clampedIntegral values = 0 ↔ NeverPositive values := by
  refine (weighted_eq_zero_iff hSorted _ fun _ _ => le_max_left _ _).2.trans ?_
  apply isChain_congr hSorted
  intro a b _
  rw [max_eq_left_iff]
  constructor <;> intro h <;> linarith

/-- Clamping adds what the pairs with a negative mean take away. -/
theorem clampedIntegral_sub :
    0 ≤ clampedIntegral values - powerIntegral values ∧
      (clampedIntegral values - powerIntegral values = 0 ↔ NeverNegative values) := by
  have hSplit : clampedIntegral values = powerIntegral values +
      pairSum (fun a b => max 0 (-((a.2 + b.2) / 2)) * hoursBetween a.1 b.1) values := by
    rw [clampedIntegral, powerIntegral, ← pairSum_add]
    apply pairSum_congr
    intro a _ b _
    rw [trapezoid, ← add_mul]
    congr 1
    rcases le_total 0 ((a.2 + b.2) / 2) with h | h
    · rw [max_eq_right h, max_eq_left (by linarith), add_zero]
    · rw [max_eq_left h, max_eq_right (by linarith), add_neg_cancel]
  have hRest := weighted_eq_zero_iff hSorted (fun a b => max 0 (-((a.2 + b.2) / 2)))
    fun _ _ => le_max_left _ _
  rw [hSplit, add_sub_cancel_left]
  refine ⟨hRest.1, hRest.2.trans ?_⟩
  apply isChain_congr hSorted
  intro a b _
  rw [max_eq_left_iff]
  constructor <;> intro h <;> linarith

end Sorted

section Day

variable (samples : Table Key ℚ) (lo hi : Int)

def hasCounter (device : String) : Bool := !(series samples "energy_today_wh" lo hi device).isEmpty

/-- What a device harvested: by its counter where it reports one. -/
def deviceHarvest (device : String) : ℚ :=
  if hasCounter samples lo hi device then
    counterHarvest (series samples "energy_today_wh" lo hi device)
  else powerIntegral (series samples "pv_power_w" lo hi device)

/-- What the integral over a device has beyond its share in the right total when no
counter counts. -/
def integrationGap (device : String) : ℚ :=
  clampedIntegral (series samples "pv_power_w" lo hi device) -
    if hasCounter samples lo hi device then 0
    else powerIntegral (series samples "pv_power_w" lo hi device)

/-- The solar devices: those with a sample of the counter or of the power. -/
def pvDevices : List String :=
  ((samples.rows.filter fun r =>
    (r.1.metric = "energy_today_wh" || r.1.metric = "pv_power_w") && between lo hi r.1.ts).map
      fun r => r.1.device).dedup

/-! ### The scan over all devices -/

theorem mem_series {metric device : String} {ts : ℕ} {v : ℚ} :
    (ts, v) ∈ series samples metric lo hi device ↔
      (⟨ts, device, metric⟩, v) ∈ samples.rows ∧ between lo hi ts = true := by
  simp only [series, List.mem_map, List.mem_filter, inWindow, between, Bool.and_eq_true,
    decide_eq_true_eq, Prod.mk.injEq]
  constructor
  · rintro ⟨⟨⟨_, _, _⟩, _⟩, ⟨hRow, ⟨⟨rfl, rfl⟩, hLo⟩, hHi⟩, rfl, rfl⟩
    exact ⟨hRow, hLo, hHi⟩
  · rintro ⟨hRow, hLo, hHi⟩
    exact ⟨_, ⟨hRow, ⟨⟨rfl, rfl⟩, hLo⟩, hHi⟩, rfl, rfl⟩

theorem mem_pvDevices {device : String} :
    device ∈ pvDevices samples lo hi ↔
      series samples "energy_today_wh" lo hi device ≠ [] ∨
        series samples "pv_power_w" lo hi device ≠ [] := by
  have hSeries : ∀ metric, series samples metric lo hi device ≠ [] ↔
      ∃ ts v, (⟨ts, device, metric⟩, v) ∈ samples.rows ∧ between lo hi ts = true := by
    intro metric
    constructor
    · intro hSome
      obtain ⟨⟨ts, v⟩, hMem⟩ := List.exists_mem_of_ne_nil _ hSome
      exact ⟨ts, v, (mem_series samples lo hi).mp hMem⟩
    · rintro ⟨ts, v, hRow⟩
      exact List.ne_nil_of_mem ((mem_series samples lo hi).mpr hRow)
  rw [hSeries, hSeries, pvDevices, List.mem_dedup, List.mem_map]
  simp only [List.mem_filter, Bool.and_eq_true, Bool.or_eq_true, decide_eq_true_eq]
  constructor
  · rintro ⟨⟨⟨ts, _, metric⟩, v⟩, ⟨hRow, hMetric | hMetric, hWindow⟩, rfl⟩
    · exact Or.inl ⟨ts, v, by subst hMetric; exact hRow, hWindow⟩
    · exact Or.inr ⟨ts, v, by subst hMetric; exact hRow, hWindow⟩
  · rintro (⟨ts, v, hRow, hWindow⟩ | ⟨ts, v, hRow, hWindow⟩)
    · exact ⟨_, ⟨hRow, Or.inl rfl, hWindow⟩, rfl⟩
    · exact ⟨_, ⟨hRow, Or.inr rfl, hWindow⟩, rfl⟩

/-- The rows of the scan are those of all the series. -/
theorem mem_metricRows {metric device : String} {ts : ℕ} {v : ℚ} :
    (toLex (device, ts), v) ∈ (metricRows samples metric lo hi).rows ↔
      (ts, v) ∈ series samples metric lo hi device := by
  let kept := samples.rows.filter fun r => r.1.metric = metric && between lo hi r.1.ts
  have hKeys : ((kept.map fun r => (toLex (r.1.device, r.1.ts), r.2)).map Prod.fst).Nodup := by
    rw [List.map_map]
    refine List.pairwise_map.mpr ((samples.sorted.filter _).imp_of_mem ?_)
    intro a b ha hb hLt hSame
    have hMetric : a.1.metric = metric ∧ b.1.metric = metric := by
      simp only [List.mem_filter, Bool.and_eq_true, decide_eq_true_eq] at ha hb
      exact ⟨ha.2.1, hb.2.1⟩
    have hPair := Prod.mk.inj (toLex.injective hSame)
    have hKey : a.1 = b.1 := by
      cases hA : a.1
      cases hB : b.1
      simp_all
    exact lt_irrefl b.1 (lt_of_eq_of_lt hKey.symm hLt)
  rw [metricRows, Table.mem_rows_insertAll hKeys, mem_series]
  simp only [kept, List.mem_map, List.mem_filter, Bool.and_eq_true, decide_eq_true_eq,
    Prod.mk.injEq, EmbeddingLike.apply_eq_iff_eq]
  constructor
  · rintro ⟨⟨⟨_, _, _⟩, _⟩, ⟨hRow, rfl, hWindow⟩, ⟨rfl, rfl⟩, rfl⟩
    exact ⟨hRow, hWindow⟩
  · rintro ⟨hRow, hWindow⟩
    exact ⟨_, ⟨hRow, rfl, hWindow⟩, ⟨rfl, rfl⟩, rfl⟩

theorem series_sorted (metric device : String) :
    (series samples metric lo hi device).Pairwise fun a b => a.1 < b.1 := by
  have hSame : ∀ r ∈ samples.rows.filter fun r => inWindow device metric lo hi r.1,
      r.1.device = device ∧ r.1.metric = metric := by
    intro r hr
    simp only [List.mem_filter, inWindow, Bool.and_eq_true, decide_eq_true_eq] at hr
    exact hr.2.1.1
  exact ts_sorted (samples.sorted.filter _) hSame

/-- In the scan the rows of a device stand together, in the order of their times. -/
theorem ofKind_metricRows (metric device : String) :
    ofKind (fun r : (String ×ₗ ℕ) × ℚ => (ofLex r.1).1) device
        (metricRows samples metric lo hi).rows =
      (series samples metric lo hi device).map fun r => (toLex (device, r.1), r.2) := by
  apply eq_of_mem_iff ((metricRows samples metric lo hi).sorted.filter _)
  · refine List.pairwise_map.mpr ((series_sorted samples lo hi metric device).imp ?_)
    intro a b hLt
    exact Prod.Lex.toLex_lt_toLex.mpr (Or.inr ⟨rfl, hLt⟩)
  · rintro ⟨⟨d, ts⟩, v⟩
    rw [List.mem_filter, List.mem_map]
    constructor
    · rintro ⟨hRow, hDevice⟩
      obtain rfl : d = device := of_decide_eq_true hDevice
      exact ⟨(ts, v), (mem_metricRows samples lo hi).mp hRow, rfl⟩
    · rintro ⟨⟨ts', v'⟩, hMem, hEq⟩
      obtain ⟨hKey, rfl⟩ := Prod.mk.inj hEq
      obtain ⟨rfl, rfl⟩ := Prod.mk.inj (toLex.injective hKey)
      exact ⟨(mem_metricRows samples lo hi).mpr hMem, decide_eq_true rfl⟩

/-- A scan that adds nothing between two devices adds up the devices. -/
theorem scan_metricRows (metric : String) {f : (String ×ₗ ℕ) × ℚ → (String ×ₗ ℕ) × ℚ → ℚ}
    {g : ℕ × ℚ → ℕ × ℚ → ℚ}
    (hCross : ∀ a b, (ofLex a.1).1 ≠ (ofLex b.1).1 → f a b = 0)
    (hSame : ∀ (device : String) (a b : ℕ × ℚ),
      f (toLex (device, a.1), a.2) (toLex (device, b.1), b.2) = g a b)
    (hDevices : ∀ device, series samples metric lo hi device ≠ [] →
      device ∈ pvDevices samples lo hi) :
    ((metricRows samples metric lo hi).rows.foldl (scan f) (none, 0)).2 =
      ((pvDevices samples lo hi).map fun device =>
        pairSum g (series samples metric lo hi device)).sum := by
  have hSorted : (metricRows samples metric lo hi).rows.Pairwise fun a b =>
      (ofLex a.1).1 ≤ (ofLex b.1).1 := by
    refine (metricRows samples metric lo hi).sorted.imp ?_
    intro a b hLt
    rcases Prod.Lex.lt_iff.mp hLt with h | h
    · exact h.le
    · exact h.1.le
  have hKinds : ∀ r ∈ (metricRows samples metric lo hi).rows,
      (ofLex r.1).1 ∈ pvDevices samples lo hi := by
    rintro ⟨⟨device, ts⟩, v⟩ hr
    have hMem : (ts, v) ∈ series samples metric lo hi device :=
      (mem_metricRows samples lo hi).mp hr
    exact hDevices device (List.ne_nil_of_mem hMem)
  rw [foldl_scan, pairSum_byKind (fun r : (String ×ₗ ℕ) × ℚ => (ofLex r.1).1) f hSorted hCross
    (List.nodup_dedup _) hKinds]
  congr 1
  refine List.map_congr_left fun device _ => ?_
  rw [ofKind_metricRows, pairSum_map]
  exact pairSum_congr fun a _ b _ => hSame device a b

variable {samples lo hi} {devices : List String}

theorem counted_eq (samples : Table Key ℚ) (lo hi : Int) :
    ((metricRows samples "energy_today_wh" lo hi).rows.foldl (scan counterStep) (none, 0)).2 =
      ((pvDevices samples lo hi).map fun device =>
        counterHarvest (series samples "energy_today_wh" lo hi device)).sum := by
  refine scan_metricRows samples lo hi "energy_today_wh" ?_ ?_ ?_
  · intro a b hCross
    rw [counterStep, if_neg hCross]
  · intro device a b
    refine (if_pos rfl).trans ?_
    change (if a.2 ≤ b.2 then b.2 - a.2 else 0) = max 0 (b.2 - a.2)
    split_ifs with hRise
    · rw [max_eq_right (sub_nonneg.mpr hRise)]
    · rw [max_eq_left (sub_nonpos.mpr (not_le.mp hRise).le)]
  · exact fun device hSeries => (mem_pvDevices samples lo hi).mpr (Or.inl hSeries)

theorem integrateMetric_eq (samples : Table Key ℚ) (lo hi : Int) :
    integrateMetric samples lo hi "pv_power_w" =
      ((pvDevices samples lo hi).map fun device =>
        clampedIntegral (series samples "pv_power_w" lo hi device)).sum := by
  refine scan_metricRows samples lo hi "pv_power_w" ?_ ?_ ?_
  · intro a b hCross
    rw [integrateStep, if_neg hCross]
  · intro device a b
    exact if_pos rfl
  · exact fun device hSeries => (mem_pvDevices samples lo hi).mpr (Or.inr hSeries)

theorem series_isChain (samples : Table Key ℚ) (lo hi : Int) (metric device : String) :
    (series samples metric lo hi device).IsChain fun a b => a.1 < b.1 :=
  (series_sorted samples lo hi metric device).isChain

theorem integrationGap_spec (device : String) :
    0 ≤ integrationGap samples lo hi device ∧
      (integrationGap samples lo hi device = 0 ↔
        if hasCounter samples lo hi device then
          NeverPositive (series samples "pv_power_w" lo hi device)
        else NeverNegative (series samples "pv_power_w" lo hi device)) := by
  have hChain := series_isChain samples lo hi "pv_power_w" device
  rw [integrationGap]
  split_ifs
  · rw [sub_zero]
    exact ⟨clampedIntegral_nonneg hChain, clampedIntegral_eq_zero_iff hChain⟩
  · exact clampedIntegral_sub hChain

theorem counterHarvest_of_not_hasCounter {device : String}
    (hNone : hasCounter samples lo hi device = false) :
    counterHarvest (series samples "energy_today_wh" lo hi device) = 0 := by
  have hEmpty : series samples "energy_today_wh" lo hi device = [] := by
    simpa [hasCounter] using hNone
  rw [hEmpty]
  rfl

/-- A sum over the devices, when those without a counter add something more. -/
theorem sum_split_counter {f g h : String → ℚ}
    (hCounter : ∀ device, hasCounter samples lo hi device = true → f device = g device)
    (hNone : ∀ device, hasCounter samples lo hi device = false →
      f device = g device + h device) :
    (devices.map f).sum = (devices.map g).sum +
      ((devices.filter fun device => !hasCounter samples lo hi device).map h).sum := by
  induction devices with
  | nil => simp
  | cons device rest ih =>
      rw [List.map_cons, List.sum_cons, ih, List.map_cons, List.sum_cons]
      cases hKind : hasCounter samples lo hi device with
      | true =>
          rw [List.filter_cons_of_neg (by simp [hKind]), hCounter device hKind]
          ring
      | false =>
          rw [List.filter_cons_of_pos (by simp [hKind]), List.map_cons, List.sum_cons,
            hNone device hKind]
          ring

/-- The right total is what the counters add up to and what the others integrate to. -/
theorem sum_deviceHarvest :
    (devices.map (deviceHarvest samples lo hi)).sum =
      (devices.map fun device =>
        counterHarvest (series samples "energy_today_wh" lo hi device)).sum +
      ((devices.filter fun device => !hasCounter samples lo hi device).map fun device =>
        powerIntegral (series samples "pv_power_w" lo hi device)).sum := by
  apply sum_split_counter
  · intro device hCounter
    rw [deviceHarvest, if_pos hCounter]
  · intro device hNone
    rw [deviceHarvest, if_neg (by simp [hNone]), counterHarvest_of_not_hasCounter hNone, zero_add]

/-- Integrating every device and not only those without a counter adds the gaps. -/
theorem sum_clampedIntegral :
    (devices.map fun device => clampedIntegral (series samples "pv_power_w" lo hi device)).sum =
      (devices.map (integrationGap samples lo hi)).sum +
      ((devices.filter fun device => !hasCounter samples lo hi device).map fun device =>
        powerIntegral (series samples "pv_power_w" lo hi device)).sum := by
  apply sum_split_counter
  · intro device hCounter
    rw [integrationGap, if_pos hCounter, sub_zero]
  · intro device hNone
    rw [integrationGap, if_neg (by simp [hNone])]
    ring

theorem sum_map_eq_zero_iff {f : String → ℚ} (hNonneg : ∀ device ∈ devices, 0 ≤ f device) :
    (devices.map f).sum = 0 ↔ ∀ device ∈ devices, f device = 0 := by
  have hAll : ∀ x ∈ devices.map f, 0 ≤ x := by
    intro x hx
    obtain ⟨device, hMem, rfl⟩ := List.mem_map.mp hx
    exact hNonneg device hMem
  constructor
  · intro hSum device hMem
    exact List.all_zero_of_le_zero_le_of_sum_eq_zero hAll hSum (List.mem_map_of_mem hMem)
  · intro hZero
    rw [List.map_congr_left hZero]
    simp

theorem counted_nonneg (samples : Table Key ℚ) (lo hi : Int) (devices : List String) :
    0 ≤ (devices.map fun device =>
      counterHarvest (series samples "energy_today_wh" lo hi device)).sum := by
  apply List.sum_nonneg
  intro x hx
  obtain ⟨device, _, rfl⟩ := List.mem_map.mp hx
  exact counterHarvest_nonneg _

theorem counted_eq_zero_iff (samples : Table Key ℚ) (lo hi : Int) (devices : List String) :
    (devices.map fun device =>
        counterHarvest (series samples "energy_today_wh" lo hi device)).sum = 0 ↔
      ∀ device ∈ devices, NeverRises (series samples "energy_today_wh" lo hi device) := by
  rw [sum_map_eq_zero_iff fun device _ => counterHarvest_nonneg _]
  simp only [counterHarvest_eq_zero_iff]

/-- The day's solar energy is the sum over the devices exactly when some counter
rises and the devices without one integrate to nothing together, or no counter
rises and neither the devices with one show power nor the others a power below
zero. -/
theorem pvTodayWh_eq_sum_iff (samples : Table Key ℚ) (lo hi : Int) :
    (todayAggregate samples lo hi).pvTodayWh =
        ((pvDevices samples lo hi).map (deviceHarvest samples lo hi)).sum ↔
      ((∃ device ∈ pvDevices samples lo hi,
          ¬ NeverRises (series samples "energy_today_wh" lo hi device)) ∧
        (((pvDevices samples lo hi).filter fun device => !hasCounter samples lo hi device).map
          fun device => powerIntegral (series samples "pv_power_w" lo hi device)).sum = 0) ∨
      ((∀ device ∈ pvDevices samples lo hi,
          NeverRises (series samples "energy_today_wh" lo hi device)) ∧
        ∀ device ∈ pvDevices samples lo hi,
          if hasCounter samples lo hi device then
            NeverPositive (series samples "pv_power_w" lo hi device)
          else NeverNegative (series samples "pv_power_w" lo hi device)) := by
  have hCounted := counted_eq samples lo hi
  have hMoved := counted_eq_zero_iff samples lo hi (pvDevices samples lo hi)
  have hNonneg := counted_nonneg samples lo hi (pvDevices samples lo hi)
  change pvTodayWh samples lo hi = _ ↔ _
  simp only [pvTodayWh]
  rw [sum_deviceHarvest, hCounted, integrateMetric_eq, sum_clampedIntegral]
  generalize ((pvDevices samples lo hi).map fun device =>
    counterHarvest (series samples "energy_today_wh" lo hi device)).sum = counted at *
  rcases hNonneg.eq_or_lt with hZero | hPos
  · -- no counter rises: everything is integrated
    have hStill := hMoved.mp hZero.symm
    rw [if_pos (by simp [← hZero]), ← hZero, zero_add, add_eq_right,
      sum_map_eq_zero_iff fun device _ => (integrationGap_spec device).1]
    simp only [(integrationGap_spec _).2]
    constructor
    · intro hGap
      exact Or.inr ⟨hStill, hGap⟩
    · rintro (⟨⟨device, hMem, hRises⟩, _⟩ | ⟨_, hGap⟩)
      · exact absurd (hStill device hMem) hRises
      · exact hGap
  · -- some counter rises, so there are rows and only they count
    have hRows : (metricRows samples "energy_today_wh" lo hi).rows ≠ [] := by
      intro hNil
      rw [hNil] at hCounted
      exact hPos.ne hCounted
    have hSome : ¬ ∀ device ∈ pvDevices samples lo hi,
        NeverRises (series samples "energy_today_wh" lo hi device) :=
      fun hAll => hPos.ne' (hMoved.mpr hAll)
    rw [if_neg (by simp [hRows, hPos]), left_eq_add]
    constructor
    · intro hRest
      push Not at hSome
      exact Or.inl ⟨hSome, hRest⟩
    · rintro (⟨_, hRest⟩ | ⟨hAll, _⟩)
      · exact hRest
      · exact absurd hAll hSome

end Day

/-! ### A mixed rig -/

/-- An hour of a charger without a counter, at two hundred watts. -/
def westOnly : Table Key ℚ :=
  Table.empty.insertAll
    [(⟨0, "west", "pv_power_w"⟩, 200), (⟨3600, "west", "pv_power_w"⟩, 200)]

/-- The same with a second charger, whose counter goes up by a hundred. -/
def mixedRig : Table Key ℚ :=
  westOnly.insertAll
    [(⟨0, "east", "energy_today_wh"⟩, 0), (⟨3600, "east", "energy_today_wh"⟩, 100)]

/-- The counter of one charger hides the other, and adding it lowers the total. -/
theorem mixedRig_total :
    (todayAggregate mixedRig 0 3600).pvTodayWh = 100 ∧
      ((pvDevices mixedRig 0 3600).map (deviceHarvest mixedRig 0 3600)).sum = 300 ∧
      (todayAggregate westOnly 0 3600).pvTodayWh = 200 := by
  decide +kernel

end WattPost.Storage
