import WattPost.Lib.MapM
import WattPost.Lib.Pooled
import WattPost.Storage.BankAggregate
import WattPost.Vendors.Readings

/-! The pack sum of a bank of smart batteries, whatever their makes. Voltages are
averaged over all packs. The state of charge is the charge of all packs over the
capacity of those that report one, so it stays inside the hull of the packs only
as long as the charge without a capacity fits under it. -/
namespace WattPost.Storage

open PyDict Vendors

/-- The number under a name. -/
def reported (d : PollDict) (key : String) : Option ℚ := PyVal.number (d.get key)

/-- The same as it enters a sum. -/
def figure (d : PollDict) (key : String) : ℚ := (reported d key).getD 0

/-- The state of charge of a pack: charge over capacity, or what it reports when
it has no capacity to tell. -/
def packSoc (d : PollDict) : Option ℚ :=
  match reported d "capacity_ah", reported d "remaining_charge_ah" with
  | some cap, some rem => if cap = 0 then reported d "soc_pct" else some (rem / cap * 100)
  | _, _ => reported d "soc_pct"

def packVolts (batts : List PollDict) : List ℚ := batts.filterMap fun d => reported d "voltage_v"

def packSocs (batts : List PollDict) : List ℚ := batts.filterMap packSoc

/-- Between the smallest and the largest of some figures. -/
def Between (xs : List ℚ) (q : ℚ) : Prop := (∃ a ∈ xs, a ≤ q) ∧ ∃ b ∈ xs, q ≤ b

/-- The bank's figures stay inside the hull of the packs. -/
structure InsideHull (batts : List PollDict) (view : BankView) : Prop where
  voltage : Between (packVolts batts) view.voltageV
  soc : ∃ soc, view.socPct = some soc ∧ 0 ≤ soc ∧ soc ≤ 100 ∧
    (packSocs batts ≠ [] → Between (packSocs batts) soc)

/-! ### Packs -/

/-- A complete reading of a smart battery. -/
inductive Pack where
  | jbd (reading : Jbd.Reading)
  | daly (reading : Daly.Reading)
  | renogy (reading : Renogy.SmartBattery.Reading)
  | smartLithium (reading : Victron.SmartLithium.Reading)

def Pack.dict (pack : Pack) (label : String) (slaveId : Int) : PollDict :=
  match pack with
  | jbd reading => reading.dict label slaveId
  | daly reading => reading.dict label slaveId
  | renogy reading => reading.dict label slaveId
  | smartLithium reading => reading.dict label slaveId

/-- A pack whose figures are in range. -/
structure ValidPack where
  pack : Pack
  label : String
  slaveId : Int
  within : ∀ cap rem, reported (pack.dict label slaveId) "capacity_ah" = some cap →
    reported (pack.dict label slaveId) "remaining_charge_ah" = some rem → 0 ≤ rem ∧ rem ≤ cap
  percent : ∀ soc, reported (pack.dict label slaveId) "soc_pct" = some soc → 0 ≤ soc ∧ soc ≤ 100

def ValidPack.dict (p : ValidPack) : PollDict := p.pack.dict p.label p.slaveId

/-- The pack's capacity takes part in the sum. -/
def Backed (d : PollDict) : Prop := figure d "capacity_ah" ≠ 0

instance (d : PollDict) : Decidable (Backed d) := inferInstanceAs (Decidable (_ ≠ _))

/-- The charge that packs report without a capacity. -/
def unbackedCharge (batts : List PollDict) : ℚ :=
  ((batts.filter fun d => ¬ Backed d).map fun d => figure d "remaining_charge_ah").sum

/-- The charge the other packs lack to a state of charge. -/
def headroom (soc : ℚ) (batts : List PollDict) : ℚ :=
  ((batts.filter Backed).map fun d =>
    soc / 100 * figure d "capacity_ah" - figure d "remaining_charge_ah").sum

/-- Where some pack reports a capacity, the charge of the packs that do not fits
into the room that the others have below the largest pack; where none does, no
pack reports a state of charge, or one reports zero. -/
def SocFits (batts : List PollDict) : Prop :=
  if ∃ d ∈ batts, Backed d then
    ∃ soc ∈ packSocs batts, unbackedCharge batts ≤ headroom soc batts
  else packSocs batts = [] ∨ 0 ∈ packSocs batts

/-! ### Sums -/

/-- The sum reads numbers, or nothing. -/
structure PackNumbers (d : PollDict) : Prop where
  voltage : PyVal.Numeric (d.get "voltage_v")
  current : PyVal.Numeric (d.get "current_a")
  capacity : PyVal.Numeric (d.get "capacity_ah")
  remaining : PyVal.Numeric (d.get "remaining_charge_ah")

theorem packNumbers_of_keys {d : PollDict} {voltage current remaining capacity soc : Option ℚ}
    (h : BatteryKeys d voltage current remaining capacity soc) : PackNumbers d where
  voltage := h.voltage ▸ PyVal.numeric_map_num _
  current := h.current ▸ PyVal.numeric_map_num _
  capacity := h.capacity ▸ PyVal.numeric_map_num _
  remaining := h.remaining ▸ PyVal.numeric_map_num _

/-- What a valid pack's result looks like to the sum. -/
structure PackShape (d : PollDict) : Prop where
  numbers : PackNumbers d
  voltage : ∃ v, d.get "voltage_v" = some (.num v)
  charge : ∀ cap, reported d "capacity_ah" = some cap →
    ∃ rem, reported d "remaining_charge_ah" = some rem ∧ 0 ≤ rem ∧ rem ≤ cap
  nonneg : 0 ≤ figure d "remaining_charge_ah"
  percent : ∀ soc, reported d "soc_pct" = some soc → 0 ≤ soc ∧ soc ≤ 100

theorem reported_of_get {d : PollDict} {key : String} {q : Option ℚ}
    (h : d.get key = q.map .num) : reported d key = q := by
  rw [reported, h]
  cases q <;> rfl

theorem packShape_of_keys {d : PollDict} {v : ℚ} {current remaining capacity soc : Option ℚ}
    (h : BatteryKeys d (some v) current remaining capacity soc)
    (hBoth : capacity.isSome = true → remaining.isSome = true)
    (hNonneg : ∀ rem, remaining = some rem → capacity = none → 0 ≤ rem)
    (hWithin : ∀ cap rem, reported d "capacity_ah" = some cap →
      reported d "remaining_charge_ah" = some rem → 0 ≤ rem ∧ rem ≤ cap)
    (hPercent : ∀ soc, reported d "soc_pct" = some soc → 0 ≤ soc ∧ soc ≤ 100) : PackShape d where
  numbers := packNumbers_of_keys h
  voltage := ⟨v, h.voltage⟩
  charge := by
    intro cap hCap
    have hSome : capacity = some cap := (reported_of_get h.capacity).symm.trans hCap
    obtain ⟨rem, hRem⟩ := Option.isSome_iff_exists.mp (hBoth (by rw [hSome]; rfl))
    have hReported := (reported_of_get h.remaining).trans hRem
    exact ⟨rem, hReported, hWithin cap rem hCap hReported⟩
  nonneg := by
    rw [figure, reported_of_get h.remaining]
    match remaining, capacity with
    | none, _ => exact le_refl 0
    | some rem, none => exact hNonneg rem rfl rfl
    | some rem, some cap =>
        exact (hWithin cap rem (reported_of_get h.capacity) (reported_of_get h.remaining)).1
  percent := hPercent

theorem ValidPack.shape (p : ValidPack) : PackShape p.dict := by
  obtain ⟨pack, label, slaveId, hWithin, hPercent⟩ := p
  cases pack with
  | jbd r =>
      refine packShape_of_keys (r.batteryKeys label slaveId) (fun _ => rfl) ?_ hWithin hPercent
      rintro rem _ ⟨⟩
  | daly r =>
      refine packShape_of_keys (r.batteryKeys label slaveId) (by simp) ?_ hWithin hPercent
      intro rem hRem _
      unfold Daly.Reading.remaining at hRem
      split at hRem
      · cases hRem
        positivity
      · cases hRem
  | renogy r =>
      refine packShape_of_keys (r.batteryKeys label slaveId) (fun _ => rfl) ?_ hWithin hPercent
      rintro rem _ ⟨⟩
  | smartLithium r =>
      refine packShape_of_keys (r.batteryKeys label slaveId) (by simp) ?_ hWithin hPercent
      rintro rem ⟨⟩

theorem floatOr_figure {d : PollDict} {key : String} (h : PyVal.Numeric (d.get key)) :
    PyVal.floatOr (d.get key) (some 0) = some (figure d key) := by
  unfold figure reported
  rcases h with h | ⟨q, h⟩
  · rw [h]
    rfl
  · rw [h, PyVal.floatOr_num_zero]
    rfl

theorem sumFloats_eq {key : String} {batts : List PollDict}
    (h : ∀ d ∈ batts, PyVal.Numeric (d.get key)) :
    sumFloats key batts = some ((batts.map fun d => figure d key).sum) := by
  rw [sumFloats, mapM_eq_map fun d hd => floatOr_figure (h d hd)]
  rfl

/-- The sum of a figure over all packs. -/
def total (key : String) (batts : List PollDict) : ℚ := (batts.map fun d => figure d key).sum

theorem bmsView_eq (batts : List PollDict) (h : ∀ d ∈ batts, PackNumbers d) :
    bmsView batts = some
      { voltageV := total "voltage_v" batts / batts.length
        currentA := total "current_a" batts
        powerW := total "voltage_v" batts / batts.length * total "current_a" batts
        socPct := some (if total "capacity_ah" batts = 0 then 0
          else total "remaining_charge_ah" batts / total "capacity_ah" batts * 100)
        remainingAh := some (total "remaining_charge_ah" batts)
        capacityAh := some (total "capacity_ah" batts)
        timeToGoMinutes := none } := by
  simp only [bmsView, sumFloats_eq fun d hd => (h d hd).voltage,
    sumFloats_eq fun d hd => (h d hd).current, sumFloats_eq fun d hd => (h d hd).capacity,
    sumFloats_eq fun d hd => (h d hd).remaining, total]
  rfl

/-- A total splits into the packs with a capacity and those without. -/
theorem total_eq_add (key : String) (l : List PollDict) :
    total key l = ((l.filter Backed).map fun d => figure d key).sum +
      ((l.filter fun d => ¬ Backed d).map fun d => figure d key).sum :=
  (List.sum_map_filter_add_sum_map_filter_not Backed (fun d => figure d key) l).symm

/-- Only the packs with a capacity add to the total capacity. -/
theorem total_capacity_eq (l : List PollDict) :
    total "capacity_ah" l = ((l.filter Backed).map fun d => figure d "capacity_ah").sum := by
  have hRest : ((l.filter fun d => ¬ Backed d).map fun d => figure d "capacity_ah").sum = 0 := by
    apply List.sum_eq_zero
    intro c hc
    obtain ⟨d, hd, rfl⟩ := List.mem_map.mp hc
    have hUnbacked := (List.mem_filter.mp hd).2
    simpa [Backed] using hUnbacked
  rw [total_eq_add, hRest, add_zero]

/-- The room below a state of charge, in totals. -/
theorem headroom_eq (soc : ℚ) (l : List PollDict) :
    headroom soc l = soc / 100 * total "capacity_ah" l -
      ((l.filter Backed).map fun d => figure d "remaining_charge_ah").sum := by
  rw [total_capacity_eq, headroom, ← List.sum_map_mul_left, eq_sub_iff_add_eq, ← List.sum_map_add]
  simp only [sub_add_cancel]

section View

variable {batts : List PollDict} (hShape : ∀ d ∈ batts, PackShape d)

include hShape

theorem packVolts_eq : packVolts batts = batts.map fun d => figure d "voltage_v" := by
  unfold packVolts
  rw [← List.filterMap_eq_map]
  apply List.filterMap_congr
  intro d hd
  obtain ⟨v, hv⟩ := (hShape d hd).voltage
  simp [figure, reported, hv, PyVal.number]

theorem voltage_between (hBatts : batts ≠ []) :
    Between (packVolts batts) (total "voltage_v" batts / batts.length) := by
  obtain ⟨⟨a, ha, hLow⟩, b, hb, hHigh⟩ :=
    Pooled.mean_between hBatts fun d => figure d "voltage_v"
  rw [packVolts_eq hShape]
  exact ⟨⟨_, List.mem_map_of_mem ha, hLow⟩, _, List.mem_map_of_mem hb, hHigh⟩

theorem capacity_nonneg : ∀ d ∈ batts, 0 ≤ figure d "capacity_ah" := by
  intro d hd
  unfold figure
  match hCap : reported d "capacity_ah" with
  | none => exact le_refl 0
  | some cap =>
      obtain ⟨rem, _, hRem, hLe⟩ := (hShape d hd).charge cap hCap
      exact hRem.trans hLe

/-- The total is zero exactly when no pack takes part in it. -/
theorem total_capacity_eq_zero_iff :
    total "capacity_ah" batts = 0 ↔ ¬ ∃ d ∈ batts, Backed d := by
  have hNonneg : ∀ c ∈ batts.map fun d => figure d "capacity_ah", 0 ≤ c := by
    intro c hc
    obtain ⟨d, hd, rfl⟩ := List.mem_map.mp hc
    exact capacity_nonneg hShape d hd
  constructor
  · rintro hZero ⟨d, hd, hBacked⟩
    exact hBacked (List.all_zero_of_le_zero_le_of_sum_eq_zero hNonneg hZero
      (List.mem_map_of_mem hd))
  · intro hNone
    apply List.sum_eq_zero
    intro c hc
    obtain ⟨d, hd, rfl⟩ := List.mem_map.mp hc
    by_contra hBacked
    exact hNone ⟨d, hd, hBacked⟩

/-- A pack with a capacity has charge over capacity as its state of charge. -/
theorem packSoc_of_backed {d : PollDict} (hd : d ∈ batts) (hBacked : Backed d) :
    packSoc d = some (figure d "remaining_charge_ah" / figure d "capacity_ah" * 100) := by
  unfold Backed figure at hBacked
  match hCap : reported d "capacity_ah" with
  | none => exact absurd (by rw [hCap]; rfl) hBacked
  | some cap =>
      obtain ⟨rem, hRem, _⟩ := (hShape d hd).charge cap hCap
      rw [hCap] at hBacked
      simp only [packSoc, figure, hCap, hRem, Option.getD_some]
      exact if_neg hBacked

theorem packSoc_range : ∀ soc ∈ packSocs batts, 0 ≤ soc ∧ soc ≤ 100 := by
  intro soc hSoc
  obtain ⟨d, hd, hPack⟩ := List.mem_filterMap.mp hSoc
  have hPercent := (hShape d hd).percent soc
  unfold packSoc at hPack
  split at hPack
  case h_1 cap rem hCap hRem =>
    split at hPack
    · exact hPercent hPack
    case isFalse hNe =>
      cases hPack
      obtain ⟨rem', hRem', hNonneg, hLe⟩ := (hShape d hd).charge cap hCap
      obtain rfl : rem = rem' := Option.some.inj (hRem.symm.trans hRem')
      have hPos : 0 < cap := lt_of_le_of_ne (hNonneg.trans hLe) (Ne.symm hNe)
      have hRatio : rem / cap ≤ 1 := (div_le_one hPos).mpr hLe
      have hRatio' : 0 ≤ rem / cap := div_nonneg hNonneg hPos.le
      constructor <;> linarith
  case h_2 => exact hPercent hPack

/-- The charge of all packs is not negative, and neither is that of some. -/
theorem remaining_nonneg (p : PollDict → Bool) :
    0 ≤ ((batts.filter p).map fun d => figure d "remaining_charge_ah").sum := by
  apply List.sum_nonneg
  intro r hr
  obtain ⟨d, hd, rfl⟩ := List.mem_map.mp hr
  exact (hShape d (List.mem_of_mem_filter hd)).nonneg

/-- The pooled state of charge is not below that of every pack. -/
theorem exists_packSoc_le (hSome : ∃ d ∈ batts, Backed d) :
    ∃ soc ∈ packSocs batts,
      soc ≤ total "remaining_charge_ah" batts / total "capacity_ah" batts * 100 := by
  obtain ⟨d, hd, hBacked⟩ := hSome
  have hNonempty : batts.filter Backed ≠ [] :=
    List.ne_nil_of_mem (List.mem_filter.mpr ⟨hd, decide_eq_true hBacked⟩)
  have hWhole : ∀ d ∈ batts.filter Backed, 0 < figure d "capacity_ah" := by
    intro d hd
    obtain ⟨hMem, hBacked⟩ := List.mem_filter.mp hd
    exact lt_of_le_of_ne (capacity_nonneg hShape d hMem) (Ne.symm (of_decide_eq_true hBacked))
  have hPart : ((batts.filter Backed).map fun d => figure d "remaining_charge_ah").sum ≤
      total "remaining_charge_ah" batts := by
    have hRest := remaining_nonneg hShape fun d => decide (¬ Backed d)
    rw [total_eq_add]
    linarith
  obtain ⟨low, hLow, hLe⟩ := Pooled.exists_ratio_le hNonempty _ _ hWhole hPart
  obtain ⟨hMem, hBacked⟩ := List.mem_filter.mp hLow
  have hSoc := packSoc_of_backed hShape hMem (of_decide_eq_true hBacked)
  rw [total_capacity_eq]
  exact ⟨_, List.mem_filterMap.mpr ⟨low, hMem, hSoc⟩, by linarith⟩

/-- It is at most some state of charge exactly when the charge without a
capacity fits below that. -/
theorem pooled_le_iff (hSome : ∃ d ∈ batts, Backed d) (soc : ℚ) :
    total "remaining_charge_ah" batts / total "capacity_ah" batts * 100 ≤ soc ↔
      unbackedCharge batts ≤ headroom soc batts := by
  have hCap : 0 < total "capacity_ah" batts := by
    apply lt_of_le_of_ne
    · apply List.sum_nonneg
      intro c hc
      obtain ⟨d, hd, rfl⟩ := List.mem_map.mp hc
      exact capacity_nonneg hShape d hd
    · intro hZero
      exact (total_capacity_eq_zero_iff hShape).mp hZero.symm hSome
  have hSplit := total_eq_add "remaining_charge_ah" batts
  change _ = _ + unbackedCharge batts at hSplit
  rw [headroom_eq, ← le_div_iff₀ (by norm_num : (0 : ℚ) < 100), div_le_iff₀ hCap, hSplit]
  constructor <;> intro h <;> linarith

/-- With a capacity, the state of charge is inside the hull exactly when the
charge without one fits. -/
theorem pooled_inside_iff (hSome : ∃ d ∈ batts, Backed d) :
    (0 ≤ total "remaining_charge_ah" batts / total "capacity_ah" batts * 100 ∧
        total "remaining_charge_ah" batts / total "capacity_ah" batts * 100 ≤ 100 ∧
        (packSocs batts ≠ [] → Between (packSocs batts)
          (total "remaining_charge_ah" batts / total "capacity_ah" batts * 100))) ↔
      ∃ soc ∈ packSocs batts, unbackedCharge batts ≤ headroom soc batts := by
  obtain ⟨low, hLow, hLowLe⟩ := exists_packSoc_le hShape hSome
  constructor
  · rintro ⟨_, _, hBetween⟩
    obtain ⟨_, high, hHigh, hLe⟩ := hBetween (List.ne_nil_of_mem hLow)
    exact ⟨high, hHigh, (pooled_le_iff hShape hSome high).mp hLe⟩
  · rintro ⟨high, hHigh, hFits⟩
    have hLe := (pooled_le_iff hShape hSome high).mpr hFits
    have hBetween : Between (packSocs batts)
        (total "remaining_charge_ah" batts / total "capacity_ah" batts * 100) :=
      ⟨⟨low, hLow, hLowLe⟩, high, hHigh, hLe⟩
    exact ⟨(packSoc_range hShape low hLow).1.trans hLowLe,
      hLe.trans (packSoc_range hShape high hHigh).2, fun _ => hBetween⟩

/-- Without any capacity the bank reads zero. -/
theorem zero_inside_iff :
    ((0 : ℚ) ≤ 0 ∧ (0 : ℚ) ≤ 100 ∧ (packSocs batts ≠ [] → Between (packSocs batts) 0)) ↔
      (packSocs batts = [] ∨ 0 ∈ packSocs batts) := by
  constructor
  · rintro ⟨_, _, hBetween⟩
    by_cases hNil : packSocs batts = []
    · exact Or.inl hNil
    · obtain ⟨⟨low, hLow, hLe⟩, _⟩ := hBetween hNil
      obtain rfl : low = 0 := le_antisymm hLe (packSoc_range hShape low hLow).1
      exact Or.inr hLow
  · rintro (hNil | hZero)
    · exact ⟨le_refl 0, by norm_num, fun hSome => absurd hNil hSome⟩
    · exact ⟨le_refl 0, by norm_num, fun _ => ⟨⟨0, hZero, le_refl 0⟩, 0, hZero, le_refl 0⟩⟩

omit hShape in
/-- With the voltage inside, what is left to say is about the state of charge. -/
theorem insideHull_iff_soc {view : BankView} {soc : ℚ}
    (hVolts : Between (packVolts batts) view.voltageV) (hSoc : view.socPct = some soc) :
    InsideHull batts view ↔
      0 ≤ soc ∧ soc ≤ 100 ∧ (packSocs batts ≠ [] → Between (packSocs batts) soc) := by
  constructor
  · rintro ⟨_, soc', hSoc', hInside⟩
    obtain rfl : soc = soc' := Option.some.inj (hSoc.symm.trans hSoc')
    exact hInside
  · exact fun hInside => ⟨hVolts, soc, hSoc, hInside⟩

theorem insideHull_iff_socFits (hBatts : batts ≠ []) {view : BankView}
    (hView : bmsView batts = some view) : InsideHull batts view ↔ SocFits batts := by
  rw [bmsView_eq _ fun d hd => (hShape d hd).numbers] at hView
  cases hView
  have hVolts := voltage_between hShape hBatts
  rw [insideHull_iff_soc hVolts rfl]
  unfold SocFits
  by_cases hSome : ∃ d ∈ batts, Backed d
  · have hCap : total "capacity_ah" batts ≠ 0 :=
      fun hZero => (total_capacity_eq_zero_iff hShape).mp hZero hSome
    rw [if_pos hSome, if_neg hCap]
    exact pooled_inside_iff hShape hSome
  · rw [if_neg hSome, if_pos ((total_capacity_eq_zero_iff hShape).mpr hSome)]
    exact zero_inside_iff hShape

end View

/-- The bank of any packs of any makes is inside their hull exactly when the
charge that is reported without a capacity fits. -/
theorem bank_inside_hull_iff (packs : List ValidPack) (hPacks : packs ≠ []) :
    (∃ view, bmsView (packs.map ValidPack.dict) = some view ∧
        InsideHull (packs.map ValidPack.dict) view) ↔
      SocFits (packs.map ValidPack.dict) := by
  have hShape : ∀ d ∈ packs.map ValidPack.dict, PackShape d := by
    intro d hd
    obtain ⟨p, _, rfl⟩ := List.mem_map.mp hd
    exact p.shape
  have hBatts : packs.map ValidPack.dict ≠ [] := by simpa using hPacks
  have hView := bmsView_eq _ fun d hd => (hShape d hd).numbers
  constructor
  · rintro ⟨view, hSome, hInside⟩
    exact (insideHull_iff_socFits hShape hBatts hSome).mp hInside
  · intro hFits
    exact ⟨_, hView, (insideHull_iff_socFits hShape hBatts hView).mpr hFits⟩

section Mixed

/-- A JBD pack at 13.2 V with 50 of 100 Ah. -/
def halfJbd : ValidPack where
  pack := .jbd
    { basic := [0x05, 0x28, 0, 0, 0x13, 0x88, 0x27, 0x10, 0, 0, 0, 0, 0, 0, 0, 0, 0, 0, 0, 50, 3, 4, 0]
      cells := []
      age := some 1
      complete := by decide }
  label := "jbd"
  slaveId := 0
  within := by
    intro cap rem hCap hRem
    rw [Pack.dict, reported_of_get (Jbd.Reading.batteryKeys _ _ _).capacity] at hCap
    rw [Pack.dict, reported_of_get (Jbd.Reading.batteryKeys _ _ _).remaining] at hRem
    cases hCap
    cases hRem
    decide +kernel
  percent := by
    intro soc hSoc
    rw [Pack.dict, reported_of_get (Jbd.Reading.batteryKeys _ _ _).soc] at hSoc
    cases hSoc
    decide +kernel

/-- A Daly pack at 13.2 V and 80 %, with a charge in mAh. -/
def dalyPack (mah : Bytes) (hMah : mah.length = 4) : ValidPack where
  pack := .daly
    { frame90 := [0, 132, 0, 0, 0x75, 0x30, 0x03, 0x20]
      frame91 := [0x0c, 0xe4, 1, 0x0c, 0xe4, 2, 0, 0]
      frame92 := [65, 1, 65, 2, 0, 0, 0, 0]
      frame93 := [0, 1, 1, 0] ++ mah
      frame94 := [4, 1, 0, 0, 0, 0, 0, 0]
      frame96 := [65, 0, 0, 0, 0, 0, 0, 0]
      cellVoltagesMv := [3300, 3300, 3300, 3300]
      age := some 1
      complete := by simp [hMah] }
  label := "daly"
  slaveId := 0
  within := by
    intro cap rem hCap _
    rw [Pack.dict, reported_of_get (Daly.Reading.batteryKeys _ _ _).capacity] at hCap
    cases hCap
  percent := by
    intro soc hSoc
    rw [Pack.dict, reported_of_get (Daly.Reading.batteryKeys _ _ _).soc] at hSoc
    cases hSoc
    dsimp only
    decide +kernel

/-- Five Ah fit into the room of the JBD pack. -/
theorem bank_inside_hull_five_ah :
    [halfJbd, dalyPack [0, 0, 0x13, 0x88] rfl] ≠ [] ∧
      ∃ view, bmsView ([halfJbd, dalyPack [0, 0, 0x13, 0x88] rfl].map ValidPack.dict) = some view ∧
        InsideHull ([halfJbd, dalyPack [0, 0, 0x13, 0x88] rfl].map ValidPack.dict) view := by
  have hPacks : [halfJbd, dalyPack [0, 0, 0x13, 0x88] rfl] ≠ [] := by simp
  refine ⟨hPacks, (bank_inside_hull_iff _ hPacks).mpr ?_⟩
  unfold SocFits
  decide +kernel

/-- Eighty Ah do not: packs at 50 % and 80 % make a bank at 130 %. -/
theorem bank_not_inside_hull :
    ¬ ∃ view,
      bmsView ([halfJbd, dalyPack [0, 0x01, 0x38, 0x80] rfl].map ValidPack.dict) = some view ∧
        InsideHull ([halfJbd, dalyPack [0, 0x01, 0x38, 0x80] rfl].map ValidPack.dict) view := by
  have hSoc : (bmsView ([halfJbd, dalyPack [0, 0x01, 0x38, 0x80] rfl].map ValidPack.dict)).map
      BankView.socPct = some (some 130) := by
    decide +kernel
  rintro ⟨view, hView, hInside⟩
  obtain ⟨soc, hSome, _, hLe, _⟩ := hInside.soc
  rw [hView, Option.map_some, hSome] at hSoc
  cases hSoc
  exact absurd hLe (by norm_num)

end Mixed

end WattPost.Storage
