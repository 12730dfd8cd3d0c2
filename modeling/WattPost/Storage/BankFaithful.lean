import Mathlib.Data.Nat.Cast.Order.Field
import WattPost.Storage.OneBadReading
import WattPost.Vendors.Readings

/-! A rig with one battery monitor. The bank row that `record_poll` writes ought to
say what the monitor says; whether it does depends on the name, the kind and the
zeros the driver of the monitor uses, and for one pack also on how a quotient of two
doubles is rounded. -/
namespace WattPost.Storage

open Keyed PyDict Vendors

/-- A complete reading of the only battery monitor of a rig. -/
inductive Monitor where
  | renogyShunt (reading : Renogy.Shunt.Reading)
  | smartShunt (reading : Victron.SmartShunt.Reading)
  | veDirectShunt (reading : Victron.VeDirectShunt.Reading)
  | junctek (reading : Junctek.Reading)
  | aili (reading : Aili.Reading)
  | renogyBattery (reading : Renogy.SmartBattery.Reading)
  | jbd (reading : Jbd.Reading)
  | daly (reading : Daly.Reading)
  | jk (reading : Jk.Reading)

namespace Monitor

def dict (monitor : Monitor) (label : String) (slaveId : Int) : PollDict :=
  match monitor with
  | renogyShunt reading => reading.dict label slaveId
  | smartShunt reading => reading.dict label slaveId
  | veDirectShunt reading => reading.dict label slaveId
  | junctek reading => reading.dict label slaveId
  | aili reading => reading.dict label slaveId
  | renogyBattery reading => reading.dict label slaveId
  | jbd reading => reading.dict label slaveId
  | daly reading => reading.dict label slaveId
  | jk reading => reading.dict label slaveId

/-- The double that Python has for a number of the driver. A word over a power of ten
is the nearest double, and so is what is rounded to a few digits; AiLi's capacity is
a quotient of two doubles. -/
def double (monitor : Monitor) (key : String) (q : ℚ) : PyFloat :=
  match monitor with
  | aili r =>
      if key = "bank_capacity_ah" then
        ((PyFloat.ofRat r.frame.remainingAh).div
          ((PyFloat.ofRat r.frame.socPct).div (.finite 100))).round 2
      else .ofRat q
  | _ => .ofRat q

/-- The name under which the driver puts the remaining charge. -/
def remainingName : Monitor → String
  | renogyShunt _ | smartShunt _ | veDirectShunt _ | junctek _ | aili _ => "remaining_ah"
  | renogyBattery _ | jbd _ | daly _ | jk _ => "remaining_charge_ah"

/-- The name under which it puts the capacity. -/
def capacityName : Monitor → String
  | renogyShunt _ => "full_capacity_ah"
  | smartShunt _ | veDirectShunt _ | junctek _ | aili _ => "bank_capacity_ah"
  | renogyBattery _ | jbd _ | daly _ | jk _ => "capacity_ah"

/-- Doubles keep this percentage of two words of hundredths; they do not keep 29 of 100. -/
def RoundsBack (part whole percent : Nat) : Prop :=
  ((PyFloat.ofRat (part / 100)).div (.ofRat (whole / 100))).mul (.finite 100) = .ofRat percent

instance (part whole percent : Nat) : Decidable (RoundsBack part whole percent) :=
  inferInstanceAs (Decidable (_ = _))

/-- When the aggregate reads the monitor as its driver wrote it. The capacity of
a Renogy shunt is not read at all. A Junctek's zero is replaced unless charge and
state of charge are zero together. The packs' own state of charge is not read:
JBD's has to be the exact percentage of its words, and one that the rounding of doubles
spares; Daly's has to be zero. JK is of a kind that the aggregate does not look at. -/
def Agrees : Monitor → Prop
  | renogyShunt r => Renogy.bytesToInt r.liveStats 15 4 false (1 / 1000) = 0
  | smartShunt _ | veDirectShunt _ | aili _ | renogyBattery _ => True
  | junctek r => r.capacity = 0 ∨ (r.remaining = 0 ↔ r.soc = 0)
  | jbd r =>
      if u16 r.basic 6 = 0 then byte r.basic 19 = 0
      else 100 * u16 r.basic 4 = byte r.basic 19 * u16 r.basic 6 ∧
        RoundsBack (u16 r.basic 4) (u16 r.basic 6) (byte r.basic 19)
  | daly r => u16 r.frame90 6 = 0
  | jk _ => False

end Monitor

/-- The names of the figures that a monitor may have. -/
def figureNames : List String :=
  ["voltage_v", "current_a", "soc_pct", "remaining_ah", "remaining_charge_ah", "capacity_ah",
    "bank_capacity_ah", "full_capacity_ah"]

/-- The dictionary that Python has where the drivers' arithmetic is exact: the texts and
the figures are those of the driver, and every number is a finite double. -/
structure Decoded (monitor : Monitor) (exact : PollDict) (d : FloatDict) : Prop where
  missing : ∀ k, exact.get k = none → d.get k = none
  texts : ∀ k s, exact.get k = some (.text s) → d.get k = some (.text (.utf8 s))
  numbers : ∀ k q, exact.get k = some (.num q) → isNumber (d.get k) = true
  figures : ∀ k ∈ figureNames, ∀ q, exact.get k = some (.num q) →
    scalarFloat (d.get k) = some (monitor.double k q)
  storable : ∀ k v, d.get k = some v → Storable v
  doubles : ∀ k x, isNumber (d.get k) = true → scalarFloat (d.get k) = some x →
    ∃ q, x = .finite q ∧ PyFloat.ofRat q = .finite q

/-- What a device reports as a number. -/
def reportedFloat (d : FloatDict) (key : String) : Option PyFloat :=
  if isNumber (d.get key) then scalarFloat (d.get key) else none

/-- What the row of the bank has as a number. -/
def rowFloat (bank : FloatDict) (metric : String) : Option PyFloat :=
  (bank.get metric).bind fun v => v.number.join

/-- The figures of a bank row are those of the monitor, as far as it has them. -/
structure Faithful (monitor : Monitor) (d bank : FloatDict) : Prop where
  voltage : rowFloat bank "voltage_v" = reportedFloat d "voltage_v"
  current : rowFloat bank "current_a" = reportedFloat d "current_a"
  soc : ∀ x, reportedFloat d "soc_pct" = some x → rowFloat bank "soc_pct" = some x
  remaining : ∀ x, reportedFloat d monitor.remainingName = some x →
    rowFloat bank "remaining_ah" = some x
  capacity : ∀ x, reportedFloat d monitor.capacityName = some x →
    rowFloat bank "capacity_ah" = some x

/-- The names that the aggregate reads from inverters and controllers. -/
def bankInputs : List String :=
  ["battery_voltage_v", "battery_current_a", "soc_pct", "battery_power_w"]

/-- A device that is no battery monitor, and whose values can be stored and read. -/
structure OtherDevice (d : FloatDict) : Prop where
  kind : floatKind d ∉ ["shunt", "smart_battery", "bms"]
  storable : ∀ k v, d.get k = some v → k ∉ metaKeys → Storable v
  inputs : ∀ key ∈ bankInputs, scalarIsSome (d.get key) = true →
    (scalarFloat (d.get key)).isSome = true

/-- A poll of a rig with one battery monitor. -/
structure Rig where
  label : String
  slaveId : Int
  monitor : Monitor
  result : FloatResult
  dict : FloatDict
  decoded : Decoded monitor (monitor.dict label slaveId) dict
  polled : result.devices.get label = some dict
  alone : ∀ e ∈ result.devices.entries, e.1 ≠ label → OtherDevice e.2

/-- The store remembers no other monitor that would fill in. -/
def NoOtherMonitor (db : Db SqlFloat) (rig : Rig) (ts : Nat) : Prop :=
  ∀ e ∈ db.deviceMeta.rows, isBankKind e.2.kind = true →
    e.1 ∈ rig.result.devices.keys ∨ bankAggregateStaleS < (ts : Int) - e.2.lastSeen

/-- `record_poll` writes a bank row with the figures of the monitor. -/
def WritesFaithfulRow (settings : BankSettings) (db : Db SqlFloat) (rig : Rig) (ts : Nat) : Prop :=
  ∃ bank, floatBankOf settings db rig.result.devices ts = some (some bank) ∧
    (∀ metric x, rowFloat bank metric = some x →
      ((recordFloatPoll settings db rig.result ts).samples.lookup ⟨ts, "bank", metric⟩).map
        Subtype.val = some x) ∧
    Faithful rig.monitor rig.dict bank

/-! ### The row -/

theorem mem_of_get_setAll {α : Type} {xs : List (String × α)} {d : Dict α} {k : String} {v : α}
    (h : (d.setAll xs).get k = some v) : (k, v) ∈ xs ∨ d.get k = some v := by
  induction xs generalizing d with
  | nil => exact Or.inr h
  | cons e xs ih =>
      rcases ih (d := d.set e.1 e.2) h with hMem | hGet
      · exact Or.inl (List.mem_cons_of_mem _ hMem)
      · rw [Dict.get_set] at hGet
        split at hGet
        · next hKey =>
            left
            obtain rfl : e.2 = v := Option.some.inj hGet
            rw [hKey]
            exact List.mem_cons_self ..
        · exact Or.inr hGet

theorem setAll_append {α : Type} (d : Dict α) (xs ys : List (String × α)) :
    d.setAll (xs ++ ys) = (d.setAll xs).setAll ys := List.foldl_append

/-- What is stored under the name of the bank is what the row has. -/
theorem lookup_bank_samples {settings : BankSettings} {db : Db SqlFloat} {result : FloatResult}
    {ts : Nat} {bank : FloatDict} (hClean : Clean settings db result.devices ts)
    (hBank : floatBankOf settings db result.devices ts = some (some bank)) {metric : String}
    {x : PyFloat} (hRow : rowFloat bank metric = some x) :
    ((recordFloatPoll settings db result ts).samples.lookup ⟨ts, "bank", metric⟩).map
      Subtype.val = some x := by
  obtain ⟨rows, hRows⟩ := Option.isSome_iff_exists.mp (gathered_bound_iff.mpr hClean)
  obtain ⟨g, hGather, hBind⟩ := Option.bind_eq_some_iff.mp hRows
  obtain ⟨num, bank', bankNum, _, hBank', hBankNum, hTs, hNum, _⟩ := exists_gatherRows_iff hGather
  obtain rfl : bank' = some bank := Option.some.inj (hBank'.symm.trans hBank)
  rw [Option.elim_some] at hBankNum
  obtain ⟨hBound, _, hBoundTs⟩ := lastReading_bound hBind "bank" metric
  have hLast : lastReading "bank" metric bankNum = some x := by
    apply lastReading_eq
    intro y
    obtain ⟨v, hv, hNumber⟩ := Option.bind_eq_some_iff.mp hRow
    rw [mem_numRows hBankNum]
    constructor
    · rintro ⟨_, w, hEntry, hOther⟩
      obtain rfl : v = w := Option.some.inj (hv.symm.trans (Dict.mem_iff_get.mp hEntry))
      rw [← hNumber, hOther]
      rfl
    · intro hEq
      cases hEq
      exact ⟨rfl, v, Dict.mem_iff_get.mpr hv, Option.join_eq_some_iff.mp hNumber⟩
  rw [recordFloatPoll, hRows, Option.elim_some, ← hTs, ← hBoundTs, lookup_samples, Option.map_or,
    hBound, hNum, lastReading_append, hLast]
  rfl

/-! ### Figures -/

/-- The number that a value shows, or that it is missing. -/
def Shows (v : Option PyScalar) : Option ℚ → Prop
  | none => v = none
  | some q => isNumber v = true ∧ scalarFloat v = some (.finite q) ∧ PyFloat.ofRat q = .finite q

/-- Python's `x or default`. -/
def orDefault (x : Option ℚ) (default : PyFloat) : PyFloat :=
  match x with
  | none => default
  | some q => if q = 0 then default else .finite q

theorem orDefault_zero (x : Option ℚ) : orDefault x (.finite 0) = .finite (x.getD 0) := by
  cases x with
  | none => rfl
  | some q =>
      rw [orDefault, Option.getD_some]
      split_ifs with hZero
      · rw [hZero]
      · rfl

theorem Shows.reported {d : FloatDict} {key : String} {x : Option ℚ} (h : Shows (d.get key) x) :
    reportedFloat d key = x.map .finite := by
  cases x with
  | none =>
      rw [reportedFloat, show d.get key = none from h]
      rfl
  | some q => rw [reportedFloat, if_pos h.1, h.2.1, Option.map_some]

theorem Shows.double {v : Option PyScalar} {x : Option ℚ} (h : Shows v x) :
    PyFloat.ofRat (x.getD 0) = .finite (x.getD 0) := by
  cases x with
  | none => decide +kernel
  | some q => exact h.2.2

theorem isNumber_cases {v : Option PyScalar} (h : isNumber v = true) :
    (∃ b, v = some (.bool b)) ∨ (∃ n, v = some (.int n)) ∨ ∃ x, v = some (.float x) := by
  match v, h with
  | some (.bool b), _ => exact Or.inl ⟨b, rfl⟩
  | some (.int n), _ => exact Or.inr (Or.inl ⟨n, rfl⟩)
  | some (.float x), _ => exact Or.inr (Or.inr ⟨x, rfl⟩)

/-- A number is falsy just when it is zero. -/
theorem scalarTruthy_iff {v : Option PyScalar} {q : ℚ} (hNumber : isNumber v = true)
    (hFloat : scalarFloat v = some (.finite q)) : scalarTruthy v = true ↔ q ≠ 0 := by
  rcases isNumber_cases hNumber with ⟨b, rfl⟩ | ⟨n, rfl⟩ | ⟨x, rfl⟩
  · have hq : (if b = true then (1 : ℚ) else 0) = q := PyFloat.finite.inj (Option.some.inj hFloat)
    rw [← hq]
    cases b <;> simp [scalarTruthy]
  · simp only [scalarFloat, PyFloat.ofInt] at hFloat
    split_ifs at hFloat
    simp only [Option.some.injEq, PyFloat.finite.injEq] at hFloat
    rw [scalarTruthy, decide_eq_true_eq, ← hFloat, ne_eq, not_iff_not]
    exact (Binary64.nearest_intCast_eq_zero_iff n).symm
  · obtain rfl : x = .finite q := Option.some.inj hFloat
    simp [scalarTruthy]

theorem Shows.floatOr {v : Option PyScalar} {x : Option ℚ} (h : Shows v x) (default : PyFloat) :
    floatOr v (some default) = some (orDefault x default) := by
  cases x with
  | none =>
      rw [show v = none from h]
      rfl
  | some q =>
      obtain ⟨hNumber, hFloat, _⟩ := h
      have hTruthy := scalarTruthy_iff hNumber hFloat
      unfold Storage.floatOr orDefault
      dsimp only
      by_cases hZero : q = 0
      · rw [if_neg (by rw [hTruthy]; exact not_not.mpr hZero), if_pos hZero]
      · rw [if_pos (hTruthy.mpr hZero), if_neg hZero, hFloat]

namespace Decoded

variable {monitor : Monitor} {exact : PollDict} {d : FloatDict}

/-- The figures of a driver are doubles. -/
theorem shows (h : Decoded monitor exact d) {key : String} (hKey : key ∈ figureNames)
    {q : Option ℚ} (hExact : exact.get key = q.map .num) :
    ∃ x, Shows (d.get key) x ∧ q.map (monitor.double key) = x.map .finite := by
  cases q with
  | none => exact ⟨none, h.missing key hExact, rfl⟩
  | some q =>
      have hNumber := h.numbers key q hExact
      have hFigure := h.figures key hKey q hExact
      obtain ⟨x, hx, hDouble⟩ := h.doubles key _ hNumber hFigure
      exact ⟨some x, ⟨hNumber, hx ▸ hFigure, hDouble⟩, congrArg some hx⟩

theorem kind (h : Decoded monitor exact d) {k : String}
    (hKind : exact.get "_kind" = some (.text k)) : floatKind d = k := by
  rw [floatKind, h.texts "_kind" k hKind]
  rfl

end Decoded

/-! ### Numbers of a dictionary -/

theorem scalarIsSome_of_isNumber {v : Option PyScalar} (h : isNumber v = true) :
    scalarIsSome v = true := by
  rcases isNumber_cases h with ⟨_, rfl⟩ | ⟨_, rfl⟩ | ⟨_, rfl⟩ <;> rfl

/-- A number that can be stored is read by `float`. -/
theorem exists_scalarFloat {v : PyScalar} (hNumber : isNumber (some v) = true) (h : Storable v) :
    ∃ x, scalarFloat (some v) = some x := by
  cases v with
  | bool b => exact ⟨_, rfl⟩
  | int n =>
      have hFits : n.natAbs < PyFloat.overflow := h
      exact ⟨.finite (Binary64.nearest n), by rw [scalarFloat, PyFloat.ofInt, if_pos hFits]⟩
  | float x => exact ⟨x, rfl⟩
  | _ => cases hNumber

/-- A finite number is read by `int`, and the integer is in the range of a float. -/
theorem exists_scalarInt {v : Option PyScalar} (hNumber : isNumber v = true) {q : ℚ}
    (hFloat : scalarFloat v = some (.finite q)) (hDouble : PyFloat.ofRat q = .finite q) :
    ∃ n x, scalarInt v = some n ∧ PyFloat.ofInt n = some (.finite x) := by
  rcases isNumber_cases hNumber with ⟨b, rfl⟩ | ⟨n, rfl⟩ | ⟨x, rfl⟩
  · cases b
    · exact ⟨0, _, rfl, if_pos (by decide +kernel)⟩
    · exact ⟨1, _, rfl, if_pos (by decide +kernel)⟩
  · exact ⟨n, q, rfl, hFloat⟩
  · obtain rfl : x = .finite q := Option.some.inj hFloat
    refine ⟨_, _, rfl, if_pos ?_⟩
    have hTruncated : (((q.num.tdiv q.den).natAbs : Nat) : ℚ) ≤ |q| := by
      calc (((q.num.tdiv q.den).natAbs : Nat) : ℚ) = ((q.num.natAbs / q.den : Nat) : ℚ) := by
            rw [Int.natAbs_tdiv, Int.natAbs_natCast]
            rfl
        _ ≤ (q.num.natAbs : ℚ) / q.den := Nat.cast_div_le
        _ = |q| := by rw [Rat.abs_def, Rat.divInt_eq_div, Int.cast_natCast, Int.cast_natCast]
    exact_mod_cast hTruncated.trans_lt (PyFloat.ofRat_eq_finite hDouble).1

theorem exists_intOrZero {v : Option PyScalar} (hNumber : isNumber v = true) {q : ℚ}
    (hFloat : scalarFloat v = some (.finite q)) : ∃ n, intOrZero v = some n := by
  rcases isNumber_cases hNumber with ⟨b, rfl⟩ | ⟨n, rfl⟩ | ⟨x, rfl⟩
  · cases b <;> exact ⟨_, rfl⟩
  · unfold intOrZero
    dsimp only
    split_ifs
    · exact ⟨n, rfl⟩
    · exact ⟨0, rfl⟩
  · obtain rfl : x = .finite q := Option.some.inj hFloat
    unfold intOrZero
    dsimp only
    split_ifs
    · exact ⟨_, rfl⟩
    · exact ⟨0, rfl⟩

namespace Decoded

variable {monitor : Monitor} {exact : PollDict} {d : FloatDict}

theorem number (h : Decoded monitor exact d) {k : String} (hNumber : isNumber (d.get k) = true) :
    ∃ q, scalarFloat (d.get k) = some (.finite q) ∧ PyFloat.ofRat q = .finite q := by
  obtain ⟨x, hx⟩ : ∃ x, scalarFloat (d.get k) = some x := by
    match hGet : d.get k with
    | some v => exact exists_scalarFloat (hGet ▸ hNumber) (h.storable k v hGet)
    | none =>
        rw [hGet] at hNumber
        cases hNumber
  obtain ⟨q, rfl, hDouble⟩ := h.doubles k x hNumber hx
  exact ⟨q, hx, hDouble⟩

theorem numeric (h : Decoded monitor exact d) {k : String}
    (hNumeric : PyVal.Numeric (exact.get k)) : d.get k = none ∨ isNumber (d.get k) = true := by
  rcases hNumeric with hNone | ⟨q, hNum⟩
  · exact Or.inl (h.missing k hNone)
  · exact Or.inr (h.numbers k q hNum)

end Decoded

/-! ### The views -/

/-- The six figures that the view of a shunt and that of the packs have. -/
def figures (voltage current power soc remaining capacity : PyFloat) : FloatView :=
  [("voltage_v", voltage), ("current_a", current), ("power_w", power), ("soc_pct", soc),
    ("remaining_ah", remaining), ("capacity_ah", capacity)]

/-- No figure of a view is `nan`. -/
def NoNan (view : FloatView) : Prop := ∀ e ∈ view, e.2 ≠ .nan

/-- The charge that the view of a shunt shows. -/
def shownRemaining (remaining capacity : Option ℚ) (soc : ℚ) : PyFloat :=
  orDefault remaining
    ((PyFloat.finite (capacity.getD 0)).mul ((PyFloat.finite soc).div (.finite 100)))

/-- The state of charge that it shows. -/
def shownSoc (remaining capacity : Option ℚ) (soc : ℚ) : PyFloat :=
  orDefault (some soc)
    (shareOf (shownRemaining remaining capacity soc) (.finite (capacity.getD 0)))

theorem orDefault_ne_nan {x : Option ℚ} {default : PyFloat} (h : default ≠ .nan) :
    orDefault x default ≠ .nan := by
  unfold orDefault
  split
  · exact h
  · split_ifs
    · exact h
    · exact PyFloat.noConfusion

theorem shareOf_ne_nan {rem : PyFloat} (h : rem ≠ .nan) (cap : ℚ) :
    shareOf rem (.finite cap) ≠ .nan := by
  have hMul : ∀ x : PyFloat, x ≠ .nan → x.mul (.finite 100) ≠ .nan := by
    intro x hx
    cases x with
    | finite q => exact PyFloat.ofRat_ne_nan _
    | infinite s => simp [PyFloat.mul]
    | nan => exact absurd rfl hx
  unfold shareOf
  split_ifs
  · exact PyFloat.noConfusion
  · apply hMul
    cases rem with
    | finite q => exact PyFloat.ofRat_ne_nan _
    | infinite s => exact PyFloat.noConfusion
    | nan => exact absurd rfl h

/-- A hundredth of a double is in the range. -/
theorem exists_hundredth {q : ℚ} (h : PyFloat.ofRat q = .finite q) :
    ∃ x, (PyFloat.finite q).div (.finite 100) = .finite x := by
  have hRange := (PyFloat.ofRat_eq_finite h).1
  refine ⟨_, if_pos ?_⟩
  rw [abs_div]
  exact (div_le_self (abs_nonneg q) (by norm_num)).trans_lt hRange

theorem shownRemaining_ne_nan {remaining capacity : Option ℚ} {soc : ℚ}
    (h : PyFloat.ofRat soc = .finite soc) : shownRemaining remaining capacity soc ≠ .nan := by
  obtain ⟨x, hx⟩ := exists_hundredth h
  refine orDefault_ne_nan ?_
  rw [hx]
  exact PyFloat.ofRat_ne_nan _

theorem floatShuntView_eq {monitor : Monitor} {exact : PollDict} {d : FloatDict} {v i soc : ℚ}
    {remaining capacity : Option ℚ} (h : Decoded monitor exact d)
    (hVoltage : Shows (d.get "voltage_v") (some v)) (hCurrent : Shows (d.get "current_a") (some i))
    (hRemaining : Shows (d.get "remaining_ah") remaining)
    (hBankCapacity : Shows (d.get "bank_capacity_ah") capacity)
    (hCapacity : d.get "capacity_ah" = none) (hSoc : Shows (d.get "soc_pct") (some soc))
    (hPower : d.get "power_w" = none ∨ isNumber (d.get "power_w") = true) :
    ∃ power timeToGo, floatShuntView d = some (figures (.finite v) (.finite i) power
        (shownSoc remaining capacity soc) (shownRemaining remaining capacity soc)
        (.finite (capacity.getD 0)) ++ timeToGo) ∧
      power ≠ .nan ∧ NoNan timeToGo ∧ ∀ e ∈ timeToGo, e.1 = "time_to_go_minutes" := by
  obtain ⟨power, hPowerEq, hPowerNan⟩ : ∃ power, floatUnless (d.get "power_w")
      ((PyFloat.finite v).mul (.finite i)) = some power ∧ power ≠ .nan := by
    rcases hPower with hNone | hNumber
    · exact ⟨_, by rw [hNone]; rfl, PyFloat.ofRat_ne_nan _⟩
    · obtain ⟨q, hq, _⟩ := h.number hNumber
      exact ⟨.finite q, by rw [floatUnless, if_pos (scalarIsSome_of_isNumber hNumber), hq],
        PyFloat.noConfusion⟩
  have hCap : floatOr (d.get "bank_capacity_ah")
      (floatOr (d.get "capacity_ah") (some (.finite 0))) =
        some (.finite (capacity.getD 0)) := by
    rw [hCapacity, show floatOr none (some (.finite 0)) = some (.finite 0) from rfl,
      hBankCapacity.floatOr, orDefault_zero]
  have hRem : floatOr (d.get "remaining_ah") (some ((PyFloat.finite (capacity.getD 0)).mul
      ((PyFloat.finite soc).div (.finite 100)))) = some (shownRemaining remaining capacity soc) :=
    hRemaining.floatOr _
  have hSocRow : floatOr (d.get "soc_pct") (some (shareOf (shownRemaining remaining capacity soc)
      (.finite (capacity.getD 0)))) = some (shownSoc remaining capacity soc) := hSoc.floatOr _
  by_cases hLeft : (isNumber (d.get "time_to_go_minutes") &&
      floatShuntView.timeLeft (d.get "time_to_go_minutes")) = true
  · obtain ⟨q, hq, _⟩ := h.number (Bool.and_eq_true_iff.mp hLeft).1
    refine ⟨power, [("time_to_go_minutes", .finite q)], ?_, hPowerNan, by simp [NoNan], by simp⟩
    simp only [floatShuntView, hVoltage.floatOr, hCurrent.floatOr, orDefault_zero, hCap,
      hSoc.floatOr (.finite 0), Option.map_some, Option.getD_some, Option.bind_eq_bind,
      Option.bind_some, hRem, hSocRow, hPowerEq, if_pos hLeft, hq]
    rfl
  · refine ⟨power, [], ?_, hPowerNan, by simp [NoNan], by simp⟩
    simp only [floatShuntView, hVoltage.floatOr, hCurrent.floatOr, orDefault_zero, hCap,
      hSoc.floatOr (.finite 0), Option.map_some, Option.getD_some, Option.bind_eq_bind,
      Option.bind_some, hRem, hSocRow, hPowerEq, if_neg hLeft]
    rfl

/-! ### A single pack -/

theorem ofRat_zero : PyFloat.ofRat 0 = .finite 0 := by decide +kernel

theorem sum_singleton {q : ℚ} (h : PyFloat.ofRat q = .finite q) :
    PyFloat.sum [.finite q] = .finite q := by
  change PyFloat.ofRat (0 - -q) = .finite q
  rw [zero_sub, neg_neg, h]

theorem sumOfFloats_singleton {d : FloatDict} {key : String} {x : Option ℚ}
    (h : Shows (d.get key) x) : sumOfFloats key [d] = some (.finite (x.getD 0)) := by
  simp only [sumOfFloats, List.mapM_cons, List.mapM_nil, h.floatOr, orDefault_zero]
  exact congrArg some (sum_singleton h.double)

theorem meanVoltage_singleton {d : FloatDict} {v : ℚ} (h : Shows (d.get "voltage_v") (some v)) :
    meanVoltage [d] = some (.finite v) := by
  have hOne : PyFloat.ofRat (([d].length : Nat) : ℚ) = .finite 1 := by
    rw [List.length_singleton, Nat.cast_one]
    decide +kernel
  rw [meanVoltage, sumOfFloats_singleton h, Option.map_some, hOne, Option.getD_some]
  change some (PyFloat.ofRat (v / 1)) = some (.finite v)
  rw [div_one, h.2.2]

theorem floatBmsView_eq {d : FloatDict} {v i : ℚ} {remaining capacity : Option ℚ}
    (hVoltage : Shows (d.get "voltage_v") (some v)) (hCurrent : Shows (d.get "current_a") (some i))
    (hRemaining : Shows (d.get "remaining_charge_ah") remaining)
    (hCapacity : Shows (d.get "capacity_ah") capacity) :
    floatBmsView [d] = some (figures (.finite v) (.finite i) ((PyFloat.finite v).mul (.finite i))
      (shareOf (.finite (remaining.getD 0)) (.finite (capacity.getD 0)))
      (.finite (remaining.getD 0)) (.finite (capacity.getD 0))) := by
  simp only [floatBmsView, meanVoltage_singleton hVoltage, sumOfFloats_singleton hCurrent,
    sumOfFloats_singleton hCapacity, sumOfFloats_singleton hRemaining, Option.getD_some,
    Option.bind_eq_bind, Option.bind_some]
  rfl

/-- The cells of a pack are finite doubles. -/
theorem exists_floatCellVolts {monitor : Monitor} {exact : PollDict} {d : FloatDict}
    (h : Decoded monitor exact d)
    (hCount : d.get "cell_count" = none ∨ isNumber (d.get "cell_count") = true) :
    ∃ cells, floatCellVolts d = some cells ∧ ∀ x ∈ cells, ∃ q, x = .finite q := by
  obtain ⟨n, hn⟩ : ∃ n, intOrZero (d.get "cell_count") = some n := by
    rcases hCount with hNone | hNumber
    · exact ⟨0, by rw [hNone]; rfl⟩
    · obtain ⟨q, hq, _⟩ := h.number hNumber
      exact exists_intOrZero hNumber hq
  have hCells : ∀ v ∈ ((List.range n.toNat).map fun j =>
      d.get ("cell_voltage_" ++ (toString j ++ "_v"))).filter isNumber,
      ∃ q, scalarFloat v = some (.finite q) := by
    intro v hv
    obtain ⟨hMem, hNumber⟩ := List.mem_filter.mp hv
    obtain ⟨j, _, rfl⟩ := List.mem_map.mp hMem
    obtain ⟨q, hq, _⟩ := h.number hNumber
    exact ⟨q, hq⟩
  obtain ⟨cells, hMap⟩ := exists_mapM fun v hv => (hCells v hv).elim fun q hq => ⟨_, hq⟩
  refine ⟨cells, by simp only [floatCellVolts, hn, Option.bind_eq_bind, Option.bind_some, hMap], ?_⟩
  intro x hx
  obtain ⟨v, hv, hFloat⟩ := (mem_mapM hMap).mp hx
  obtain ⟨q, hq⟩ := hCells v hv
  exact ⟨q, Option.some.inj (hFloat.symm.trans hq)⟩

/-- The rows that are derived from finite cells are no `nan`. -/
theorem derivedRows_of_finite {label : String} {d : FloatDict} {cells : List PyFloat}
    (hCells : floatCellVolts d = some cells) (hFinite : ∀ x ∈ cells, ∃ q, x = .finite q) :
    ∃ rows, derivedRows label d = some rows ∧ ∀ x ∈ rows, x.2.2 ≠ .nan := by
  unfold derivedRows
  split_ifs
  · refine ⟨_, by rw [hCells, Option.map_some], ?_⟩
    cases cells with
    | nil => simp [PyFloat.minOf]
    | cons x xs =>
        obtain ⟨low, hLow⟩ := hFinite _ (PyFloat.foldl_min_mem x xs)
        obtain ⟨high, hHigh⟩ := hFinite _ (PyFloat.foldl_max_mem x xs)
        simp only [PyFloat.minOf, PyFloat.maxOf, hLow, hHigh, List.forall_mem_cons]
        exact ⟨PyFloat.noConfusion, PyFloat.noConfusion, PyFloat.ofRat_ne_nan _, by simp⟩
  · exact ⟨[], rfl, by simp⟩

theorem floatCellInfo_singleton {d : FloatDict} {cells : List PyFloat}
    (hCells : floatCellVolts d = some cells) (hFinite : ∀ x ∈ cells, ∃ q, x = .finite q) :
    ∃ info, floatCellInfo [d] = some info ∧ NoNan info ∧
      ∀ e ∈ info, e.1 ∈ ["cell_min_v", "cell_max_v", "worst_pack_drift_v"] := by
  cases cells with
  | nil =>
      refine ⟨[("worst_pack_drift_v", .finite 0)], ?_, by simp [NoNan], by simp⟩
      simp only [floatCellInfo, List.mapM_cons, List.mapM_nil, hCells]
      rfl
  | cons x xs =>
      obtain ⟨low, hLow⟩ := hFinite _ (PyFloat.foldl_min_mem x xs)
      obtain ⟨high, hHigh⟩ := hFinite _ (PyFloat.foldl_max_mem x xs)
      refine ⟨[("cell_min_v", .finite low), ("cell_max_v", .finite high),
        ("worst_pack_drift_v", if PyFloat.lt (.finite 0) ((PyFloat.finite high).sub (.finite low))
          then (PyFloat.finite high).sub (.finite low) else .finite 0)], ?_, ?_, by simp⟩
      · simp only [floatCellInfo, List.mapM_cons, List.mapM_nil, hCells, Option.bind_eq_bind,
          Option.bind_some, Option.pure_def, List.filterMap_cons, List.filterMap_nil,
          PyFloat.minOf, PyFloat.maxOf, hLow, hHigh, List.foldl_nil, List.zipWith_cons_cons,
          List.zipWith_nil_left, List.foldl_cons]
        rfl
      · have hDrift : (PyFloat.finite high).sub (.finite low) ≠ .nan := PyFloat.ofRat_ne_nan _
        intro e he
        simp only [List.mem_cons, List.not_mem_nil, or_false] at he
        rcases he with rfl | rfl | rfl
        · exact PyFloat.noConfusion
        · exact PyFloat.noConfusion
        · dsimp only
          split_ifs
          · exact hDrift
          · exact PyFloat.noConfusion

theorem kilowattHours_ne_nan (q v : ℚ) :
    ((((PyFloat.finite q).mul (.finite v)).div (.finite 1000)).round 1) ≠ .nan := by
  have hRound : ∀ x : PyFloat, x ≠ .nan → x.round 1 ≠ .nan := by
    intro x hx
    cases x with
    | finite q => exact PyFloat.ofRat_ne_nan _
    | _ => exact hx
  have hDiv : ∀ x : PyFloat, x ≠ .nan → x.div (.finite 1000) ≠ .nan := by
    intro x hx
    cases x with
    | finite q => exact PyFloat.ofRat_ne_nan _
    | infinite s => exact PyFloat.noConfusion
    | nan => exact hx
  exact hRound _ (hDiv _ (PyFloat.ofRat_ne_nan _))

theorem floatBmsHealth_singleton {monitor : Monitor} {exact : PollDict} {d : FloatDict} {v : ℚ}
    (h : Decoded monitor exact d) (hVoltage : Shows (d.get "voltage_v") (some v)) :
    ∃ health, floatBmsHealth [d] = some health ∧ NoNan health ∧ ∀ e ∈ health,
      e.1 ∈ ["cycle_count", "lifetime_throughput_ah", "lifetime_throughput_kwh"] := by
  obtain ⟨worst, cycles, hCycles, hWorst, hWorstNan, hWorstName⟩ : ∃ worst cycles,
      (([d].map fun b => b.get "cycle_count").filter isNumber).mapM scalarInt = some cycles ∧
      (cycles.max?.elim (some []) fun n =>
        (PyFloat.ofInt n).map fun x => [("cycle_count", x)]) = some worst ∧
      NoNan worst ∧ ∀ e ∈ worst, e.1 = "cycle_count" := by
    by_cases hNumber : isNumber (d.get "cycle_count") = true
    · obtain ⟨q, hq, hDouble⟩ := h.number hNumber
      obtain ⟨n, x, hInt, hFloat⟩ := exists_scalarInt hNumber hq hDouble
      refine ⟨[("cycle_count", .finite x)], [n], ?_, ?_, by simp [NoNan], by simp⟩
      · simp [hNumber, hInt]
      · simp [hFloat]
    · exact ⟨[], [], by simp [hNumber], rfl, by simp [NoNan], by simp⟩
  obtain ⟨throughput, hThroughput, hTotal⟩ : ∃ throughput,
      (([d].map fun b => b.get "total_charge_ah").filter isNumber).mapM scalarFloat =
        some throughput ∧ (throughput = [] ∨ ∃ q, PyFloat.sum throughput = .finite q) := by
    by_cases hNumber : isNumber (d.get "total_charge_ah") = true
    · obtain ⟨q, hq, hDouble⟩ := h.number hNumber
      exact ⟨[.finite q], by simp [hNumber, hq], Or.inr ⟨q, sum_singleton hDouble⟩⟩
    · exact ⟨[], by simp [hNumber], Or.inl rfl⟩
  simp only [floatBmsHealth, meanVoltage_singleton hVoltage, Option.bind_eq_bind, Option.bind_some,
    hCycles, hThroughput, hWorst]
  rcases hTotal with rfl | ⟨q, hq⟩
  · refine ⟨worst, by simp, hWorstNan, fun e he => ?_⟩
    rw [hWorstName e he]
    decide
  · refine ⟨_, rfl, ?_, ?_⟩
    · intro e he
      rcases List.mem_append.mp he with he | he
      · exact hWorstNan e he
      · split at he
        · cases he
        · simp only [hq, List.mem_cons, List.not_mem_nil, or_false] at he
          rcases he with rfl | rfl
          · exact PyFloat.noConfusion
          · exact kilowattHours_ne_nan q v
    · intro e he
      rcases List.mem_append.mp he with he | he
      · rw [hWorstName e he]
        decide
      · split at he
        · cases he
        · simp only [List.mem_cons, List.not_mem_nil, or_false] at he
          rcases he with rfl | rfl <;> simp

/-! ### The other devices -/

theorem scalarIsSome_of_truthy {v : Option PyScalar} (h : scalarTruthy v = true) :
    scalarIsSome v = true := by
  match v with
  | none | some .none => cases h
  | some (.bool _) | some (.int _) | some (.float _) | some (.text _) | some (.list _) => rfl

namespace OtherDevice

variable {d : FloatDict}

theorem floatOr (h : OtherDevice d) {key : String} (hKey : key ∈ bankInputs) :
    ∃ x, Storage.floatOr (d.get key) (some (.finite 0)) = some x := by
  unfold Storage.floatOr
  split_ifs with hTruthy
  · exact Option.isSome_iff_exists.mp (h.inputs key hKey (scalarIsSome_of_truthy hTruthy))
  · exact ⟨_, rfl⟩

theorem floatUnless (h : OtherDevice d) {key : String} (hKey : key ∈ bankInputs)
    (default : PyFloat) : ∃ x, Storage.floatUnless (d.get key) default = some x := by
  unfold Storage.floatUnless
  split_ifs with hSome
  · exact Option.isSome_iff_exists.mp (h.inputs key hKey hSome)
  · exact ⟨_, rfl⟩

/-- An inverter's view knows no charge. -/
theorem inverterView (h : OtherDevice d) :
    ∃ view, floatInverterView d = some view ∧ "remaining_ah" ∉ view.map Prod.fst := by
  obtain ⟨v, hv⟩ := h.floatOr (show "battery_voltage_v" ∈ bankInputs by decide)
  obtain ⟨i, hi⟩ := h.floatOr (show "battery_current_a" ∈ bankInputs by decide)
  obtain ⟨soc, hSoc⟩ := h.floatOr (show "soc_pct" ∈ bankInputs by decide)
  obtain ⟨power, hPower⟩ := h.floatUnless (show "battery_power_w" ∈ bankInputs by decide) (v.mul i)
  refine ⟨[("voltage_v", v), ("current_a", i), ("power_w", power), ("soc_pct", soc)], ?_, by simp⟩
  simp only [floatInverterView, hv, hi, hSoc, hPower, Option.bind_eq_bind, Option.bind_some]

/-- Neither does a controller's. -/
theorem controllerView (h : OtherDevice d) :
    ∃ view, floatControllerView d = some view ∧ "remaining_ah" ∉ view.map Prod.fst := by
  obtain ⟨v, hv⟩ := h.floatOr (show "battery_voltage_v" ∈ bankInputs by decide)
  obtain ⟨i, hi⟩ := h.floatOr (show "battery_current_a" ∈ bankInputs by decide)
  by_cases hNumber : isNumber (d.get "battery_percentage") = true
  · obtain ⟨x, hx⟩ : ∃ x, scalarFloat (d.get "battery_percentage") = some x := by
      match hGet : d.get "battery_percentage" with
      | some v => exact exists_scalarFloat (hGet ▸ hNumber) (h.storable _ v hGet (by decide))
      | none =>
          rw [hGet] at hNumber
          cases hNumber
    refine ⟨[("voltage_v", v), ("current_a", i), ("power_w", v.mul i), ("soc_pct", x)], ?_, by simp⟩
    simp only [floatControllerView, hv, hi, hx, if_pos hNumber, Option.bind_eq_bind,
      Option.bind_some, Option.map_some]
    rfl
  · refine ⟨[("voltage_v", v), ("current_a", i), ("power_w", v.mul i)], ?_, by simp⟩
    simp only [floatControllerView, hv, hi, if_neg hNumber, Option.bind_eq_bind, Option.bind_some]
    rfl

end OtherDevice

/-- A device that was found has a view when all that could be found do. -/
theorem floatViewOf_find {view : FloatDict → Option FloatView} {p : FloatDict → Bool}
    {devices : List FloatDict} {P : FloatView → Prop}
    (h : ∀ d ∈ devices, p d = true → ∃ v, view d = some v ∧ P v) :
    ∃ found, floatViewOf view (devices.find? p) = some found ∧ ∀ v, found = some v → P v := by
  match hFind : devices.find? p with
  | none => exact ⟨none, rfl, fun v hv => by cases hv⟩
  | some d =>
      obtain ⟨v, hView, hv⟩ := h d (List.mem_of_find?_eq_some hFind) (List.find?_some hFind)
      refine ⟨some v, by simp [floatViewOf, hView], ?_⟩
      rintro v' ⟨⟩
      exact hv

/-! ### The aggregate of the rig -/

namespace Rig

variable {rig : Rig}

/-- The results of the poll. -/
def results (rig : Rig) : List FloatDict := rig.result.devices.entries.map Prod.snd

/-- With no other monitor in reach the aggregate sees the poll. -/
theorem bankOf_eq {db : Db SqlFloat} {ts : Nat} (hAlone : NoOtherMonitor db rig ts)
    (settings : BankSettings) :
    floatBankOf settings db rig.result.devices ts = floatBankAggregate settings rig.results := by
  have hNone : db.deviceMeta.rows.filter (fillsIn rig.result.devices.keys ts) = [] := by
    rw [List.filter_eq_nil_iff]
    intro e he hFills
    simp only [fillsIn, Bool.and_eq_true, Bool.not_eq_true', decide_eq_true_eq] at hFills
    obtain ⟨⟨hKind, hNotLive⟩, hFresh⟩ := hFills
    rcases hAlone e he hKind with hLive | hStale
    · rw [List.contains_iff_mem.mpr hLive] at hNotLive
      cases hNotLive
    · omega
  rw [floatBankOf, floatAugment, hNone, List.map_nil, List.append_nil, results]

theorem eq_dict_of_label {e : String × FloatDict} (he : e ∈ rig.result.devices.entries)
    (hLabel : e.1 = rig.label) : e.2 = rig.dict := by
  have hGet := Dict.mem_iff_get.mp (show (e.1, e.2) ∈ rig.result.devices.entries from he)
  rw [hLabel, rig.polled] at hGet
  exact (Option.some.inj hGet).symm

/-- Of a kind that no other device has, the monitor is the only one. -/
theorem filter_results {p : FloatDict → Bool} (hOthers : ∀ d, OtherDevice d → p d = false) :
    rig.results.filter p = [rig.dict].filter p := by
  have hEntries : rig.result.devices.entries.filter (p ∘ Prod.snd) =
      (rig.result.devices.entries.filter fun e => e.1 = rig.label).filter (p ∘ Prod.snd) := by
    rw [List.filter_filter]
    apply List.filter_congr
    intro e he
    by_cases hLabel : e.1 = rig.label
    · simp [hLabel]
    · simp [hLabel, hOthers e.2 (rig.alone e he hLabel)]
  rw [results, List.filter_map, hEntries, Dict.filter_key rig.polled]
  simp only [List.filter_cons, List.filter_nil, Function.comp_apply]
  change List.map Prod.snd (if p rig.dict = true then [(rig.label, rig.dict)] else []) = _
  split <;> rfl

theorem find_results {p : FloatDict → Bool} (hOthers : ∀ d, OtherDevice d → p d = false) :
    rig.results.find? p = [rig.dict].find? p := by
  rw [← List.head?_filter, filter_results hOthers, List.head?_filter]

theorem kind_of_other {d : FloatDict} (h : OtherDevice d) :
    floatKind d ≠ "shunt" ∧ floatKind d ≠ "smart_battery" := by
  have hKind := h.kind
  simp only [List.mem_cons, not_or] at hKind
  exact ⟨hKind.1, hKind.2.1⟩

/-- A monitor is neither an inverter nor a controller. -/
theorem other_of_found {d : FloatDict} (hd : d ∈ rig.results)
    (hKind : floatKind rig.dict ∈ ["shunt", "smart_battery", "bms"])
    (hFound : isFloatInverter d = true ∨ isFloatController d = true) : OtherDevice d := by
  obtain ⟨e, he, rfl⟩ := List.mem_map.mp hd
  by_cases hLabel : e.1 = rig.label
  · have hDict := eq_dict_of_label he hLabel
    have hNeither : ∀ k ∈ ["shunt", "smart_battery", "bms"],
        PyText.startsWith k "inverter" = false ∧ k ≠ "charge_controller" := by decide
    obtain ⟨hInverter, hController⟩ := hNeither _ hKind
    rw [hDict, isFloatInverter, isFloatController, hInverter, decide_eq_false hController] at hFound
    simp at hFound
  · exact rig.alone e he hLabel

/-- What the aggregate has beside the figures of its view. -/
def besides (packs : Nat) (source : BankSource) (cells health : Option FloatView) :
    List (String × PyScalar) :=
  [("pack_count", .float (.ofRat packs)), ("source", .text (.utf8 source.text))] ++
    floatFields (cells.getD []) ++ floatFields (health.getD [])

/-- The monitor decides whether there is a shunt or a pack; the views of the other
devices come after it, and know no charge. -/
theorem aggregate (rig : Rig) (settings : BankSettings)
    (hKind : floatKind rig.dict ∈ ["shunt", "smart_battery", "bms"]) (packs : List FloatDict)
    (cells bms health shunt : Option FloatView)
    (hPacks : [rig.dict].filter (fun d => floatKind d = "smart_battery") = packs)
    (hCells : floatViewOf floatCellInfo (if packs.isEmpty then none else some packs) = some cells)
    (hBms : floatViewOf floatBmsView (if packs.isEmpty then none else some packs) = some bms)
    (hHealth : floatViewOf floatBmsHealth (if packs.isEmpty then none else some packs) =
      some health)
    (hShunt : floatViewOf floatShuntView ([rig.dict].find? fun d => floatKind d = "shunt") =
      some shunt) (hOne : shunt = none ∨ bms = none) :
    ∃ inverter controller, floatBankAggregate settings rig.results =
        some ((chooseFloatView settings.policy shunt bms inverter controller).map fun chosen =>
          Dict.ofList (floatFields chosen.2 ++ besides packs.length chosen.1 cells health)) ∧
      (∀ v, inverter = some v → "remaining_ah" ∉ v.map Prod.fst) ∧
      ∀ v, controller = some v → "remaining_ah" ∉ v.map Prod.fst := by
  obtain ⟨inverter, hInverter, hNone⟩ := floatViewOf_find fun d hd hFound =>
    (other_of_found hd hKind (Or.inl hFound)).inverterView
  obtain ⟨controller, hController, hNone'⟩ := floatViewOf_find fun d hd hFound =>
    (other_of_found hd hKind (Or.inr hFound)).controllerView
  refine ⟨inverter, controller, ?_, hNone, hNone'⟩
  have hBatts : rig.results.filter (fun d => floatKind d = "smart_battery") = packs := by
    rw [← hPacks]
    exact filter_results fun d hd => decide_eq_false (kind_of_other hd).2
  have hFind : rig.results.find? (fun d => floatKind d = "shunt") =
      [rig.dict].find? fun d => floatKind d = "shunt" :=
    find_results fun d hd => decide_eq_false (kind_of_other hd).1
  have hAgree : ∀ showing, floatDisagreement settings showing shunt bms = none := by
    intro showing
    rcases hOne with rfl | rfl
    · rfl
    · cases shunt <;> rfl
  simp only [floatBankAggregate, selectFloatBank, hBatts, hFind, hCells, hBms, hHealth, hShunt,
    hInverter, hController, hAgree, Option.bind_eq_bind, Option.bind_some, besides,
    Option.map_none, Option.toList_none, List.append_nil, List.append_assoc]

/-- A poll of which only the figures of the bank are in question. -/
theorem writesFaithfulRow_iff {settings : BankSettings} {db : Db SqlFloat} {ts : Nat}
    {bank : FloatDict} (hAlone : NoOtherMonitor db rig ts)
    (hBank : floatBankAggregate settings rig.results = some (some bank))
    (hStorable : ∀ k v, bank.get k = some v → Storable v)
    (hCells : ∃ rows, derivedRows rig.label rig.dict = some rows ∧ ∀ x ∈ rows, x.2.2 ≠ .nan) :
    WritesFaithfulRow settings db rig ts ↔ Faithful rig.monitor rig.dict bank := by
  rw [← bankOf_eq hAlone] at hBank
  have hClean : Clean settings db rig.result.devices ts := by
    refine ⟨fun label data hData k v hv hk => ?_, fun label data hData => ?_, some bank, hBank, ?_⟩
    · have he := Dict.mem_iff_get.mpr hData
      by_cases hLabel : label = rig.label
      · obtain rfl : data = rig.dict := eq_dict_of_label he hLabel
        exact rig.decoded.storable k v hv
      · exact (rig.alone _ he hLabel).storable k v hv hk
    · have he := Dict.mem_iff_get.mpr hData
      by_cases hLabel : label = rig.label
      · obtain rfl : data = rig.dict := eq_dict_of_label he hLabel
        rw [hLabel]
        exact hCells
      · refine ⟨[], ?_, by simp⟩
        rw [derivedRows, if_neg (kind_of_other (rig.alone _ he hLabel)).2]
    · rintro b ⟨⟩
      exact hStorable
  constructor
  · rintro ⟨bank', hBank', _, hFaithful⟩
    obtain rfl : bank = bank' := by simpa using hBank.symm.trans hBank'
    exact hFaithful
  · exact fun hFaithful =>
      ⟨bank, hBank, fun metric x hRow => lookup_bank_samples hClean hBank hRow, hFaithful⟩

end Rig

/-! ### The row of a view -/

section Row

variable {v i power soc remaining capacity : PyFloat} {timeToGo : FloatView} {packs : Nat}
  {source : BankSource} {cells health : Option FloatView}

/-- The names that stand beside the figures. -/
def besidesNames : List String :=
  ["time_to_go_minutes", "pack_count", "source", "cell_min_v", "cell_max_v", "worst_pack_drift_v",
    "cycle_count", "lifetime_throughput_ah", "lifetime_throughput_kwh"]

/-- A view of the cells or of the health of the packs that is written beside the figures. -/
structure Beside (view : Option FloatView) : Prop where
  noNan : NoNan (view.getD [])
  names : ∀ e ∈ view.getD [], e.1 ∈ besidesNames

theorem map_fst_floatFields (view : FloatView) :
    (floatFields view).map Prod.fst = view.map Prod.fst := by
  rw [floatFields, List.map_map]
  rfl

theorem names_besides (hTime : ∀ e ∈ timeToGo, e.1 = "time_to_go_minutes") (hCells : Beside cells)
    (hHealth : Beside health) : ∀ name ∈ (floatFields timeToGo ++
      Rig.besides packs source cells health).map Prod.fst, name ∈ besidesNames := by
  intro name hName
  simp only [Rig.besides, List.map_append, map_fst_floatFields, List.mem_append] at hName
  rcases hName with hName | (hName | hName) | hName
  · obtain ⟨e, he, rfl⟩ := List.mem_map.mp hName
    rw [hTime e he]
    decide
  · simp only [List.map_cons, List.map_nil, List.mem_cons, List.not_mem_nil, or_false] at hName
    rcases hName with rfl | rfl <;> decide
  · obtain ⟨e, he, rfl⟩ := List.mem_map.mp hName
    exact hCells.names e he
  · obtain ⟨e, he, rfl⟩ := List.mem_map.mp hName
    exact hHealth.names e he

/-- What the row says is what the view says. -/
theorem rowFloat_figures (hTime : ∀ e ∈ timeToGo, e.1 = "time_to_go_minutes")
    (hCells : Beside cells) (hHealth : Beside health) {bank : FloatDict}
    (hBank : bank = Dict.ofList (floatFields (figures v i power soc remaining capacity ++
      timeToGo) ++ Rig.besides packs source cells health)) :
    rowFloat bank "voltage_v" = some v ∧ rowFloat bank "current_a" = some i ∧
      rowFloat bank "soc_pct" = some soc ∧ rowFloat bank "remaining_ah" = some remaining ∧
      rowFloat bank "capacity_ah" = some capacity := by
  have hFields : floatFields (figures v i power soc remaining capacity ++ timeToGo) =
      floatFields (figures v i power soc remaining capacity) ++ floatFields timeToGo :=
    List.map_append
  have hNodup : ((floatFields (figures v i power soc remaining capacity)).map Prod.fst).Nodup := by
    rw [map_fst_floatFields]
    simp [figures]
  have hRow : ∀ metric, metric ∉ besidesNames → rowFloat bank metric =
      ((floatFields (figures v i power soc remaining capacity)).lookup metric).bind
        fun v => v.number.join := by
    intro metric hMetric
    rw [rowFloat, hBank, hFields, List.append_assoc, Dict.ofList, setAll_append,
      Dict.get_setAll_of_notMem, Dict.get_setAll hNodup, Dict.get_empty, Option.or_none]
    exact fun hMem => hMetric (names_besides hTime hCells hHealth _ hMem)
  refine ⟨?_, ?_, ?_, ?_, ?_⟩
  all_goals
    rw [hRow _ (by decide)]
    rfl

/-- All of the row can be stored. -/
theorem storable_figures (hFigures : NoNan (figures v i power soc remaining capacity))
    (hTimeNan : NoNan timeToGo) (hCells : Beside cells) (hHealth : Beside health) :
    ∀ k w, (Dict.ofList (floatFields (figures v i power soc remaining capacity ++ timeToGo) ++
      Rig.besides packs source cells health)).get k = some w → Storable w := by
  have hView : ∀ view : FloatView, NoNan view → ∀ e ∈ floatFields view, Storable e.2 := by
    intro view hNan e he
    obtain ⟨f, hf, rfl⟩ := List.mem_map.mp he
    exact hNan f hf
  intro k w hGet
  rcases mem_of_get_setAll hGet with hMem | hEmpty
  · simp only [Rig.besides, List.mem_append] at hMem
    rcases hMem with hMem | (hMem | hMem) | hMem
    · refine hView _ (fun e he => ?_) _ hMem
      exact (List.mem_append.mp he).elim (hFigures e) (hTimeNan e)
    · simp only [List.mem_cons, Prod.mk.injEq, List.not_mem_nil, or_false] at hMem
      rcases hMem with ⟨-, rfl⟩ | ⟨-, rfl⟩
      · exact PyFloat.ofRat_ne_nan _
      · exact PyStr.noConfusion
    · exact hView _ hCells.noNan _ hMem
    · exact hView _ hHealth.noNan _ hMem
  · cases hEmpty

/-- Of a row that takes over voltage and current the other figures decide. -/
theorem faithful_iff {monitor : Monitor} {d bank : FloatDict}
    (hTime : ∀ e ∈ timeToGo, e.1 = "time_to_go_minutes") (hCells : Beside cells)
    (hHealth : Beside health)
    (hBank : bank = Dict.ofList (floatFields (figures v i power soc remaining capacity ++
      timeToGo) ++ Rig.besides packs source cells health))
    (hVoltage : reportedFloat d "voltage_v" = some v)
    (hCurrent : reportedFloat d "current_a" = some i) :
    Faithful monitor d bank ↔
      (∀ x, reportedFloat d "soc_pct" = some x → soc = x) ∧
      (∀ x, reportedFloat d monitor.remainingName = some x → remaining = x) ∧
      ∀ x, reportedFloat d monitor.capacityName = some x → capacity = x := by
  obtain ⟨hV, hI, hSoc, hRem, hCap⟩ := rowFloat_figures hTime hCells hHealth hBank
  constructor
  · intro h
    refine ⟨fun x hx => ?_, fun x hx => ?_, fun x hx => ?_⟩
    · exact Option.some.inj (hSoc.symm.trans (h.soc x hx))
    · exact Option.some.inj (hRem.symm.trans (h.remaining x hx))
    · exact Option.some.inj (hCap.symm.trans (h.capacity x hx))
  · rintro ⟨hSoc', hRem', hCap'⟩
    exact
      { voltage := hV.trans hVoltage.symm
        current := hI.trans hCurrent.symm
        soc := fun x hx => by rw [hSoc, hSoc' x hx]
        remaining := fun x hx => by rw [hRem, hRem' x hx]
        capacity := fun x hx => by rw [hCap, hCap' x hx] }

end Row

/-! ### Zeros and small numbers -/

theorem decimal_zero_or_le {q : ℚ} (h : Decimal q) : q = 0 ∨ 1 / 10000 ≤ |q| := by
  obtain ⟨n, rfl⟩ := h
  by_cases hZero : n = 0
  · left
    rw [hZero, Int.cast_zero, zero_div]
  · right
    rw [abs_div, ← Int.cast_abs, abs_of_pos (show (0 : ℚ) < 10000 by norm_num)]
    have hOne : (1 : ℚ) ≤ (|n| : Int) := by exact_mod_cast Int.one_le_abs hZero
    exact div_le_div_of_nonneg_right hOne (by norm_num)

/-- The double of a decimal is zero only when the decimal is, and else not much smaller. -/
theorem decimal_double {q x : ℚ} (h : Decimal q) (hx : PyFloat.ofRat q = .finite x) :
    (x = 0 ↔ q = 0) ∧ (x ≠ 0 → 1 / 20000 ≤ |x|) := by
  rcases decimal_zero_or_le h with rfl | hLe
  · obtain rfl : x = 0 := (PyFloat.finite.inj (ofRat_zero.symm.trans hx)).symm
    exact ⟨Iff.rfl, fun hNe => absurd rfl hNe⟩
  · have hHalf := PyFloat.half_le_of_ofRat hx (Binary64.tiny_le (by norm_num) hLe)
    have hSize : 1 / 20000 ≤ |x| := by linarith
    have hx0 : x ≠ 0 := by
      rintro rfl
      norm_num at hSize
    have hq0 : q ≠ 0 := by
      rintro rfl
      norm_num at hLe
    exact ⟨iff_of_false hx0 hq0, fun _ => hSize⟩

theorem zero_eq_ofRat_iff {q : ℚ} (h : Decimal q) :
    PyFloat.finite 0 = PyFloat.ofRat q ↔ q = 0 := by
  constructor
  · intro hZero
    exact (decimal_double h hZero.symm).1.mp rfl
  · rintro rfl
    exact ofRat_zero.symm

section Shown

variable {remaining capacity : Option ℚ} {soc r c : ℚ}

/-- Without a capacity the charge is shown as it is, and so is the state of charge. -/
theorem shown_of_noCapacity (h : PyFloat.ofRat soc = .finite soc) (hCap : capacity.getD 0 = 0) :
    shownRemaining remaining capacity soc = .finite (remaining.getD 0) ∧
      shownSoc remaining capacity soc = .finite soc := by
  obtain ⟨x, hx⟩ := exists_hundredth h
  have hZero : (PyFloat.finite 0).mul (.finite x) = .finite 0 := by
    change PyFloat.ofRat (0 * x) = .finite 0
    rw [zero_mul, ofRat_zero]
  constructor
  · rw [shownRemaining, hCap, hx, hZero, orDefault_zero]
  · rw [shownSoc, hCap, shareOf, if_pos rfl, orDefault_zero, Option.getD_some]

/-- What is not zero is shown as it is. -/
theorem shown_of_ne_zero (hRem : r ≠ 0) (hSoc : soc ≠ 0) :
    shownRemaining (some r) capacity soc = .finite r ∧
      shownSoc (some r) capacity soc = .finite soc := by
  constructor
  · rw [shownRemaining, orDefault, if_neg hRem]
  · rw [shownSoc, orDefault, if_neg hSoc]

/-- Two zeros are shown as they are. -/
theorem shown_zeros : shownRemaining (some 0) (some c) 0 = .finite 0 ∧
    shownSoc (some 0) (some c) 0 = .finite 0 := by
  have hRemaining : shownRemaining (some 0) (some c) 0 = .finite 0 := by
    have hHundredth : (PyFloat.finite 0).div (.finite 100) = .finite 0 := by
      change PyFloat.ofRat (0 / 100) = .finite 0
      rw [zero_div, ofRat_zero]
    rw [shownRemaining, orDefault, if_pos rfl, hHundredth, Option.getD_some]
    change PyFloat.ofRat (c * 0) = .finite 0
    rw [mul_zero, ofRat_zero]
  refine ⟨hRemaining, ?_⟩
  rw [shownSoc, hRemaining, orDefault, if_pos rfl, shareOf]
  split_ifs
  · rfl
  · have hQuotient : (PyFloat.finite 0).div (.finite ((some c).getD 0)) = .finite 0 := by
      change PyFloat.ofRat (0 / c) = .finite 0
      rw [zero_div, ofRat_zero]
    rw [hQuotient]
    change PyFloat.ofRat (0 * 100) = .finite 0
    rw [zero_mul, ofRat_zero]

/-- A share of a charge is no zero. -/
theorem shareOf_ne_zero (hDouble : PyFloat.ofRat c = .finite c) (hCap : c ≠ 0)
    (hRem : 1 / 20000 ≤ |r|) : shareOf (.finite r) (.finite c) ≠ .finite 0 := by
  have hRange := (PyFloat.ofRat_eq_finite hDouble).1
  have hPos : 0 < |c| := abs_pos.mpr hCap
  have hBound : |c| ≤ 2 ^ 1024 := hRange.le.trans (by
    exact_mod_cast (show PyFloat.overflow ≤ 2 ^ 1024 from Nat.sub_le _ _))
  -- the charge is at least a 2 ^ 15th, and the capacity below 2 ^ 1024
  have hQuotient : (2 : ℚ) ^ (-1040 : Int) ≤ |r / c| := by
    rw [abs_div, le_div_iff₀ hPos]
    calc (2 : ℚ) ^ (-1040 : Int) * |c| ≤ 2 ^ (-1040 : Int) * 2 ^ (1024 : Int) :=
          mul_le_mul_of_nonneg_left (by exact_mod_cast hBound) (zpow_pos two_pos _).le
      _ = 2 ^ (-16 : Int) := by rw [← zpow_add₀ two_ne_zero]; rfl
      _ ≤ 1 / 20000 := by norm_num
      _ ≤ |r| := hRem
  have hNe : PyFloat.finite c ≠ .finite 0 := fun hEq => hCap (PyFloat.finite.inj hEq)
  rw [shareOf, if_neg hNe]
  have hDiv : (PyFloat.finite r).div (.finite c) = PyFloat.ofRat (r / c) := rfl
  rw [hDiv]
  cases hEq : PyFloat.ofRat (r / c) with
  | nan => exact absurd hEq (PyFloat.ofRat_ne_nan _)
  | infinite s => simp [PyFloat.mul]
  | finite x =>
      have hHalf := PyFloat.half_le_of_ofRat hEq
        ((zpow_le_zpow_right₀ one_le_two (by decide)).trans hQuotient)
      refine PyFloat.ofRat_ne_zero ?_
      rw [abs_mul, abs_of_pos (show (0 : ℚ) < 100 by norm_num)]
      have hLarge : (2 : ℚ) ^ (-1040 : Int) ≤ |x| * 100 := by
        linarith [abs_nonneg x]
      exact (zpow_le_zpow_right₀ one_le_two (by decide)).trans hLarge

/-- A charge that is made up from a state of charge is no zero. -/
theorem shownRemaining_ne_zero (hDouble : PyFloat.ofRat soc = .finite soc)
    (hSoc : 1 / 20000 ≤ |soc|) (hCap : 1 / 20000 ≤ |c|) :
    shownRemaining (some 0) (some c) soc ≠ .finite 0 := by
  obtain ⟨x, hx⟩ := exists_hundredth hDouble
  have hTiny : (1 : ℚ) / 2000000 ≤ |soc / 100| := by
    rw [abs_div, abs_of_pos (show (0 : ℚ) < 100 by norm_num), le_div_iff₀ (by norm_num)]
    linarith
  have hHalf := PyFloat.half_le_of_ofRat (q := soc / 100) hx (Binary64.tiny_le (by norm_num) hTiny)
  have hProduct : (1 : ℚ) / 20000 * (1 / 4000000) ≤ |c * x| := by
    rw [abs_mul]
    exact mul_le_mul hCap (by linarith) (by norm_num) (abs_nonneg c)
  rw [shownRemaining, orDefault, if_pos rfl, hx]
  exact PyFloat.ofRat_ne_zero (Binary64.tiny_le (by norm_num) hProduct)

/-- Charge and state of charge of a shunt with a capacity are shown as they are just
when the capacity is zero or both of them are zero together. -/
theorem shown_iff (hSocDouble : PyFloat.ofRat soc = .finite soc)
    (hCapDouble : PyFloat.ofRat c = .finite c) (hSoc : soc ≠ 0 → 1 / 20000 ≤ |soc|)
    (hRem : r ≠ 0 → 1 / 20000 ≤ |r|) (hCap : c ≠ 0 → 1 / 20000 ≤ |c|) :
    (shownSoc (some r) (some c) soc = .finite soc ∧
        shownRemaining (some r) (some c) soc = .finite r) ↔ c = 0 ∨ (r = 0 ↔ soc = 0) := by
  by_cases hCapZero : c = 0
  · obtain ⟨hRemaining, hShown⟩ : shownRemaining (some r) (some c) soc = .finite r ∧
        shownSoc (some r) (some c) soc = .finite soc :=
      shown_of_noCapacity hSocDouble (show (some c).getD 0 = 0 from hCapZero)
    exact iff_of_true ⟨hShown, hRemaining⟩ (Or.inl hCapZero)
  · simp only [hCapZero, false_or]
    by_cases hRemZero : r = 0 <;> by_cases hSocZero : soc = 0
    · subst hRemZero hSocZero
      exact iff_of_true shown_zeros.symm Iff.rfl
    · subst hRemZero
      refine iff_of_false (fun h => ?_) (by simpa using hSocZero)
      exact shownRemaining_ne_zero hSocDouble (hSoc hSocZero) (hCap hCapZero) h.2
    · subst hSocZero
      refine iff_of_false (fun h => ?_) (by simpa using hRemZero)
      have hShare := h.1
      rw [shownSoc, orDefault, if_pos rfl, shownRemaining, orDefault, if_neg hRemZero] at hShare
      exact shareOf_ne_zero hCapDouble hCapZero (hRem hRemZero) hShare
    · exact iff_of_true (shown_of_ne_zero hRemZero hSocZero).symm (by simp [hRemZero, hSocZero])

end Shown

/-! ### The drivers -/

section Rows

variable {settings : BankSettings} {db : Db SqlFloat} {rig : Rig} {ts : Nat} {v i : ℚ}
  {remaining capacity : Option ℚ} (hAlone : NoOtherMonitor db rig ts)

theorem beside_none : Beside none := ⟨by simp [NoNan], by simp⟩

include hAlone

/-- Of a shunt the row has what its view shows. -/
theorem writes_shunt_iff {soc : ℚ}
    (h : ShuntKeys (rig.monitor.dict rig.label rig.slaveId) (some v) (some i) remaining capacity
      (some soc)) (hName : rig.monitor.remainingName = "remaining_ah") :
    ∃ (s : ℚ) (r c : Option ℚ),
      rig.monitor.double "soc_pct" soc = .finite s ∧ PyFloat.ofRat s = .finite s ∧
      remaining.map (rig.monitor.double "remaining_ah") = r.map .finite ∧
      capacity.map (rig.monitor.double "bank_capacity_ah") = c.map .finite ∧
      Shows (rig.dict.get "bank_capacity_ah") c ∧
      (WritesFaithfulRow settings db rig ts ↔ shownSoc r c s = .finite s ∧
        (∀ q, r = some q → shownRemaining r c s = .finite q) ∧
        ∀ x, reportedFloat rig.dict rig.monitor.capacityName = some x →
          .finite (c.getD 0) = x) := by
  obtain ⟨_ | v', hVoltage, hV⟩ := rig.decoded.shows (by decide) h.voltage
  · cases hV
  obtain ⟨_ | i', hCurrent, hI⟩ := rig.decoded.shows (by decide) h.current
  · cases hI
  obtain ⟨_ | s, hSoc, hS⟩ := rig.decoded.shows (by decide) h.soc
  · cases hS
  obtain ⟨r, hRemaining, hR⟩ := rig.decoded.shows (by decide) h.remaining
  obtain ⟨c, hBankCapacity, hC⟩ := rig.decoded.shows (by decide) h.bankCapacity
  refine ⟨s, r, c, Option.some.inj hS, hSoc.2.2, hR, hC, hBankCapacity, ?_⟩
  obtain ⟨power, timeToGo, hView, hPower, hTimeNan, hTime⟩ := floatShuntView_eq rig.decoded hVoltage
    hCurrent hRemaining hBankCapacity (rig.decoded.missing _ h.capacity) hSoc
    (rig.decoded.numeric h.power)
  have hKind := rig.decoded.kind h.kind
  obtain ⟨inverter, controller, hBank, _⟩ := rig.aggregate settings (by simp [hKind]) [] none none
    none (some (figures (.finite v') (.finite i') power (shownSoc r c s) (shownRemaining r c s)
      (.finite (c.getD 0)) ++ timeToGo)) (by simp [hKind]) rfl rfl rfl
    (by simp [hKind, floatViewOf, hView]) (Or.inr rfl)
  have hChosen : chooseFloatView settings.policy (some (figures (.finite v') (.finite i') power
      (shownSoc r c s) (shownRemaining r c s) (.finite (c.getD 0)) ++ timeToGo)) none inverter
        controller = some (.shunt, figures (.finite v') (.finite i') power (shownSoc r c s)
          (shownRemaining r c s) (.finite (c.getD 0)) ++ timeToGo) := by
    cases settings.policy <;> rfl
  rw [hChosen, Option.map_some] at hBank
  have hShown : shownRemaining r c s ≠ .nan := shownRemaining_ne_nan hSoc.2.2
  have hFigures : NoNan (figures (.finite v') (.finite i') power (shownSoc r c s)
      (shownRemaining r c s) (.finite (c.getD 0))) := by
    simp only [NoNan, figures, List.forall_mem_cons]
    exact ⟨PyFloat.noConfusion, PyFloat.noConfusion, hPower,
      orDefault_ne_nan (shareOf_ne_nan hShown _), hShown, PyFloat.noConfusion, by simp⟩
  rw [Rig.writesFaithfulRow_iff hAlone hBank
      (storable_figures hFigures hTimeNan beside_none beside_none)
      ⟨[], by rw [derivedRows, if_neg (by rw [hKind]; decide)], by simp⟩,
    faithful_iff hTime beside_none beside_none rfl hVoltage.reported hCurrent.reported,
    hName, hSoc.reported, hRemaining.reported]
  simp only [Option.map_some, Option.some.injEq, forall_eq', Option.map_eq_some_iff,
    forall_exists_index, and_imp, forall_apply_eq_imp_iff₂]

/-- Of a single pack the row has everything, but its own state of charge. -/
theorem writes_battery_iff {soc : Option ℚ}
    (h : BatteryKeys (rig.monitor.dict rig.label rig.slaveId) (some v) (some i) remaining capacity
      soc) (hRemainingName : rig.monitor.remainingName = "remaining_charge_ah")
    (hCapacityName : rig.monitor.capacityName = "capacity_ah") :
    ∃ r c : Option ℚ,
      remaining.map (rig.monitor.double "remaining_charge_ah") = r.map .finite ∧
      capacity.map (rig.monitor.double "capacity_ah") = c.map .finite ∧
      (WritesFaithfulRow settings db rig ts ↔
        ∀ q, soc = some q → shareOf (.finite (r.getD 0)) (.finite (c.getD 0)) =
          rig.monitor.double "soc_pct" q) := by
  obtain ⟨_ | v', hVoltage, hV⟩ := rig.decoded.shows (by decide) h.voltage
  · cases hV
  obtain ⟨_ | i', hCurrent, hI⟩ := rig.decoded.shows (by decide) h.current
  · cases hI
  obtain ⟨s, hSoc, hS⟩ := rig.decoded.shows (by decide) h.soc
  obtain ⟨r, hRemaining, hR⟩ := rig.decoded.shows (by decide) h.remaining
  obtain ⟨c, hCapacity, hC⟩ := rig.decoded.shows (by decide) h.capacity
  refine ⟨r, c, hR, hC, ?_⟩
  have hKind := rig.decoded.kind h.kind
  have hView := floatBmsView_eq hVoltage hCurrent hRemaining hCapacity
  obtain ⟨volts, hVolts, hFinite⟩ := exists_floatCellVolts rig.decoded
    (rig.decoded.numeric h.cellCount)
  obtain ⟨cells, hCells, hCellsNan, hCellsName⟩ := floatCellInfo_singleton hVolts hFinite
  obtain ⟨health, hHealth, hHealthNan, hHealthName⟩ :=
    floatBmsHealth_singleton rig.decoded hVoltage
  have hBesideCells : Beside (some cells) := by
    refine ⟨hCellsNan, fun e he => ?_⟩
    have hNames : ∀ k ∈ ["cell_min_v", "cell_max_v", "worst_pack_drift_v"], k ∈ besidesNames := by
      decide
    exact hNames _ (hCellsName e he)
  have hBesideHealth : Beside (some health) := by
    refine ⟨hHealthNan, fun e he => ?_⟩
    have hNames : ∀ k ∈ ["cycle_count", "lifetime_throughput_ah", "lifetime_throughput_kwh"],
        k ∈ besidesNames := by decide
    exact hNames _ (hHealthName e he)
  obtain ⟨inverter, controller, hBank, _⟩ := rig.aggregate settings (by simp [hKind]) [rig.dict]
    (some cells) (some (figures (.finite v') (.finite i') ((PyFloat.finite v').mul (.finite i'))
      (shareOf (.finite (r.getD 0)) (.finite (c.getD 0))) (.finite (r.getD 0))
      (.finite (c.getD 0)))) (some health) none (by simp [hKind]) (by simp [floatViewOf, hCells])
    (by simp [floatViewOf, hView]) (by simp [floatViewOf, hHealth])
    (by simp [hKind, floatViewOf]) (Or.inl rfl)
  have hChosen : ∀ view : FloatView, chooseFloatView settings.policy none (some view) inverter
      controller = some (.bms, view) := by
    intro view
    cases settings.policy <;> rfl
  rw [hChosen, Option.map_some, ← List.append_nil (figures ..)] at hBank
  have hFigures : NoNan (figures (.finite v') (.finite i') ((PyFloat.finite v').mul (.finite i'))
      (shareOf (.finite (r.getD 0)) (.finite (c.getD 0))) (.finite (r.getD 0))
      (.finite (c.getD 0))) := by
    simp only [NoNan, figures, List.forall_mem_cons]
    exact ⟨PyFloat.noConfusion, PyFloat.noConfusion, PyFloat.ofRat_ne_nan _,
      shareOf_ne_nan PyFloat.noConfusion _, PyFloat.noConfusion, PyFloat.noConfusion, by simp⟩
  have hDerived : ∃ rows, derivedRows rig.label rig.dict = some rows ∧
      ∀ x ∈ rows, x.2.2 ≠ .nan := derivedRows_of_finite hVolts hFinite
  rw [Rig.writesFaithfulRow_iff hAlone hBank
      (storable_figures hFigures (by simp [NoNan]) hBesideCells hBesideHealth) hDerived,
    faithful_iff (by simp) hBesideCells hBesideHealth rfl hVoltage.reported hCurrent.reported,
    hRemainingName, hCapacityName, hSoc.reported, hRemaining.reported, hCapacity.reported, ← hS]
  have hGetD : ∀ (y : Option ℚ) x, y.map PyFloat.finite = some x →
      PyFloat.finite (y.getD 0) = x := by
    intro y x hx
    obtain ⟨q, rfl, rfl⟩ := Option.map_eq_some_iff.mp hx
    rfl
  constructor
  · rintro ⟨hShare, _⟩ q rfl
    exact hShare _ rfl
  · intro hShare
    refine ⟨fun x hx => ?_, hGetD r, hGetD c⟩
    obtain ⟨q, rfl, rfl⟩ := Option.map_eq_some_iff.mp hx
    exact hShare q rfl

/-- A monitor of the kind `bms` that reports a charge has no faithful row. -/
theorem not_writes_of_bms
    (hExact : (rig.monitor.dict rig.label rig.slaveId).get "_kind" = some (.text "bms")) {q : ℚ}
    (hCharge : (rig.monitor.dict rig.label rig.slaveId).get rig.monitor.remainingName =
      some (.num q)) : ¬ WritesFaithfulRow settings db rig ts := by
  rintro ⟨bank, hBank, _, hFaithful⟩
  rw [Rig.bankOf_eq hAlone] at hBank
  have hKind := rig.decoded.kind hExact
  obtain ⟨inverter, controller, hAggregate, hNone, hNone'⟩ := rig.aggregate settings
    (by simp [hKind]) [] none none none none (by simp [hKind]) rfl rfl rfl
    (by simp [hKind, floatViewOf]) (Or.inl rfl)
  have hMade := Option.some.inj (hAggregate.symm.trans hBank)
  obtain ⟨chosen, hChosen, rfl⟩ := Option.map_eq_some_iff.mp hMade
  have hNoCharge : "remaining_ah" ∉ chosen.2.map Prod.fst := by
    cases inverter with
    | some view =>
        obtain rfl : chosen = (.inverter, view) := by
          cases hPolicy : settings.policy <;> rw [hPolicy] at hChosen <;>
            exact (Option.some.inj hChosen).symm
        exact hNone _ rfl
    | none =>
        cases controller with
        | some view =>
            obtain rfl : chosen = (.controller, view) := by
              cases hPolicy : settings.policy <;> rw [hPolicy] at hChosen <;>
                exact (Option.some.inj hChosen).symm
            exact hNone' _ rfl
        | none => cases hPolicy : settings.policy <;> rw [hPolicy] at hChosen <;> cases hChosen
  obtain ⟨x, hx⟩ : ∃ x, reportedFloat rig.dict rig.monitor.remainingName = some x := by
    have hNumber := rig.decoded.numbers _ q hCharge
    obtain ⟨p, hp, _⟩ := rig.decoded.number hNumber
    exact ⟨_, by rw [reportedFloat, if_pos hNumber, hp]⟩
  have hRow := hFaithful.remaining x hx
  rw [rowFloat, Dict.ofList, Dict.get_setAll_of_notMem, Dict.get_empty] at hRow
  · cases hRow
  · rw [List.map_append, map_fst_floatFields, List.mem_append, not_or]
    exact ⟨hNoCharge, by cases chosen.1 <;> decide⟩

end Rows

/-- A shunt without a capacity is shown as it is. -/
theorem writes_noCapacity_iff {settings : BankSettings} {db : Db SqlFloat} {rig : Rig} {ts : Nat}
    (hAlone : NoOtherMonitor db rig ts) {v i soc : ℚ} {remaining : Option ℚ}
    (h : ShuntKeys (rig.monitor.dict rig.label rig.slaveId) (some v) (some i) remaining none
      (some soc)) (hName : rig.monitor.remainingName = "remaining_ah") :
    WritesFaithfulRow settings db rig ts ↔
      ∀ x, reportedFloat rig.dict rig.monitor.capacityName = some x → .finite 0 = x := by
  obtain ⟨s, r, c, -, hDouble, -, hCapacity, -, hWrites⟩ := writes_shunt_iff hAlone h hName
  obtain rfl : c = none := Option.map_eq_none_iff.mp hCapacity.symm
  obtain ⟨hCharge, hSoc⟩ := shown_of_noCapacity hDouble Option.getD_none
  rw [hWrites, hCharge, hSoc, Option.getD_none]
  refine and_iff_right rfl |>.trans (and_iff_right ?_)
  rintro q rfl
  rfl

/-- Of a shunt with a capacity the row has it. -/
theorem writes_capacity_iff {settings : BankSettings} {db : Db SqlFloat} {rig : Rig} {ts : Nat}
    (hAlone : NoOtherMonitor db rig ts) {v i remaining soc : ℚ} {capacity : Option ℚ}
    (h : ShuntKeys (rig.monitor.dict rig.label rig.slaveId) (some v) (some i) (some remaining)
      capacity (some soc)) (hName : rig.monitor.remainingName = "remaining_ah")
    (hCapacityName : rig.monitor.capacityName = "bank_capacity_ah") :
    ∃ (s r : ℚ) (c : Option ℚ),
      rig.monitor.double "soc_pct" soc = .finite s ∧ PyFloat.ofRat s = .finite s ∧
      rig.monitor.double "remaining_ah" remaining = .finite r ∧
      capacity.map (rig.monitor.double "bank_capacity_ah") = c.map .finite ∧
      PyFloat.ofRat (c.getD 0) = .finite (c.getD 0) ∧
      (WritesFaithfulRow settings db rig ts ↔
        shownSoc (some r) c s = .finite s ∧ shownRemaining (some r) c s = .finite r) := by
  obtain ⟨s, r, c, hS, hDouble, hR, hC, hShows, hWrites⟩ := writes_shunt_iff hAlone h hName
  obtain ⟨r, rfl, hRemaining⟩ := Option.map_eq_some_iff.mp hR.symm
  refine ⟨s, r, c, hS, hDouble, hRemaining.symm, hC, hShows.double, ?_⟩
  rw [hWrites, hCapacityName, hShows.reported]
  simp only [Option.some.injEq, forall_eq', and_congr_right_iff, and_iff_left_iff_imp]
  intro _ _ x hx
  obtain ⟨q, rfl, rfl⟩ := Option.map_eq_some_iff.mp hx
  rfl

theorem double_capacity_aili (r : Aili.Reading) (q : ℚ) :
    (Monitor.aili r).double "bank_capacity_ah" q =
      ((PyFloat.ofRat r.frame.remainingAh).div
        ((PyFloat.ofRat r.frame.socPct).div (.finite 100))).round 2 := by
  change (if "bank_capacity_ah" = "bank_capacity_ah" then
    ((PyFloat.ofRat r.frame.remainingAh).div
      ((PyFloat.ofRat r.frame.socPct).div (.finite 100))).round 2 else PyFloat.ofRat q) = _
  exact if_pos rfl

/-- AiLi's capacity is made of the charge, so it is zero with it. -/
theorem aili_capacity_zero {r : Aili.Reading} {s : ℚ} {c : Option ℚ}
    (hSoc : PyFloat.ofRat r.frame.socPct = .finite s) (hDouble : PyFloat.ofRat s = .finite s)
    (hRemaining : PyFloat.ofRat r.frame.remainingAh = .finite 0)
    (hCapacity : (Aili.bankCapacity r.frame).map ((Monitor.aili r).double "bank_capacity_ah") =
      c.map .finite) : c.getD 0 = 0 := by
  obtain ⟨x, hx⟩ := exists_hundredth hDouble
  have hDiv : (PyFloat.finite 0).div (.finite x) = .finite 0 := by
    change PyFloat.ofRat (0 / x) = .finite 0
    rw [zero_div, ofRat_zero]
  have hZero : ∀ {a b : PyFloat}, a = .finite 0 → b = .finite s →
      (a.div (b.div (.finite 100))).round 2 = .finite 0 := by
    rintro _ _ rfl rfl
    rw [hx, hDiv]
    change PyFloat.ofRat (PyDict.round 0 2) = .finite 0
    rw [Snap.round_zero, ofRat_zero]
  cases c with
  | none => rfl
  | some q =>
      obtain ⟨b, _, hb⟩ := Option.map_eq_some_iff.mp hCapacity
      rw [double_capacity_aili, hZero hRemaining hSoc] at hb
      exact (PyFloat.finite.inj hb).symm

/-- What doubles keep is the exact percentage. -/
theorem percent_of_roundsBack {part whole percent : Nat} (hPart : part < 2 ^ 16)
    (hPos : 0 < whole) (hWhole : whole < 2 ^ 16) (hPercent : percent < 2 ^ 16)
    (h : Monitor.RoundsBack part whole percent) : 100 * part = percent * whole := by
  have hSmall : ∀ {n : Nat}, n < 2 ^ 16 → |(n : ℚ)| ≤ 2 ^ 16 := by
    intro n hn
    rw [Nat.abs_cast]
    exact_mod_cast hn.le
  have hWord : ∀ {n : Nat}, n < 2 ^ 16 →
      PyFloat.ofRat (n / 100) = .finite (Binary64.nearest (n / 100)) := by
    intro n hn
    refine PyFloat.ofRat_small ?_
    rw [abs_div, abs_of_pos (by norm_num : (0 : ℚ) < 100)]
    linarith [hSmall hn]
  have hPercentDouble : PyFloat.ofRat percent = .finite percent := by
    have hNearest : Binary64.nearest percent = percent := by
      have hRange : |((percent : Int) : ℚ)| < 2 ^ 53 := by
        rw [Int.cast_natCast]
        linarith [hSmall hPercent]
      exact_mod_cast Binary64.nearest_intCast hRange
    rw [PyFloat.ofRat_small ((hSmall hPercent).trans (by norm_num)), hNearest]
  rw [Monitor.RoundsBack, hWord hPart, hWord hWhole, hPercentDouble] at h
  simp only [PyFloat.div] at h
  cases hShare : PyFloat.ofRat (Binary64.nearest (part / 100) / Binary64.nearest (whole / 100)) with
  | finite x =>
      rw [hShare] at h
      refine Binary64.percent_exact hPart hPos hWhole hPercent ?_
      rw [← (PyFloat.ofRat_eq_finite hShare).2]
      exact (PyFloat.ofRat_eq_finite h).2.symm
  | infinite _ =>
      rw [hShare] at h
      simp [PyFloat.mul] at h
  | nan => exact absurd hShare (PyFloat.ofRat_ne_nan _)

/-- The charge of an AiLi shunt stands, and so does its state of charge. -/
theorem shown_aili {r : Aili.Reading} {s rem : ℚ} {c : Option ℚ}
    (hSoc : PyFloat.ofRat r.frame.socPct = .finite s) (hDouble : PyFloat.ofRat s = .finite s)
    (hRemaining : PyFloat.ofRat r.frame.remainingAh = .finite rem)
    (hCapacity : (Aili.bankCapacity r.frame).map ((Monitor.aili r).double "bank_capacity_ah") =
      c.map .finite) :
    shownSoc (some rem) c s = .finite s ∧ shownRemaining (some rem) c s = .finite rem := by
  by_cases hNoCapacity : c.getD 0 = 0
  · exact (shown_of_noCapacity hDouble hNoCapacity).symm
  · have hRemNe : rem ≠ 0 := by
      rintro rfl
      exact hNoCapacity (aili_capacity_zero hSoc hDouble hRemaining hCapacity)
    have hSocNe : s ≠ 0 := by
      rintro rfl
      have hDecimal : Decimal r.frame.socPct :=
        ⟨10000 * byte r.buf 11, by simp [Aili.Reading.frame, Aili.parseFrame]⟩
      have hZero : r.frame.socPct = 0 := (decimal_double hDecimal hSoc).1.mp rfl
      have hNone : Aili.bankCapacity r.frame = none := by simp [Aili.bankCapacity, hZero]
      rw [hNone] at hCapacity
      cases c with
      | none => exact hNoCapacity rfl
      | some _ => cases hCapacity
    exact (shown_of_ne_zero hRemNe hSocNe).symm

/-- The share of its charge is the state of charge that a JBD pack reports. -/
theorem share_jbd_iff {r : Jbd.Reading} {rem c : ℚ}
    (hRemaining : PyFloat.ofRat (u16 r.basic 4 / 100) = .finite rem)
    (hCapacity : PyFloat.ofRat (u16 r.basic 6 / 100) = .finite c) :
    shareOf (.finite rem) (.finite c) = .ofRat (byte r.basic 19) ↔ (Monitor.jbd r).Agrees := by
  have hDecimal : Decimal ((u16 r.basic 6 : ℚ) / 100) :=
    ⟨100 * u16 r.basic 6, by push_cast; ring⟩
  have hNoCapacity : c = 0 ↔ u16 r.basic 6 = 0 := by
    rw [(decimal_double hDecimal hCapacity).1]
    simp
  rw [Monitor.Agrees, shareOf]
  by_cases hZero : u16 r.basic 6 = 0
  · rw [if_pos hZero, if_pos (congrArg PyFloat.finite (hNoCapacity.mpr hZero))]
    refine (zero_eq_ofRat_iff ⟨10000 * byte r.basic 19, by simp⟩).trans ?_
    exact_mod_cast Iff.rfl
  · rw [if_neg hZero, if_neg fun hEq => hZero (hNoCapacity.mp (PyFloat.finite.inj hEq)),
      ← hRemaining, ← hCapacity]
    exact (and_iff_right_of_imp (percent_of_roundsBack (u16_lt ..) (Nat.pos_of_ne_zero hZero)
      (u16_lt ..) ((byte_lt ..).trans (by decide)))).symm

/-- A monitor that reports no capacity has nothing for the row to miss. -/
theorem no_capacity {rig : Rig}
    (h : (rig.monitor.dict rig.label rig.slaveId).get rig.monitor.capacityName = none) :
    ∀ x, reportedFloat rig.dict rig.monitor.capacityName = some x → .finite 0 = x := by
  intro x hx
  rw [reportedFloat, rig.decoded.missing _ h] at hx
  cases hx

/-- Of every rig with one battery monitor, and every complete reading of it, the
bank row says what the monitor says exactly when the aggregate agrees with the
driver. The figures are compared as the doubles they are. The other devices of the poll
may be anything that can be stored and read; a `nan` of theirs would cost the whole
poll. -/
theorem bank_row_faithful_iff (settings : BankSettings) (db : Db SqlFloat) (rig : Rig) (ts : Nat)
    (hAlone : NoOtherMonitor db rig ts) :
    WritesFaithfulRow settings db rig ts ↔ rig.monitor.Agrees := by
  obtain ⟨label, slaveId, monitor, result, dict, decoded, polled, alone⟩ := rig
  cases monitor with
  | renogyShunt r =>
      obtain ⟨hKeys, hFull⟩ := r.shuntKeys label slaveId
      obtain ⟨full, hShows, hFigure⟩ := decoded.shows (by decide)
        (show _ = (some _ : Option ℚ).map PyVal.num from hFull)
      rw [writes_noCapacity_iff hAlone hKeys rfl]
      dsimp only [Monitor.capacityName]
      rw [hShows.reported, ← hFigure]
      simp only [Option.map_some, Option.some.injEq, forall_eq', Monitor.Agrees]
      exact zero_eq_ofRat_iff (Renogy.decimal_bytesToInt ..)
  | smartShunt r =>
      have hKeys := r.shuntKeys label slaveId
      rw [writes_noCapacity_iff hAlone hKeys rfl]
      exact iff_of_true (no_capacity hKeys.bankCapacity) trivial
  | veDirectShunt r =>
      have hKeys := r.shuntKeys label slaveId
      rw [writes_noCapacity_iff hAlone hKeys rfl]
      exact iff_of_true (no_capacity hKeys.bankCapacity) trivial
  | junctek r =>
      obtain ⟨s, rem, c, hS, hDouble, hRem, hCap, hCapDouble, hWrites⟩ :=
        writes_capacity_iff hAlone (r.shuntKeys label slaveId) rfl rfl
      obtain ⟨c, rfl, hC⟩ := Option.map_eq_some_iff.mp hCap.symm
      rw [Option.getD_some] at hCapDouble
      obtain ⟨hDecRem, hDecCap, hDecSoc⟩ := r.decimals
      obtain ⟨hRemZero, hRemSize⟩ := decimal_double hDecRem hRem
      obtain ⟨hCapZero, hCapSize⟩ := decimal_double hDecCap hC.symm
      obtain ⟨hSocZero, hSocSize⟩ := decimal_double hDecSoc hS
      rw [hWrites, shown_iff hDouble hCapDouble hSocSize hRemSize hCapSize, hRemZero, hCapZero,
        hSocZero]
      rfl
  | aili r =>
      obtain ⟨s, rem, c, hS, hDouble, hRem, hCap, -, hWrites⟩ :=
        writes_capacity_iff hAlone (r.shuntKeys label slaveId) rfl rfl
      rw [hWrites]
      exact iff_of_true (shown_aili hS hDouble hRem hCap) trivial
  | renogyBattery r =>
      obtain ⟨_, _, -, -, hWrites⟩ :=
        writes_battery_iff hAlone (r.batteryKeys label slaveId) rfl rfl
      rw [hWrites]
      simp [Monitor.Agrees]
  | jbd r =>
      obtain ⟨rem, c, hRem, hCap, hWrites⟩ :=
        writes_battery_iff hAlone (r.batteryKeys label slaveId) rfl rfl
      obtain ⟨rem, rfl, hR⟩ := Option.map_eq_some_iff.mp hRem.symm
      obtain ⟨c, rfl, hC⟩ := Option.map_eq_some_iff.mp hCap.symm
      rw [hWrites]
      simp only [Option.some.injEq, forall_eq', Option.getD_some]
      exact share_jbd_iff hR.symm hC.symm
  | daly r =>
      obtain ⟨rem, c, -, hCap, hWrites⟩ :=
        writes_battery_iff hAlone (r.batteryKeys label slaveId) rfl rfl
      obtain rfl : c = none := Option.map_eq_none_iff.mp hCap.symm
      rw [hWrites, Option.getD_none, shareOf, if_pos rfl]
      simp only [Option.some.injEq, forall_eq', Monitor.Agrees]
      refine (zero_eq_ofRat_iff ⟨1000 * u16 r.frame90 6, by push_cast; ring⟩).trans ?_
      simp
  | jk r =>
      obtain ⟨hKind, remaining, hRemaining⟩ := r.keys label slaveId
      simp only [Monitor.Agrees, iff_false]
      exact not_writes_of_bms hAlone hKind hRemaining

section Single

/-- The dictionary of a driver with every number as a float. -/
def doubles (d : PollDict) : FloatDict :=
  d.map fun v =>
    match v with
    | .none => .none
    | .bool b => .bool b
    | .num q => .float (.ofRat q)
    | .text s => .text (.utf8 s)
    | .list items => .list items

/-- When every number is in the range, it is what Python has. -/
theorem decoded_doubles {monitor : Monitor} {d : PollDict} (hPlain : ∀ key q,
      monitor.double key q = .ofRat q)
    (hRange : ∀ e ∈ d.entries, ∀ q, e.2 = .num q →
      ∃ x, PyFloat.ofRat q = .finite x ∧ PyFloat.ofRat x = .finite x) :
    Decoded monitor d (doubles d) := by
  have hNum : ∀ k q, d.get k = some (.num q) → (doubles d).get k = some (.float (.ofRat q)) := by
    intro k q hGet
    rw [doubles, Dict.get_map, hGet, Option.map_some]
  have hDouble : ∀ k q, d.get k = some (.num q) →
      ∃ x, PyFloat.ofRat q = .finite x ∧ PyFloat.ofRat x = .finite x := fun k q hGet =>
    hRange _ (Dict.mem_iff_get.mpr hGet) q rfl
  constructor
  case missing =>
    intro k hGet
    rw [doubles, Dict.get_map, hGet, Option.map_none]
  case texts =>
    intro k s hGet
    rw [doubles, Dict.get_map, hGet, Option.map_some]
  case numbers =>
    intro k q hGet
    rw [hNum k q hGet]
    rfl
  case figures =>
    intro k _ q hGet
    rw [hNum k q hGet, hPlain]
    rfl
  case storable =>
    intro k v hv
    rw [doubles, Dict.get_map, Option.map_eq_some_iff] at hv
    obtain ⟨w, hGet, rfl⟩ := hv
    cases w with
    | num q => exact PyFloat.ofRat_ne_nan q
    | text s => exact PyStr.noConfusion
    | _ => trivial
  case doubles =>
    intro k x hNumber hx
    cases hGet : d.get k with
    | none =>
        rw [doubles, Dict.get_map, hGet] at hNumber
        cases hNumber
    | some w =>
        rw [doubles, Dict.get_map, hGet, Option.map_some] at hNumber hx
        cases w with
        | num q =>
            obtain ⟨y, hy, hyDouble⟩ := hDouble k q hGet
            obtain rfl : PyFloat.ofRat q = x := Option.some.inj hx
            exact ⟨y, hy, hyDouble⟩
        | bool b =>
            obtain rfl : PyFloat.finite (if b then 1 else 0) = x := Option.some.inj hx
            exact ⟨_, rfl, by cases b <;> decide +kernel⟩
        | _ => cases hNumber

/-- A rig of nothing but a monitor. -/
def Rig.single (label : String) (monitor : Monitor)
    (decoded : Decoded monitor (monitor.dict label 0) (doubles (monitor.dict label 0))) : Rig where
  label := label
  slaveId := 0
  monitor := monitor
  result := ⟨Dict.ofList [(label, doubles (monitor.dict label 0))], 1, 0, none⟩
  dict := doubles (monitor.dict label 0)
  decoded := decoded
  polled := by simp [Dict.ofList, Dict.setAll]
  alone := by
    intro e he hLabel
    obtain rfl : e = (label, doubles (monitor.dict label 0)) := List.mem_singleton.mp he
    exact absurd rfl hLabel

theorem noOtherMonitor_empty (rig : Rig) (ts : Nat) : NoOtherMonitor Db.empty rig ts := by
  intro e he
  cases he

/-- The numbers of a dictionary that are no doubles. -/
def outOfRange (d : PollDict) : List ℚ :=
  d.entries.filterMap fun e =>
    match e.2 with
    | .num q =>
        match PyFloat.ofRat q with
        | .finite x => if PyFloat.ofRat x = .finite x then none else some q
        | _ => some q
    | _ => none

theorem range_of_outOfRange {d : PollDict} (h : outOfRange d = []) :
    ∀ e ∈ d.entries, ∀ q, e.2 = .num q →
      ∃ x, PyFloat.ofRat q = .finite x ∧ PyFloat.ofRat x = .finite x := by
  intro e he q hq
  have hNone := List.filterMap_eq_nil_iff.mp h e he
  rw [hq] at hNone
  dsimp only at hNone
  split at hNone
  · next x hx =>
      split_ifs at hNone with hDouble
      exact ⟨x, hx, hDouble⟩
  · cases hNone

/-- A JBD pack at 80 % with 80 of 100 Ah. -/
def evenJbd : Jbd.Reading where
  basic := [0x05, 0x28, 0, 0, 0x1f, 0x40, 0x27, 0x10, 0, 0, 0, 0, 0, 0, 0, 0, 0, 0, 0, 80, 3, 4, 0]
  cells := []
  age := some 1
  complete := by decide

-- With 29 of 100 Ah at 29 % the share is 28.999999999999996.
example : ¬ (Monitor.jbd
    ⟨[0x05, 0x28, 0, 0, 0x0b, 0x54, 0x27, 0x10, 0, 0, 0, 0, 0, 0, 0, 0, 0, 0, 0, 29, 3, 4, 0],
      [], none, by decide⟩).Agrees := by
  unfold Monitor.Agrees
  decide +kernel

theorem decoded_evenJbd : Decoded (.jbd evenJbd) ((Monitor.jbd evenJbd).dict "jbd" 0)
    (doubles ((Monitor.jbd evenJbd).dict "jbd" 0)) :=
  decoded_doubles (fun _ _ => rfl) (range_of_outOfRange (by decide +kernel))

theorem bank_row_faithful_jbd :
    NoOtherMonitor Db.empty (Rig.single "jbd" _ decoded_evenJbd) 0 ∧
      WritesFaithfulRow .default Db.empty (Rig.single "jbd" _ decoded_evenJbd) 0 := by
  have hAlone := noOtherMonitor_empty (Rig.single "jbd" _ decoded_evenJbd) 0
  have hAgrees : (Monitor.jbd evenJbd).Agrees := by
    unfold Monitor.Agrees
    decide +kernel
  exact ⟨hAlone, (bank_row_faithful_iff .default Db.empty _ 0 hAlone).mpr hAgrees⟩

/-- A JK frame of eight cells at 26.4 V and 80 %, with 80 of 100 Ah. -/
def jkReading : Jk.Reading where
  frame := [0x55, 0xaa, 0xeb, 0x90, 0x02, 0x01] ++ (List.replicate 8 [0xe4, 0x0c]).flatten ++
    List.replicate 32 0 ++ [0xff, 0, 0, 0, 0xe4, 0x0c] ++ List.replicate 58 0 ++
    [0x20, 0x67, 0, 0] ++ List.replicate 19 0 ++
    [80, 0x80, 0x38, 0x01, 0, 0xa0, 0x86, 0x01, 0, 10, 0, 0, 0, 0x40, 0x42, 0x0f, 0] ++
    List.replicate 42 0
  frameAgeS := some 1
  complete := by decide +kernel

theorem decoded_jk : Decoded (.jk jkReading) ((Monitor.jk jkReading).dict "jk" 0)
    (doubles ((Monitor.jk jkReading).dict "jk" 0)) :=
  decoded_doubles (fun _ _ => rfl) (range_of_outOfRange (by decide +kernel))

/-- The driver decodes it, and no bank is written at all. -/
theorem jk_bank_row_not_faithful :
    reportedFloat (Rig.single "jk" _ decoded_jk).dict "voltage_v" = some (.ofRat (264 / 10)) ∧
      reportedFloat (Rig.single "jk" _ decoded_jk).dict "soc_pct" = some (.finite 80) ∧
      reportedFloat (Rig.single "jk" _ decoded_jk).dict "remaining_charge_ah" =
        some (.finite 80) ∧
      reportedFloat (Rig.single "jk" _ decoded_jk).dict "capacity_ah" = some (.finite 100) ∧
      ¬ WritesFaithfulRow .default Db.empty (Rig.single "jk" _ decoded_jk) 0 := by
  refine ⟨by decide +kernel, by decide +kernel, by decide +kernel, by decide +kernel, ?_⟩
  rintro ⟨bank, hBank, _⟩
  have hNone : floatBankOf .default Db.empty (Rig.single "jk" _ decoded_jk).result.devices 0 =
      some none := by
    decide +kernel
  rw [hNone] at hBank
  cases hBank

end Single

end WattPost.Storage
