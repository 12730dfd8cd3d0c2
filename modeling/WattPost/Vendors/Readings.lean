import WattPost.Vendors.Renogy
import WattPost.Vendors.Victron
import WattPost.Vendors.Shunts

/-! Complete readings of the battery devices, and what their drivers put under the
names that the bank aggregate reads. -/
namespace WattPost.Vendors

open PyDict

/-- What a result says as a smart battery. -/
structure BatteryKeys (d : PollDict) (voltage current remaining capacity soc : Option ℚ) : Prop where
  kind : d.get "_kind" = some (.text "smart_battery")
  voltage : d.get "voltage_v" = voltage.map .num
  current : d.get "current_a" = current.map .num
  remaining : d.get "remaining_charge_ah" = remaining.map .num
  capacity : d.get "capacity_ah" = capacity.map .num
  soc : d.get "soc_pct" = soc.map .num
  cellCount : PyVal.Numeric (d.get "cell_count")

/-- What a result says as a shunt. -/
structure ShuntKeys (d : PollDict) (voltage current remaining capacity soc : Option ℚ) : Prop where
  kind : d.get "_kind" = some (.text "shunt")
  voltage : d.get "voltage_v" = voltage.map .num
  current : d.get "current_a" = current.map .num
  remaining : d.get "remaining_ah" = remaining.map .num
  bankCapacity : d.get "bank_capacity_ah" = capacity.map .num
  capacity : d.get "capacity_ah" = none
  soc : d.get "soc_pct" = soc.map .num
  power : PyVal.Numeric (d.get "power_w")

/-- A number with four decimals at most, as the drivers decode them. -/
def Decimal (q : ℚ) : Prop := ∃ n : Int, q = n / 10000

theorem byte_lt (b : Bytes) (off : Nat) : byte b off < 2 ^ 8 := (b.getD off 0).toNat_lt

theorem u16_lt (b : Bytes) (off : Nat) : u16 b off < 2 ^ 16 := by
  have hHigh := byte_lt b off
  have hLow := byte_lt b (off + 1)
  rw [u16]
  omega

@[simp] theorem get_stampAge (d : PollDict) (age : Option ℚ) (k : String) :
    (stampAge d age).get k =
      if k = "advertisement_age_s" then (age.map .num).or (d.get k) else d.get k :=
  Dict.get_setSome ..

/-- The cell voltages leave the other keys alone. -/
theorem get_cellEntries {volts : List ℚ} {d : PollDict} {k : String}
    (hk : PyText.startsWith k "cell_voltage_" = false) :
    (d.setAll (cellEntries volts)).get k = d.get k :=
  Dict.get_setAll_of_startsWith (startsWith_cellEntries volts) hk d

/-- The cells only set the cell voltages and a missing cell count. -/
theorem get_setCells {volts : List ℚ} {d : PollDict} {k : String}
    (hk : PyText.startsWith k "cell_voltage_" = false) (hCount : k ≠ "cell_count") :
    (setCells volts d).get k = d.get k := by
  unfold setCells
  dsimp only
  split
  · exact get_cellEntries hk
  · rw [Dict.get_setDefault_of_ne hCount, get_cellEntries hk]

theorem numeric_cellCount_setCells {volts : List ℚ} {d : PollDict}
    (h : PyVal.Numeric (d.get "cell_count")) :
    PyVal.Numeric ((setCells volts d).get "cell_count") := by
  have hCells : (d.setAll (cellEntries volts)).get "cell_count" = d.get "cell_count" :=
    get_cellEntries (by decide)
  unfold setCells
  dsimp only
  split
  · rwa [hCells]
  · rw [Dict.get_setDefault_self, hCells]
    exact h.or (Or.inr ⟨_, rfl⟩)

/-! ### JBD -/

namespace Jbd

/-- A whole basic frame and the cell frame. -/
structure Reading where
  basic : Bytes
  cells : Bytes
  age : Option ℚ
  complete : 23 ≤ basic.length

def Reading.dict (r : Reading) (label : String) (slaveId : Int) : PollDict :=
  poll label slaveId (some ⟨some r.basic, some r.cells, r.age⟩)

theorem startsWith_temperatures (p : Bytes) :
    ∀ e ∈ temperatures p, PyText.startsWith e.1 "temperature_" = true := by
  intro e he
  obtain ⟨i, _, rfl⟩ := List.mem_map.mp he
  exact startsWith_temperatureKey i

theorem get_temperatures {p : Bytes} {d : PollDict} {k : String}
    (hk : PyText.startsWith k "temperature_" = false) :
    (d.setAll (temperatures p)).get k = d.get k :=
  Dict.get_setAll_of_startsWith (startsWith_temperatures p) hk d

/-- JBD reports everything, the state of charge as a byte of its own. -/
theorem Reading.batteryKeys (r : Reading) (label : String) (slaveId : Int) :
    BatteryKeys (r.dict label slaveId) (some (u16 r.basic 0 / 100))
      (some (-(i16 r.basic 2 / 100))) (some (u16 r.basic 4 / 100)) (some (u16 r.basic 6 / 100))
      (some (byte r.basic 19)) := by
  have hDict : r.dict label slaveId = setCells (cellVolts r.cells) (parseBasic r.basic
      (stampAge (header "jbd" "smart_battery" label slaveId) r.age)) := by
    simp [Reading.dict, poll, parseCells, r.complete]
  rw [hDict]
  constructor
  case cellCount =>
    apply numeric_cellCount_setCells
    simp (disch := decide) [parseBasic, get_temperatures, PyVal.Numeric]
  all_goals
    rw [get_setCells (by decide) (by decide)]
    simp (disch := decide) [parseBasic, get_temperatures]

end Jbd

/-! ### Daly -/

namespace Daly

/-- A payload of each command, as long as the protocol makes it. -/
structure Reading where
  frame90 : Bytes
  frame91 : Bytes
  frame92 : Bytes
  frame93 : Bytes
  frame94 : Bytes
  frame96 : Bytes
  cellVoltagesMv : List Nat
  age : Option ℚ
  complete : 8 ≤ frame90.length ∧ 8 ≤ frame91.length ∧ 8 ≤ frame92.length ∧
    8 ≤ frame93.length ∧ 8 ≤ frame94.length ∧ 8 ≤ frame96.length

def Reading.dict (r : Reading) (label : String) (slaveId : Int) : PollDict :=
  poll label slaveId (some
    { frame90 := some r.frame90
      frame91 := some r.frame91
      frame92 := some r.frame92
      frame93 := some r.frame93
      frame94 := some r.frame94
      frame96 := some r.frame96
      cellVoltagesMv := r.cellVoltagesMv
      age := r.age })

theorem startsWith_sensorKey (d : PollDict) (i : Nat) :
    PyText.startsWith (sensorKey d i) "temperature_" = true := by
  unfold sensorKey
  split
  · decide
  · exact PyText.startsWith_append _ _

theorem get_parse96 {f : Bytes} {d : PollDict} {k : String}
    (hk : PyText.startsWith k "temperature_" = false) : (parse96 f d).get k = d.get k := by
  unfold parse96
  generalize List.range (min 7 f.length) = sensors
  induction sensors generalizing d with
  | nil => rfl
  | cons i sensors ih =>
      rw [List.foldl_cons, ih]
      split
      · rfl
      · have hNe : k ≠ sensorKey d i := by
          intro hEq
          rw [hEq, startsWith_sensorKey] at hk
          cases hk
        rw [Dict.get_set, if_neg hNe]

theorem longEnough_some {n : Nat} {f : Bytes} (h : n ≤ f.length) :
    longEnough n (some f) = some f := by
  simp [longEnough, h]

/-- The remaining charge is only reported when it is not zero. -/
def Reading.remaining (r : Reading) : Option ℚ :=
  if 0 < u32 r.frame93 4 then some (u32 r.frame93 4 / 1000) else none

/-- Daly reports a state of charge and a charge, but no capacity. -/
theorem Reading.batteryKeys (r : Reading) (label : String) (slaveId : Int) :
    BatteryKeys (r.dict label slaveId) (some (u16 r.frame90 0 / 10))
      (some (((u16 r.frame90 4 : ℚ) - 30000) / 10)) r.remaining none
      (some (u16 r.frame90 6 / 10)) := by
  have hDict : r.dict label slaveId =
      setCells (r.cellVoltagesMv.map fun (mv : Nat) => (mv : ℚ) / 1000) (parse96 r.frame96
        (parse94 r.frame94 (parse93 r.frame93 (parse92 r.frame92 (parse91 r.frame91 (parse90
          r.frame90 (stampAge (header "daly" "smart_battery" label slaveId) r.age))))))) := by
    obtain ⟨h90, h91, h92, h93, h94, _⟩ := r.complete
    have h91' : 6 ≤ r.frame91.length := by omega
    have h92' : 4 ≤ r.frame92.length := by omega
    have h94' : 7 ≤ r.frame94.length := by omega
    simp only [Reading.dict, poll, longEnough_some h90, longEnough_some h91',
      longEnough_some h92', longEnough_some h93, longEnough_some h94', apply]
  rw [hDict]
  constructor
  case cellCount =>
    apply numeric_cellCount_setCells
    simp (disch := decide) [get_parse96, parse94, PyVal.Numeric]
  case remaining =>
    rw [get_setCells (by decide) (by decide), get_parse96 (by decide)]
    by_cases hMah : 0 < u32 r.frame93 4 <;>
      simp [parse94, parse93, parse92, parse91, parse90, Reading.remaining, hMah]
  all_goals
    rw [get_setCells (by decide) (by decide), get_parse96 (by decide)]
    simp [parse94, parse93, parse92, parse91, parse90]

end Daly

/-! ### Renogy -/

namespace Renogy

theorem decimal_bytesToInt (bs : Bytes) (offset length : Nat) (signed : Bool) (scale : ℚ) :
    Decimal (bytesToInt bs offset length signed scale) := by
  unfold bytesToInt
  split
  · exact ⟨0, by norm_num⟩
  · exact ⟨roundHalfEven (fromBytes ((bs.drop offset).take length) signed * scale * 10 ^ 4), by
      rw [PyDict.round]
      norm_num⟩

theorem get_parseDeviceInfo {bs : Bytes} {k : String} (hk : k ≠ "model") :
    (parseDeviceInfo bs).get k = none := by
  simp [parseDeviceInfo, Dict.ofList, Dict.setAll, hk]

namespace SmartBattery

/-- An answer to each of the seven requests. -/
structure Reading where
  cellVoltages : Bytes
  cellTemperatures : Bytes
  batteryInfo : Bytes
  firmware : Bytes
  serial : Bytes
  deviceInfo : Bytes
  deviceAddress : Bytes

def Reading.dict (r : Reading) (label : String) (slaveId : Int) : PollDict :=
  poll label slaveId
    { cellVoltages := .response r.cellVoltages
      cellTemperatures := .response r.cellTemperatures
      batteryInfo := .response r.batteryInfo
      firmware := .response r.firmware
      serial := .response r.serial
      deviceInfo := .response r.deviceInfo
      deviceAddress := .response r.deviceAddress }

theorem get_parseCellVoltages {bs : Bytes} {k : String}
    (hk : PyText.startsWith k "cell_voltage_" = false) :
    (parseCellVoltages bs).get k =
      if k = "cell_count" then some (.num (truncate (bytesToInt bs 3 2 false 1))) else none := by
  rw [parseCellVoltages, get_cellEntries hk]
  simp [Dict.ofList, Dict.setAll]

theorem get_parseCellTemperaturesC {bs : Bytes} {k : String}
    (hk : PyText.startsWith k "temperature_" = false) :
    (parseCellTemperaturesC bs).get k = none := by
  have hNe : k ≠ "temperature_sensor_count" := by
    rintro rfl
    exact absurd hk (by decide)
  unfold parseCellTemperaturesC
  dsimp only
  rw [Dict.get_setAll_of_startsWith _ hk]
  · simp [Dict.ofList, Dict.setAll, hNe]
  · intro e he
    obtain ⟨i, _, rfl⟩ := List.mem_map.mp he
    exact PyText.startsWith_append _ _

theorem get_parseFirmware {bs : Bytes} {k : String} (hRaw : k ≠ "firmware_version_raw")
    (hDotted : k ≠ "firmware_version") : (parseFirmware bs).get k = none := by
  unfold parseFirmware
  split
  · rfl
  · simp [Dict.ofList, Dict.setAll, hRaw, hDotted]

theorem get_parseSerial {bs : Bytes} {k : String} (hk : k ≠ "serial") :
    (parseSerial bs).get k = none := by
  unfold parseSerial
  split
  · rfl
  · simp [Dict.ofList, Dict.setAll, hk]

/-- The Renogy battery reports charge and capacity, but no state of charge. -/
theorem Reading.batteryKeys (r : Reading) (label : String) (slaveId : Int) :
    BatteryKeys (r.dict label slaveId) (some (bytesToInt r.batteryInfo 5 2 false (1 / 10)))
      (some (bytesToInt r.batteryInfo 3 2 true (1 / 100)))
      (some (bytesToInt r.batteryInfo 7 4 false (1 / 1000)))
      (some (bytesToInt r.batteryInfo 11 4 false (1 / 1000))) none := by
  have hGet : ∀ k, (r.dict label slaveId).get k =
      ((parseDeviceAddress r.deviceAddress).get k).or (((parseDeviceInfo r.deviceInfo).get k).or
        (((parseSerial r.serial).get k).or (((parseFirmware r.firmware).get k).or
          (((parseBatteryInfo r.batteryInfo).get k).or
            (((parseCellTemperaturesC r.cellTemperatures).get k).or
              (((parseCellVoltages r.cellVoltages).get k).or
                ((header "renogy" "smart_battery" label slaveId).get k))))))) := by
    intro k
    simp only [Reading.dict, poll, Vendors.poll, sections, List.foldl_cons, List.foldl_nil,
      pollSection, Dict.get_update]
  constructor <;> rw [hGet]
  case cellCount =>
    simp (disch := decide) [get_parseDeviceInfo, get_parseSerial, get_parseFirmware,
      get_parseCellTemperaturesC, get_parseCellVoltages, parseDeviceAddress, parseBatteryInfo,
      Dict.ofList, Dict.setAll, PyVal.Numeric]
  all_goals
    simp (disch := decide) [get_parseDeviceInfo, get_parseSerial, get_parseFirmware,
      get_parseCellTemperaturesC, get_parseCellVoltages, parseDeviceAddress, parseBatteryInfo,
      Dict.ofList, Dict.setAll]

end SmartBattery

namespace Shunt

/-- An answer to each of the four requests. -/
structure Reading where
  deviceInfo : Bytes
  versions : Bytes
  deviceAddress : Bytes
  liveStats : Bytes

def Reading.dict (r : Reading) (label : String) (slaveId : Int) : PollDict :=
  poll label slaveId
    { deviceInfo := .response r.deviceInfo
      versions := .response r.versions
      deviceAddress := .response r.deviceAddress
      liveStats := .response r.liveStats }

theorem get_parseVersions {bs : Bytes} {k : String} (hFirmware : k ≠ "firmware_version")
    (hHardware : k ≠ "hardware_version") (hSerial : k ≠ "serial") :
    (parseVersions bs).get k = none := by
  unfold parseVersions
  split
  · rfl
  · simp [Dict.ofList, Dict.setAll, hFirmware, hHardware, hSerial]

theorem Reading.get (r : Reading) (label : String) (slaveId : Int) (k : String) :
    (r.dict label slaveId).get k =
      ((parseLiveStats r.liveStats).get k).or (((parseDeviceAddress r.deviceAddress).get k).or
        (((parseVersions r.versions).get k).or (((parseDeviceInfo r.deviceInfo).get k).or
          ((header "renogy" "shunt" label slaveId).get k)))) := by
  simp only [Reading.dict, poll, Vendors.poll, sections, List.foldl_cons, List.foldl_nil,
    pollSection, Dict.get_update]

/-- The Renogy shunt reports its capacity under a name of its own. -/
theorem Reading.shuntKeys (r : Reading) (label : String) (slaveId : Int) :
    ShuntKeys (r.dict label slaveId) (some (bytesToInt r.liveStats 3 2 false (1 / 10)))
        (some (bytesToInt r.liveStats 5 2 true (1 / 100)))
        (some (bytesToInt r.liveStats 11 4 false (1 / 1000))) none
        (some (truncate (bytesToInt r.liveStats 9 2 false 1))) ∧
      (r.dict label slaveId).get "full_capacity_ah" =
        some (.num (bytesToInt r.liveStats 15 4 false (1 / 1000))) := by
  constructor
  · constructor <;> rw [r.get]
    case power =>
      simp (disch := decide) [get_parseDeviceInfo, get_parseVersions, parseDeviceAddress,
        parseLiveStats, Dict.ofList, Dict.setAll, PyVal.Numeric]
      exact em _
    all_goals
      simp (disch := decide) [get_parseDeviceInfo, get_parseVersions, parseDeviceAddress,
        parseLiveStats, Dict.ofList, Dict.setAll]
  · rw [r.get]
    simp [parseLiveStats, Dict.ofList, Dict.setAll]

end Shunt

end Renogy

/-! ### Victron -/

namespace Victron

/-- A fresh payload of the right class. -/
structure Fresh (Payload : Type) (expected : String) where
  payload : Payload
  className : Option String
  age : FrameAge
  latestAgeS : Option ℚ
  rightClass : className = none ∨ className = some expected

def Fresh.transport {Payload : Type} {expected : String} (f : Fresh Payload expected) :
    Transport Payload := ⟨some f.payload, f.className, f.age, f.latestAgeS⟩

theorem get_stampAdvertisementAge {d : PollDict} {age : FrameAge} {k : String}
    (hk : k ≠ "advertisement_age_s") : (stampAdvertisementAge d age).get k = d.get k := by
  cases age <;> simp [stampAdvertisementAge, hk]

/-- The driver of a fresh payload sets its fields and the age. -/
theorem get_pollPayload {Payload : Type} {expected : String} (f : Fresh Payload expected)
    {result : PollDict} {wrongTransport : String} {mismatch : String → String}
    {fields : Payload → PollDict → PollDict} {k : String} (hk : k ≠ "advertisement_age_s") :
    (pollPayload result wrongTransport expected mismatch fields (some f.transport)).get k =
      (fields f.payload (stampAdvertisementAge result f.age)).get k := by
  have hClass : (f.className.filter fun name => name ≠ "" && name ≠ expected) = none := by
    rcases f.rightClass with h | h <;> simp [h]
  simp only [pollPayload, Fresh.transport]
  rw [hClass]
  simp [hk]

namespace SmartLithium

/-- A fresh payload with a voltage. -/
structure Reading where
  fresh : Fresh Payload "SmartLithium"
  voltage : ℚ
  complete : fresh.payload.batteryVoltage = some voltage

def Reading.dict (r : Reading) (label : String) (slaveId : Int) : PollDict :=
  poll label slaveId (some r.fresh.transport)

theorem startsWith_cellFields (cells : List (Option ℚ)) :
    ∀ e ∈ cellFields cells, PyText.startsWith e.1 "cell_voltage_" = true := by
  intro e he
  obtain ⟨v, _, hv⟩ := List.mem_filterMap.mp he
  obtain ⟨volts, _, rfl⟩ := Option.map_eq_some_iff.mp hv
  exact PyText.startsWith_append _ _

theorem get_cellFields {cells : List (Option ℚ)} {d : PollDict} {k : String}
    (hk : PyText.startsWith k "cell_voltage_" = false) :
    (d.setAll (cellFields cells)).get k = d.get k :=
  Dict.get_setAll_of_startsWith (startsWith_cellFields cells) hk d

/-- The Smart Lithium only reports its voltages. -/
theorem Reading.batteryKeys (r : Reading) (label : String) (slaveId : Int) :
    BatteryKeys (r.dict label slaveId) (some r.voltage) none none none none := by
  have hGet : ∀ k, k ≠ "advertisement_age_s" → (r.dict label slaveId).get k =
      (fields r.fresh.payload (stampAdvertisementAge (header "victron" "smart_battery" label slaveId)
        r.fresh.age)).get k := by
    intro k hk
    unfold Reading.dict poll
    exact get_pollPayload r.fresh hk
  constructor <;> rw [hGet _ (by decide)]
  case cellCount =>
    cases hCells : r.fresh.payload.cellVoltages <;>
      simp (disch := decide) [fields, hCells, get_cellFields, get_stampAdvertisementAge,
        PyVal.Numeric]
  all_goals
    cases hCells : r.fresh.payload.cellVoltages <;>
      simp (disch := decide) [fields, hCells, get_cellFields, get_stampAdvertisementAge,
        r.complete]

end SmartLithium

namespace SmartShunt

/-- A fresh payload with voltage, current and state of charge. -/
structure Reading where
  fresh : Fresh Payload "BatteryMonitor"
  voltage : ℚ
  current : ℚ
  soc : ℚ
  complete : fresh.payload.voltage = some voltage ∧ fresh.payload.current = some current ∧
    fresh.payload.soc = some soc

def Reading.dict (r : Reading) (label : String) (slaveId : Int) : PollDict :=
  poll label slaveId (some r.fresh.transport)

/-- The SmartShunt reports no charge and no capacity. -/
theorem Reading.shuntKeys (r : Reading) (label : String) (slaveId : Int) :
    ShuntKeys (r.dict label slaveId) (some r.voltage) (some r.current) none none (some r.soc) := by
  have hGet : ∀ k, k ≠ "advertisement_age_s" → (r.dict label slaveId).get k =
      (fields r.fresh.payload (stampAdvertisementAge (header "victron" "shunt" label slaveId)
        r.fresh.age)).get k := by
    intro k hk
    unfold Reading.dict poll
    exact get_pollPayload r.fresh hk
  obtain ⟨hVoltage, hCurrent, hSoc⟩ := r.complete
  constructor <;> rw [hGet _ (by decide)]
  case power =>
    simp (disch := decide) [fields, get_stampAdvertisementAge, hVoltage, hCurrent, power,
      PyVal.Numeric]
  all_goals
    simp (disch := decide) [fields, get_stampAdvertisementAge, hVoltage, hCurrent, hSoc]

end SmartShunt

namespace VeDirectShunt

/-- A frame with voltage, current and state of charge. -/
structure Reading where
  frame : Dict String
  age : Option ℚ
  milliVolts : Int
  milliAmps : Int
  perMille : Int
  complete : toInt frame "V" = some milliVolts ∧ toInt frame "I" = some milliAmps ∧
    toInt frame "SOC" = some perMille

def Reading.dict (r : Reading) (label : String) (slaveId : Int) : PollDict :=
  poll label slaveId (some ⟨some r.frame, r.age⟩)

theorem Reading.shuntKeys (r : Reading) (label : String) (slaveId : Int) :
    ShuntKeys (r.dict label slaveId) (some (r.milliVolts / 1000)) (some (r.milliAmps / 1000)) none
      none (some (r.perMille / 10)) := by
  obtain ⟨hVolts, hAmps, hSoc⟩ := r.complete
  constructor
  case power =>
    cases hPower : toInt r.frame "P" <;>
      simp [Reading.dict, poll, fields, hVolts, hAmps, hPower, SmartShunt.power, PyVal.Numeric]
  all_goals simp [Reading.dict, poll, fields, hVolts, hAmps, hSoc]

end VeDirectShunt

end Victron

/-! ### Junctek -/

namespace Junctek

theorem parseFields_decimal (cmd : String) (nums : List Int) :
    ∀ e ∈ parseFields cmd nums, ∃ q, e.2 = .num q ∧ Decimal q := by
  have hWhole : ∀ n : Int, Decimal n := fun n => ⟨10000 * n, by push_cast; ring⟩
  have hHundredth : ∀ n : Int, Decimal (n / 100) := fun n => ⟨100 * n, by push_cast; ring⟩
  have hThousandth : ∀ n : Int, Decimal (n / 1000) := fun n => ⟨10 * n, by push_cast; ring⟩
  unfold parseFields
  dsimp only
  split
  · have hCurrent : ∀ m n : Int, Decimal (if m = 0 then (n : ℚ) / 100 else -((n : ℚ) / 100)) := by
      intro m n
      split_ifs
      · exact hHundredth n
      · exact ⟨-(100 * n), by push_cast; ring⟩
    simp [hWhole, hHundredth, hThousandth, hCurrent]
  · split
    · have hTemperature : ∀ n : Int, Decimal ((n : ℚ) - 100) := fun n =>
        ⟨10000 * (n - 100), by push_cast; ring⟩
      simp [hThousandth, hTemperature]
    · split
      · split <;> simp [hWhole]
      · simp

/-- Setting decimals keeps every entry a decimal. -/
theorem decimal_setAll {xs : List (String × PyVal)}
    (hNum : ∀ e ∈ xs, ∃ q, e.2 = .num q ∧ Decimal q) {d : PollDict}
    (h : ∀ k v, d.get k = some v → ∃ q, v = .num q ∧ Decimal q) :
    ∀ k v, (d.setAll xs).get k = some v → ∃ q, v = .num q ∧ Decimal q := by
  induction xs generalizing d with
  | nil => exact h
  | cons e xs ih =>
      refine ih (fun e' he' => hNum e' (List.mem_cons_of_mem _ he')) (d := d.set e.1 e.2) ?_
      intro k v hv
      rw [Dict.get_set] at hv
      split at hv
      · cases hv
        exact hNum e (List.mem_cons_self ..)
      · exact h k v hv

/-- Everything the transport holds is a decimal. -/
theorem decimal_latest (lines : List String) :
    ∀ k v, (latest lines).get k = some v → ∃ q, v = .num q ∧ Decimal q := by
  have hLine : ∀ line, ∀ e ∈ (parseResponse line).getD [], ∃ q, e.2 = .num q ∧ Decimal q := by
    intro line e he
    unfold parseResponse at he
    cases hSplit : splitResponse line with
    | none => simp [hSplit] at he
    | some r =>
        rw [hSplit, Option.bind_some] at he
        dsimp only at he
        split at he
        · simp at he
        · exact parseFields_decimal r.1 r.2 e he
  have hAll : ∀ d : PollDict, (∀ k v, d.get k = some v → ∃ q, v = .num q ∧ Decimal q) →
      ∀ k v, (lines.foldl (fun f line => f.setAll ((parseResponse line).getD [])) d).get k =
        some v → ∃ q, v = .num q ∧ Decimal q := by
    induction lines with
    | nil => exact fun d hd => hd
    | cons line lines ih =>
        intro d hd
        rw [List.foldl_cons]
        apply ih
        exact decimal_setAll (hLine line) hd
  refine hAll Dict.empty fun k v hv => ?_
  cases hv

theorem numeric_latest (lines : List String) (k : String) :
    PyVal.Numeric ((latest lines).get k) := by
  cases hGet : (latest lines).get k with
  | none => exact Or.inl rfl
  | some v =>
      obtain ⟨q, rfl, _⟩ := decimal_latest lines k v hGet
      exact Or.inr ⟨q, rfl⟩

/-- Lines that told voltage, current, charge, capacity and state of charge. -/
structure Reading where
  lines : List String
  age : Option ℚ
  voltage : ℚ
  current : ℚ
  remaining : ℚ
  capacity : ℚ
  soc : ℚ
  complete : (latest lines).get "voltage_v" = some (.num voltage) ∧
    (latest lines).get "current_a" = some (.num current) ∧
    (latest lines).get "remaining_ah" = some (.num remaining) ∧
    (latest lines).get "bank_capacity_ah" = some (.num capacity) ∧
    (latest lines).get "soc_pct" = some (.num soc)

def Reading.dict (r : Reading) (label : String) (slaveId : Int) : PollDict :=
  poll label slaveId (some ⟨some (latest r.lines), r.age⟩)

/-- Its charge, its capacity and its state of charge are decimals. -/
theorem Reading.decimals (r : Reading) :
    Decimal r.remaining ∧ Decimal r.capacity ∧ Decimal r.soc := by
  have hDecimal : ∀ {k q}, (latest r.lines).get k = some (.num q) → Decimal q := by
    intro k q hGet
    obtain ⟨q', hEq, hq'⟩ := decimal_latest r.lines k _ hGet
    cases hEq
    exact hq'
  obtain ⟨-, -, hRemaining, hCapacity, hSoc⟩ := r.complete
  exact ⟨hDecimal hRemaining, hDecimal hCapacity, hDecimal hSoc⟩

theorem numeric_power {f : PollDict} (h : PyVal.Numeric (f.get "power_w")) :
    PyVal.Numeric (power f) := by
  unfold power
  split
  case h_1 p hp => exact hp ▸ h
  case h_2 =>
    split
    · exact Or.inr ⟨_, rfl⟩
    · exact Or.inl rfl

theorem Reading.shuntKeys (r : Reading) (label : String) (slaveId : Int) :
    ShuntKeys (r.dict label slaveId) (some r.voltage) (some r.current) (some r.remaining)
      (some r.capacity) (some r.soc) := by
  obtain ⟨hVoltage, hCurrent, hRemaining, hCapacity, hSoc⟩ := r.complete
  constructor
  case power =>
    have hPower := numeric_power (numeric_latest r.lines "power_w")
    simpa [Reading.dict, poll, fields, passed] using hPower
  all_goals
    simp [Reading.dict, poll, fields, passed, hVoltage, hCurrent, hRemaining, hCapacity, hSoc]

end Junctek

/-! ### AiLi -/

namespace Aili

/-- A frame with a valid checksum. -/
structure Reading where
  buf : Bytes
  age : Option ℚ
  complete : verifyFrame buf = true

def Reading.frame (r : Reading) : Frame := parseFrame r.buf

def Reading.dict (r : Reading) (label : String) (slaveId : Int) : PollDict :=
  poll label slaveId (some ⟨some r.frame, r.age⟩)

theorem Reading.shuntKeys (r : Reading) (label : String) (slaveId : Int) :
    ShuntKeys (r.dict label slaveId) (some r.frame.voltageV) (some r.frame.currentA)
      (some r.frame.remainingAh) (bankCapacity r.frame) (some r.frame.socPct) := by
  constructor
  case power => simp [Reading.dict, poll, fields, PyVal.Numeric]
  all_goals simp [Reading.dict, poll, fields]

end Aili

/-! ### JK -/

namespace Jk

/-- A frame that holds every field. -/
structure Reading where
  frame : Bytes
  frameAgeS : Option ℚ
  complete : 158 ≤ frame.length

def Reading.dict (r : Reading) (label : String) (slaveId : Int) : PollDict :=
  poll label slaveId (some ⟨some r.frame, r.frameAgeS⟩)

theorem u16le_of_le (data : Bytes) (off : Nat) (h : off + 2 ≤ data.length) :
    ∃ v, u16le data off = some v := ⟨_, if_pos h⟩

theorem s16le_of_le (data : Bytes) (off : Nat) (h : off + 2 ≤ data.length) :
    ∃ v, s16le data off = some v := by
  obtain ⟨v, hv⟩ := u16le_of_le data off h
  exact ⟨if v ≥ 0x8000 then (v : Int) - 0x10000 else v, by simp [s16le, hv]⟩

theorem u32le_of_le (data : Bytes) (off : Nat) (h : off + 4 ≤ data.length) :
    ∃ v, u32le data off = some v := by
  obtain ⟨low, hLow⟩ := u16le_of_le data off (by omega)
  obtain ⟨high, hHigh⟩ := u16le_of_le data (off + 2) (by omega)
  exact ⟨low + high * 65536, by simp [u32le, hLow, hHigh]⟩

/-- The status block of a complete frame has all of its fields. -/
theorem statusFields_of_le {frame : Bytes} {off : Nat} (h : 158 + off ≤ frame.length) :
    ∃ balance action soc remaining capacity cycles total, statusFields frame off =
      [("balancing_current_a", .num balance), ("balancing_action", .text action),
        ("soc_pct", .num soc), ("remaining_charge_ah", .num remaining),
        ("capacity_ah", .num capacity), ("cycle_count", .num cycles),
        ("total_charge_ah", .num total)] := by
  obtain ⟨balance, hBalance⟩ := s16le_of_le frame (138 + off) (by omega)
  obtain ⟨remaining, hRemaining⟩ := u32le_of_le frame (142 + off) (by omega)
  obtain ⟨capacity, hCapacity⟩ := u32le_of_le frame (146 + off) (by omega)
  obtain ⟨cycles, hCycles⟩ := u32le_of_le frame (150 + off) (by omega)
  obtain ⟨total, hTotal⟩ := u32le_of_le frame (154 + off) (by omega)
  have hAction : 140 + off < frame.length := by omega
  have hSoc : 141 + off < frame.length := by omega
  refine ⟨balance / 1000, balancingAction (byte frame (140 + off)), byte frame (141 + off),
    round (remaining / 1000) 3, round (capacity / 1000) 3, cycles, round (total / 1000) 1, ?_⟩
  simp [statusFields, tryFields, field, hBalance, hRemaining, hCapacity, hCycles, hTotal, hAction,
    hSoc]

theorem mem_tryFields {fields : List (Option (String × PyVal))} {e : String × PyVal}
    (h : e ∈ tryFields fields) : some e ∈ fields := by
  unfold tryFields at h
  obtain ⟨o, ho, rfl⟩ := List.mem_filterMap.mp h
  exact (List.takeWhile_prefix _).subset ho

theorem fst_of_field {key : String} {value : Option ℚ} {e : String × PyVal}
    (h : some e = field key value) : e.1 = key := by
  obtain ⟨v, _, rfl⟩ := Option.map_eq_some_iff.mp h.symm
  rfl

/-- No block of the frame sets the kind. -/
theorem kind_notMem_blocks (frame : Bytes) (off : Nat) :
    "_kind" ∉ (packFields frame off).map Prod.fst ∧
      "_kind" ∉ (temperatureFields frame off).map Prod.fst ∧
      ∀ enabled, "_kind" ∉ (cellSummary enabled).map Prod.fst := by
  refine ⟨?_, ?_, ?_⟩
  · unfold packFields
    split <;> simp
  · intro hMem
    obtain ⟨e, he, hKey⟩ := List.mem_map.mp hMem
    have hField := mem_tryFields he
    simp only [List.mem_cons, List.not_mem_nil, or_false] at hField
    rcases hField with h | h | h
    · exact absurd (hKey.symm.trans (fst_of_field h)) (by decide)
    · exact absurd (hKey.symm.trans (fst_of_field h)) (by decide)
    · exact absurd (hKey.symm.trans (congrArg Prod.fst (Option.some.inj h))) (by decide)
  · intro enabled
    unfold cellSummary
    split <;> simp

/-- A complete frame sets no kind, and tells the remaining charge. -/
theorem get_frameDict {frame : Bytes} {is32s : Bool} (h : 158 + trailerOff is32s ≤ frame.length) :
    (frameDict frame is32s).get "_kind" = none ∧
      ∃ remaining, (frameDict frame is32s).get "remaining_charge_ah" = some (.num remaining) := by
  obtain ⟨balance, action, soc, remaining, capacity, cycles, total, hStatus⟩ := statusFields_of_le h
  obtain ⟨hPack, hTemperature, hSummary⟩ := kind_notMem_blocks frame (trailerOff is32s)
  have hNodup : ((statusFields frame (trailerOff is32s)).map Prod.fst).Nodup := by simp [hStatus]
  have hNoKind : "_kind" ∉ (statusFields frame (trailerOff is32s)).map Prod.fst := by
    simp [hStatus]
  have hLookup : (statusFields frame (trailerOff is32s)).lookup "remaining_charge_ah" =
      some (.num remaining) := by
    simp [hStatus, lookup_cons_ite]
  have hCells : ∀ slots : List ℚ, ∀ e ∈ (slots.zipIdx.filter fun v => 1 / 2 < v.1).map fun v =>
      (cellKey v.2, PyVal.num (round v.1 3)), PyText.startsWith e.1 "cell_voltage_" = true := by
    intro slots e he
    obtain ⟨v, _, rfl⟩ := List.mem_map.mp he
    exact PyText.startsWith_append _ _
  constructor
  · simp only [frameDict, Dict.get_set, Dict.get_setSome, Dict.get_setAll_of_notMem hNoKind,
      Dict.get_setAll_of_notMem hTemperature, Dict.get_setAll_of_notMem hPack,
      Dict.get_setAll_of_notMem (hSummary _)]
    rw [Dict.get_setAll_of_startsWith (hCells _) (by decide)]
    simp [Dict.ofList, Dict.setAll]
  · refine ⟨remaining, ?_⟩
    simp [frameDict, Dict.get_setAll hNodup, hLookup]

/-- JK reports a remaining charge, under a kind of its own. -/
theorem Reading.keys (r : Reading) (label : String) (slaveId : Int) :
    (r.dict label slaveId).get "_kind" = some (.text "bms") ∧
      ∃ remaining, (r.dict label slaveId).get "remaining_charge_ah" = some (.num remaining) := by
  have hLong : ¬ r.frame.length < 150 := by
    have hComplete := r.complete
    omega
  have hOff : 158 + trailerOff (260 ≤ r.frame.length) ≤ r.frame.length := by
    have hComplete := r.complete
    simp only [trailerOff, decide_eq_true_eq]
    split <;> omega
  obtain ⟨hKind, remaining, hRemaining⟩ := get_frameDict hOff
  constructor
  · simp [Reading.dict, poll, parseCellInfo, hLong, hKind]
  · exact ⟨remaining, by simp [Reading.dict, poll, parseCellInfo, hLong, hRemaining]⟩

end Jk

end WattPost.Vendors
