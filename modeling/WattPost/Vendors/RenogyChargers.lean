import WattPost.Vendors.Renogy

/-! The Renogy chargers whose settings can be changed: the Rover family and the
DCC50S. Both are polled in register sections. -/
namespace WattPost.Vendors

open PyDict

namespace Renogy

/-- `parse_byte_temperature_c`: bit 7 is the sign. -/
def parseByteTemperatureC (raw : ℚ) : ℚ := if 128 ≤ raw then -(raw - 128) else raw

/-- `TABLE.get(n)`: the name, or `None`. -/
def nameOf (table : List (ℚ × String)) (n : ℚ) : PyVal :=
  match table.lookup n with
  | some name => .text name
  | none => .none

def batteryType : List (ℚ × String) :=
  [(1, "open"), (2, "sealed"), (3, "gel"), (4, "lithium"), (5, "custom")]

/-- `bs[3:19].decode("utf-8", errors="replace").strip()`; the padding stays. -/
def parseModel (bs : Bytes) : PollDict :=
  Dict.ofList [("model", .text (PyText.strip (decodeAscii ((bs.drop 3).take 16))))]

/-- `_parse_battery_type`, the same in both drivers. -/
def parseBatteryType (bs : Bytes) : PollDict :=
  Dict.ofList [("battery_type", nameOf batteryType (truncate (bytesToInt bs 3 2 false 1)))]

/-- The numbers that the parsers build their entries from. -/
def whole (bs : Bytes) (offset length : Nat) : ℚ := truncate (bytesToInt bs offset length false 1)

def tenths (bs : Bytes) (offset : Nat) : ℚ := bytesToInt bs offset 2 false (1 / 10)

def hundredths (bs : Bytes) (offset : Nat) : ℚ := bytesToInt bs offset 2 false (1 / 100)

/-- The setting that both drivers declare for the type of the bank. -/
def batteryTypeSetting : WritableSetting where
  key := "battery_type"
  kind := .enum
  register := 57348
  readFrom := some "battery_type"
  choices :=
    [(1, "Flooded / open lead-acid"), (2, "Sealed lead-acid (AGM)"), (3, "Gel"), (4, "Lithium"),
      (5, "Custom")]

/-- A voltage in tenths of a volt. -/
def voltageSetting (key : String) (register : Nat) (readFrom : String) (min max : ℚ) :
    WritableSetting where
  key := key
  kind := .float
  register := register
  readFrom := some readFrom
  min := some min
  max := some max
  scale := 1 / 10

@[simp] theorem batteryTypeSetting_key : batteryTypeSetting.key = "battery_type" := rfl

@[simp] theorem batteryTypeSetting_register : batteryTypeSetting.register = 57348 := rfl

section VoltageSetting

variable (key : String) (register : Nat) (readFrom : String) (min max : ℚ)

@[simp] theorem voltageSetting_key :
    (voltageSetting key register readFrom min max).key = key := rfl

@[simp] theorem voltageSetting_register :
    (voltageSetting key register readFrom min max).register = register := rfl

@[simp] theorem voltageSetting_choices :
    (voltageSetting key register readFrom min max).choices = [] := rfl

end VoltageSetting

/-! ### Rover -/

namespace Rover

def chargingState : List (ℚ × String) :=
  [(0, "deactivated"), (1, "activated"), (2, "mppt"), (3, "equalizing"), (4, "boost"),
    (5, "floating"), (6, "current_limiting")]

def loadState : List (ℚ × String) := [(0, "off"), (1, "on")]

def parseChargingInfo (bs : Bytes) : PollDict :=
  Dict.ofList
    [("battery_percentage", .num (whole bs 3 2)),
      ("battery_voltage_v", .num (tenths bs 5)),
      ("battery_current_a", .num (hundredths bs 7)),
      ("battery_temperature_c", .num (parseByteTemperatureC (whole bs 10 1))),
      ("controller_temperature_c", .num (parseByteTemperatureC (whole bs 9 1))),
      ("load_status", nameOf loadState (if 128 ≤ whole bs 67 1 then 1 else 0)),
      ("load_voltage_v", .num (tenths bs 11)),
      ("load_current_a", .num (hundredths bs 13)),
      ("load_power_w", .num (whole bs 15 2)),
      ("pv_voltage_v", .num (tenths bs 17)),
      ("pv_current_a", .num (hundredths bs 19)),
      ("pv_power_w", .num (whole bs 21 2)),
      ("max_charging_power_today_w", .num (whole bs 33 2)),
      ("max_discharging_power_today_w", .num (whole bs 35 2)),
      ("charging_ah_today", .num (whole bs 37 2)),
      ("discharging_ah_today", .num (whole bs 39 2)),
      ("energy_today_wh", .num (whole bs 41 2)),
      ("consumption_today_wh", .num (whole bs 43 2)),
      ("energy_total_wh", .num (whole bs 59 4)),
      ("charging_state", nameOf chargingState (whole bs 68 1))]

/-- `_parse_charge_voltages`: the words 0xE007 to 0xE00C. -/
def parseChargeVoltages (bs : Bytes) : PollDict :=
  Dict.ofList
    [("boost_voltage_v", .num (tenths bs 3)),
      ("float_voltage_v", .num (tenths bs 5)),
      ("boost_recovery_v", .num (tenths bs 7)),
      ("equalize_voltage_v", .num (tenths bs 9)),
      ("low_voltage_disconnect_v", .num (tenths bs 11)),
      ("low_voltage_reconnect_v", .num (tenths bs 13))]

def sections : List RegisterSection :=
  [{ register := 12, wordCount := 8, parser := some ∘ parseModel, name := "device_info" },
    { register := 20, wordCount := 6, parser := some ∘ Shunt.parseVersions, name := "versions" },
    { register := 26, wordCount := 1, parser := some ∘ Shunt.parseDeviceAddress,
      name := "device_address" },
    { register := 256, wordCount := 34, parser := some ∘ parseChargingInfo,
      name := "charging_info" },
    { register := 57348, wordCount := 1, parser := some ∘ parseBatteryType,
      name := "battery_type" },
    { register := 0xE007, wordCount := 6, parser := some ∘ parseChargeVoltages,
      name := "charge_voltages" }]

def writableSettings : List WritableSetting :=
  [batteryTypeSetting,
    voltageSetting "boost_voltage" 0xE008 "boost_voltage_v" 12 16,
    voltageSetting "float_voltage" 0xE009 "float_voltage_v" 12 15,
    voltageSetting "low_voltage_disconnect" 0xE00B "low_voltage_disconnect_v" 10 (128 / 10),
    voltageSetting "low_voltage_reconnect" 0xE00C "low_voltage_reconnect_v" (105 / 10)
      (135 / 10)]

end Rover

/-! ### DCC50S -/

namespace Dcc

def chargingState : List (ℚ × String) :=
  [(0, "deactivated"), (1, "activated"), (2, "mppt"), (3, "equalizing"), (4, "boost"),
    (5, "floating"), (6, "current_limiting"), (8, "alternator_direct")]

def parseChargingInfo (bs : Bytes) : PollDict :=
  Dict.ofList
    [("battery_percentage", .num (whole bs 3 2)),
      ("battery_voltage_v", .num (tenths bs 5)),
      ("battery_current_a", .num (hundredths bs 7)),
      ("controller_temperature_c", .num (parseByteTemperatureC (whole bs 9 1))),
      ("battery_temperature_c", .num (parseByteTemperatureC (whole bs 10 1))),
      ("alternator_voltage_v", .num (tenths bs 11)),
      ("alternator_current_a", .num (hundredths bs 13)),
      ("alternator_power_w", .num (whole bs 15 2)),
      ("pv_voltage_v", .num (tenths bs 17)),
      ("pv_current_a", .num (hundredths bs 19)),
      ("pv_power_w", .num (whole bs 21 2)),
      ("battery_min_voltage_today_v", .num (tenths bs 25)),
      ("battery_max_voltage_today_v", .num (tenths bs 27)),
      ("battery_max_current_today_a", .num (hundredths bs 29)),
      ("max_charging_power_today_w", .num (whole bs 33 2)),
      ("charging_ah_today", .num (whole bs 37 2)),
      ("energy_today_wh", .num (whole bs 41 2)),
      ("total_working_days", .num (whole bs 45 2)),
      ("count_battery_overdischarged", .num (whole bs 47 2)),
      ("count_battery_fully_charged", .num (whole bs 49 2)),
      ("battery_ah_total", .num (whole bs 51 4)),
      ("energy_total_wh", .num (whole bs 59 4))]

/-- The alarms in the order in which the first active one is looked for, each
with its byte and bit as `_parse_state` has them. -/
def alarms (byte1 byte2 : Nat) : List (String × Bool) :=
  [("low_temp_shutdown", byte1.testBit 11),
    ("bms_overcharge_protection", byte1.testBit 10),
    ("starter_reverse_polarity", byte1.testBit 9),
    ("alternator_over_voltage", byte1.testBit 8),
    ("alternator_over_current", byte1.testBit 4),
    ("controller_over_temp_2", byte1.testBit 3),
    ("solar_reverse_polarity", byte2.testBit 12),
    ("solar_over_voltage", byte2.testBit 9),
    ("solar_over_current", byte2.testBit 7),
    ("battery_over_temperature", byte2.testBit 6),
    ("controller_over_temp", byte2.testBit 5),
    ("battery_low_voltage", byte2.testBit 2),
    ("battery_over_voltage", byte2.testBit 1),
    ("battery_over_discharge", byte2.testBit 0)]

/-- `_parse_state`: the offsets 2, 4 and 6 are those of the source. -/
def parseState (bs : Bytes) : PollDict :=
  let byte1 := (whole bs 4 1).num.toNat
  let byte2 := (whole bs 6 1).num.toNat
  (Dict.ofList [("charging_state", nameOf chargingState (whole bs 2 1))]).setSome "error"
    (((alarms byte1 byte2).find? Prod.snd).map fun alarm => .text alarm.1)

/-- `_parse_charge_voltages`: the words 0xE008 to 0xE00D. -/
def parseChargeVoltages (bs : Bytes) : PollDict :=
  Dict.ofList
    [("boost_voltage_v", .num (tenths bs 3)),
      ("float_voltage_v", .num (tenths bs 5)),
      ("boost_recovery_voltage_v", .num (tenths bs 7)),
      ("low_voltage_disconnect_v", .num (tenths bs 9)),
      ("low_voltage_reconnect_v", .num (tenths bs 11)),
      ("equalization_voltage_v", .num (tenths bs 13))]

def sections : List RegisterSection :=
  [{ register := 12, wordCount := 8, parser := some ∘ parseModel, name := "device_info" },
    { register := 26, wordCount := 1, parser := some ∘ Shunt.parseDeviceAddress,
      name := "device_address" },
    { register := 256, wordCount := 30, parser := some ∘ parseChargingInfo,
      name := "charging_info" },
    { register := 288, wordCount := 3, parser := some ∘ parseState, name := "state" },
    { register := 57348, wordCount := 1, parser := some ∘ parseBatteryType,
      name := "battery_type" },
    { register := 0xE008, wordCount := 6, parser := some ∘ parseChargeVoltages,
      name := "charge_voltages" }]

def writableSettings : List WritableSetting :=
  [batteryTypeSetting,
    voltageSetting "boost_voltage" 0xE008 "boost_voltage_v" 12 16,
    voltageSetting "float_voltage" 0xE009 "float_voltage_v" 12 15,
    voltageSetting "low_voltage_disconnect" 0xE00B "low_voltage_disconnect_v" 10 (128 / 10),
    voltageSetting "low_voltage_reconnect" 0xE00C "low_voltage_reconnect_v" (105 / 10)
      (135 / 10)]

end Dcc

/-! ### The two drivers -/

/-- The drivers that declare writable settings. -/
inductive Charger where
  | rover
  | dcc
deriving DecidableEq

namespace Charger

def deviceKind : Charger → String
  | rover => "charge_controller"
  | dcc => "dcdc"

def sections : Charger → List RegisterSection
  | rover => Rover.sections
  | dcc => Dcc.sections

def writableSettings : Charger → List WritableSetting
  | rover => Rover.writableSettings
  | dcc => Dcc.writableSettings

/-- `poll` of the driver over a transport. -/
def poll (charger : Charger) (label : String) (slaveId : UInt8) (request : Request) : PollDict :=
  pollSections (header "renogy" charger.deviceKind label slaveId.toNat) request slaveId
    charger.sections

end Charger

/-! ### What a poll of the register file reads -/

theorem fromBytes_wordBytes {n : Nat} (h : n < 65536) :
    fromBytes (Modbus.wordBytes n) false = n := by
  have hValue := Modbus.wordValue_wordBytes h
  simp only [Modbus.wordValue] at hValue
  simp only [fromBytes, Modbus.wordBytes, List.foldl_cons, List.foldl_nil, Bool.false_and,
    Bool.false_eq_true, if_false, Nat.zero_mul, Nat.zero_add, hValue]

/-- A scaled word of a reply, at the offset where its section has it. -/
theorem bytesToInt_readReply (device : Modbus.Device) (fc : UInt8) (register : Nat)
    {count i : Nat} (h : i < count) (scale : ℚ) :
    bytesToInt (Modbus.readReply device.slaveId fc (device.words register count)) (3 + i * 2) 2
      false scale = round ((device.registers (register + i)).toNat * scale) 4 := by
  have hLength : (device.words register count).length = count := by
    simp [Modbus.Device.words]
  have hWord := Modbus.take_drop_readReply device.slaveId fc (device.words register count)
    (show i < (device.words register count).length by omega)
  have hShort : ¬ (Modbus.readReply device.slaveId fc (device.words register count)).length <
      3 + i * 2 + 2 := by
    rw [Modbus.length_readReply, hLength]
    omega
  simp only [Modbus.Device.words, List.getElem_map, List.getElem_range] at hWord
  rw [bytesToInt, if_neg hShort, Modbus.Device.words, hWord,
    fromBytes_wordBytes (UInt16.toNat_lt _)]
  rfl

end Renogy

end WattPost.Vendors
