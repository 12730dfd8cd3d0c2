import WattPost.Vendors.Bms

/-! The Victron battery devices: the Smart Lithium battery and the SmartShunt over
BLE Instant Readout, and the SmartShunt over VE.Direct. The BLE payload is what
the `victron-ble` package decodes; a getter that is missing or raises counts as
`None`. -/
namespace WattPost.Vendors

open PyDict

namespace Victron

/-- What `ble_victron_advertise` offers: the latest payload unless it is stale,
the name of its class, the age of the last advertisement, and the age in whole
seconds of the payload. -/
structure Transport (Payload : Type) where
  latest : Option Payload
  className : Option String
  age : FrameAge
  latestAgeS : Option ℚ

/-- The common frame of the BLE drivers: header, silence, class check, and then
the fields of the payload. -/
def pollPayload {Payload : Type} (result : PollDict) (wrongTransport : String) (expected : String)
    (mismatch : String → String) (fields : Payload → PollDict → PollDict)
    (transport : Option (Transport Payload)) : PollDict :=
  match transport with
  | none => fail result wrongTransport
  | some t =>
      match t.latest with
      | none => markSilent result t.age
      | some parsed =>
          let result := stampAdvertisementAge result t.age
          let wrongClass := t.className.filter fun name => name ≠ "" && name ≠ expected
          match wrongClass with
          | some name => fail result (mismatch name)
          | none =>
              (fields parsed result).setSome "advertisement_age_s" (t.latestAgeS.map .num)

/-! ### Smart Lithium -/

namespace SmartLithium

/-- `SmartLithiumData`. -/
structure Payload where
  batteryVoltage : Option ℚ
  batteryTemperature : Option ℚ
  cellVoltages : Option (List (Option ℚ))
  balancerStatus : Option String
  bmsFlags : Option Int
  errorFlags : Option Int
  modelName : Option String

def cellFields (cells : List (Option ℚ)) : List (String × PyVal) :=
  cells.zipIdx.filterMap fun v => v.1.map fun volts => (cellKey v.2, .num volts)

def fields (parsed : Payload) (result : PollDict) : PollDict :=
  let result := result
    |>.setSome "voltage_v" (parsed.batteryVoltage.map .num)
    |>.setSome "temperature_c" (parsed.batteryTemperature.map .num)
    |>.setSome "model" (parsed.modelName.map .text)
  let result :=
    match parsed.cellVoltages with
    | some cells => (result.set "cell_count" (.num cells.length)).setAll (cellFields cells)
    | none => result
  result
    |>.setSome "balancer_status" (parsed.balancerStatus.map fun name => .text (PyText.lower name))
    |>.setSome "bms_flags" (parsed.bmsFlags.map fun (flags : Int) => .num flags)
    |>.setSome "error_flags" (parsed.errorFlags.map fun (flags : Int) => .num flags)

/-- `VictronSmartLithium.poll`. -/
def poll (label : String) (slaveId : Int) (transport : Option (Transport Payload)) : PollDict :=
  pollPayload (header "victron" "smart_battery" label slaveId)
    "wrong transport type, requires ble_victron_advertise" "SmartLithium"
    (fun name => "configured as 'smart_battery' (Victron) but transport sees a " ++ name)
    fields transport

end SmartLithium

/-! ### SmartShunt -/

namespace SmartShunt

/-- `BatteryMonitorData`; the enums by name. -/
structure Payload where
  voltage : Option ℚ
  current : Option ℚ
  soc : Option ℚ
  remainingMins : Option ℚ
  consumedAh : Option ℚ
  temperature : Option ℚ
  starterVoltage : Option ℚ
  midpointVoltage : Option ℚ
  modelName : Option String
  alarm : Option String
  auxMode : Option String

/-- Power, when both factors are there. -/
def power (voltage current : Option ℚ) : Option ℚ :=
  match voltage, current with
  | some v, some i => some (round (v * i) 2)
  | _, _ => none

def fields (parsed : Payload) (result : PollDict) : PollDict :=
  result
    |>.setSome "voltage_v" (parsed.voltage.map .num)
    |>.setSome "current_a" (parsed.current.map .num)
    |>.setSome "soc_pct" (parsed.soc.map .num)
    |>.setSome "time_to_go_minutes" (parsed.remainingMins.map .num)
    |>.setSome "consumed_ah" (parsed.consumedAh.map .num)
    |>.setSome "temperature_c" (parsed.temperature.map .num)
    |>.setSome "starter_voltage_v" (parsed.starterVoltage.map .num)
    |>.setSome "midpoint_voltage_v" (parsed.midpointVoltage.map .num)
    |>.setSome "power_w" ((power parsed.voltage parsed.current).map .num)
    |>.setSome "model" (parsed.modelName.map .text)
    |>.setSome "alarm" (parsed.alarm.map .text)
    |>.setSome "aux_mode" (parsed.auxMode.map .text)

/-- `VictronSmartShunt.poll`. -/
def poll (label : String) (slaveId : Int) (transport : Option (Transport Payload)) : PollDict :=
  pollPayload (header "victron" "shunt" label slaveId)
    "wrong transport type, Victron SmartShunt requires ble_victron_advertise" "BatteryMonitor"
    (fun name => "configured as 'shunt' but transport sees a " ++ name ++
      "; pick the correct device kind")
    fields transport

end SmartShunt

/-! ### VE.Direct -/

namespace VeDirectShunt

/-- What the `ve_direct` transport offers: the latest frame, label by label, and
its age. -/
structure Transport where
  latest : Option (Dict String)
  age : Option ℚ

/-- `_to_int(f.get(key))`. -/
def toInt (f : Dict String) (key : String) : Option Int := (f.get key).bind PyText.toInt

def fields (f : Dict String) (result : PollDict) : PollDict :=
  let voltage : Option ℚ := (toInt f "V").map fun mv => mv / 1000
  let current : Option ℚ := (toInt f "I").map fun ma => ma / 1000
  let reported : Option ℚ := (toInt f "P").map fun w => w
  result
    |>.setSome "voltage_v" (voltage.map .num)
    |>.setSome "current_a" (current.map .num)
    |>.setSome "power_w" ((reported.or (SmartShunt.power voltage current)).map .num)
    |>.setSome "soc_pct" ((toInt f "SOC").map fun perMille => .num (perMille / 10))
    |>.setSome "time_to_go_minutes"
      (((toInt f "TTG").filter fun minutes => 0 ≤ minutes).map fun minutes => .num minutes)
    |>.setSome "consumed_ah" ((toInt f "CE").map fun mah => .num (mah / 1000))
    |>.setSome "temperature_c" ((toInt f "T").map fun t => .num t)
    |>.setSome "model" ((f.get "BMV").map .text)
    |>.setSome "alarm" (((f.get "Alarm").filter fun alarm => alarm ≠ "OFF").map .text)

/-- `VictronVeDirectShunt.poll`. -/
def poll (label : String) (slaveId : Int) (transport : Option Transport) : PollDict :=
  let result := header "victron_vedirect" "shunt" label slaveId
  match transport with
  | none => fail result "wrong transport type, VE.Direct shunt requires the ve_direct transport"
  | some t =>
      match t.latest with
      | none => stampAge result t.age
      | some f => fields f (stampAge result t.age)

end VeDirectShunt

end Victron

end WattPost.Vendors
