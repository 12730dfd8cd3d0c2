import WattPost.Vendors.Base

/-! The drivers of battery management systems that stream frames: JBD, Daly and
JK. JBD and Daly report as `smart_battery`, JK as `bms`. -/
namespace WattPost.Vendors

open PyDict

/-- `cell_voltage_<i>_v` for the cells in order. -/
def cellKey (i : Nat) : String := "cell_voltage_" ++ (toString i ++ "_v")

def cellEntries (volts : List ℚ) : List (String × PyVal) :=
  volts.zipIdx.map fun v => (cellKey v.2, .num v.1)

theorem startsWith_cellEntries (volts : List ℚ) :
    ∀ e ∈ cellEntries volts, PyText.startsWith e.1 "cell_voltage_" = true := by
  intro e he
  obtain ⟨v, _, rfl⟩ := List.mem_map.mp he
  exact PyText.startsWith_append _ _

/-- The cell voltages, and their number unless a frame has told it. -/
def setCells (volts : List ℚ) (result : PollDict) : PollDict :=
  let result := result.setAll (cellEntries volts)
  if volts.isEmpty then result else result.setDefault "cell_count" (.num volts.length)

/-- `temperature_<i>_c`, except that the first sensor has the plain name. -/
def temperatureKey (i : Nat) : String :=
  if i = 0 then "temperature_c" else "temperature_" ++ (toString i ++ "_c")

theorem startsWith_temperatureKey (i : Nat) :
    PyText.startsWith (temperatureKey i) "temperature_" = true := by
  unfold temperatureKey
  split
  · decide
  · exact PyText.startsWith_append _ _

/-! ### JBD -/

namespace Jbd

/-- `_PROTECTION_BITS`. -/
def protectionBits : List (Nat × String) :=
  [(0, "cell_over_voltage"), (1, "cell_under_voltage"), (2, "pack_over_voltage"),
    (3, "pack_under_voltage"), (4, "charge_over_temp"), (5, "charge_under_temp"),
    (6, "discharge_over_temp"), (7, "discharge_under_temp"), (8, "charge_over_current"),
    (9, "discharge_over_current"), (10, "short_circuit"), (11, "ic_front_error"),
    (12, "software_lock")]

/-- The temperatures of the sensors whose bytes the frame holds. -/
def temperatures (p : Bytes) : List (String × PyVal) :=
  ((List.range (byte p 22)).takeWhile fun i => 23 + i * 2 + 2 ≤ p.length).map fun i =>
    (temperatureKey i, .num (((u16 p (23 + i * 2) : ℚ) - 2731) / 10))

/-- `_parse_basic`, on a frame of at least 23 bytes. Current is positive while
charging here, and while discharging on the wire. -/
def parseBasic (p : Bytes) (result : PollDict) : PollDict :=
  let voltage : ℚ := u16 p 0 / 100
  let current : ℚ := -(i16 p 2 / 100)
  let residualAh : ℚ := u16 p 4 / 100
  let nominalAh : ℚ := u16 p 6 / 100
  let protection := u16 p 16
  let active := (protectionBits.filter fun bit => protection.testBit bit.1).map Prod.snd
  (((((result.set "voltage_v" (.num voltage)).set "current_a" (.num current)).set
      "power_w" (.num (round (voltage * current) 2))).set
      "remaining_charge_ah" (.num residualAh)).set
      "capacity_ah" (.num nominalAh)
    |>.setSome "soc_pct_derived"
      (if 0 < nominalAh then some (.num (round (residualAh / nominalAh * 100) 1)) else none)
    |>.set "soc_pct" (.num (byte p 19))
    |>.set "cycle_count" (.num (u16 p 8))
    |>.set "cell_count" (.num (byte p 21))
    |>.set "charge_mos_on" (.bool ((byte p 20).testBit 0))
    |>.set "discharge_mos_on" (.bool ((byte p 20).testBit 1))
    |>.setAll (temperatures p)
    |>.setSome "protection_active" (if active.isEmpty then none else some (.list active))
    |>.setSome "protection_raw" (if protection = 0 then none else some (.num protection)))

/-- The cells up to the first zero, which is padding. -/
def cellVolts (p : Bytes) : List ℚ :=
  (((List.range (p.length / 2)).map fun i => u16 p (i * 2)).takeWhile (· ≠ 0)).map
    fun (mv : Nat) => (mv : ℚ) / 1000

/-- `_parse_cells`. -/
def parseCells (p : Bytes) (result : PollDict) : PollDict := setCells (cellVolts p) result

/-- What the transport holds: the latest frames 0x03 and 0x04, and their age. -/
structure Transport where
  basic : Option Bytes
  cells : Option Bytes
  age : Option ℚ

/-- `JbdBms.poll`; `none` is a transport of another type. -/
def poll (label : String) (slaveId : Int) (transport : Option Transport) : PollDict :=
  let result := header "jbd" "smart_battery" label slaveId
  match transport with
  | none => fail result "wrong transport type, JBD BMS requires ble_jbd"
  | some t =>
      let result := stampAge result t.age
      let result :=
        match t.basic with
        | some basic => if 23 ≤ basic.length then parseBasic basic result else result
        | none => result
      match t.cells with
      | some cells => parseCells cells result
      | none => result

end Jbd

/-! ### Daly -/

namespace Daly

/-- What the transport holds: the latest payload of each command, the cell
voltages in mV that it has gathered, and their age. -/
structure Transport where
  frame90 : Option Bytes
  frame91 : Option Bytes
  frame92 : Option Bytes
  frame93 : Option Bytes
  frame94 : Option Bytes
  frame96 : Option Bytes
  cellVoltagesMv : List Nat
  age : Option ℚ

/-- A payload of at least `n` bytes. -/
def longEnough (n : Nat) (frame : Option Bytes) : Option Bytes :=
  frame.filter fun f => n ≤ f.length

def parse90 (f : Bytes) (result : PollDict) : PollDict :=
  let voltage : ℚ := u16 f 0 / 10
  let current : ℚ := ((u16 f 4 : ℚ) - 30000) / 10
  result.set "voltage_v" (.num voltage)
    |>.set "current_a" (.num current)
    |>.set "power_w" (.num (round (voltage * current) 2))
    |>.set "soc_pct" (.num (u16 f 6 / 10))

def parse91 (f : Bytes) (result : PollDict) : PollDict :=
  result.set "cell_max_mv" (.num (u16 f 0))
    |>.set "cell_max_index" (.num (byte f 2))
    |>.set "cell_min_mv" (.num (u16 f 3))
    |>.set "cell_min_index" (.num (byte f 5))

def parse92 (f : Bytes) (result : PollDict) : PollDict :=
  result.set "temperature_c" (.num ((byte f 0 : ℚ) - 40))
    |>.set "max_temp_index" (.num (byte f 1))
    |>.set "temp_min_c" (.num ((byte f 2 : ℚ) - 40))
    |>.set "min_temp_index" (.num (byte f 3))

def chargingState (state : Nat) : String :=
  match state with
  | 0 => "idle"
  | 1 => "charging"
  | 2 => "discharging"
  | n => "state_" ++ toString n

def parse93 (f : Bytes) (result : PollDict) : PollDict :=
  let remainingMah := u32 f 4
  result.set "charging_state" (.text (chargingState (byte f 0)))
    |>.set "charge_mos_on" (.bool (byte f 1 ≠ 0))
    |>.set "discharge_mos_on" (.bool (byte f 2 ≠ 0))
    |>.setSome "remaining_charge_ah"
      (if 0 < remainingMah then some (.num (remainingMah / 1000)) else none)

def parse94 (f : Bytes) (result : PollDict) : PollDict :=
  result.set "cell_count" (.num (byte f 0))
    |>.set "ntc_count" (.num (byte f 1))
    |>.set "charger_connected" (.bool (byte f 2 ≠ 0))
    |>.set "load_connected" (.bool (byte f 3 ≠ 0))
    |>.set "cycle_count" (.num (u16 f 5))

/-- The key of sensor `i`: the first one has the plain name unless the maximum
temperature already has it. -/
def sensorKey (result : PollDict) (i : Nat) : String :=
  if i = 0 ∧ result.get "temperature_c" = none then "temperature_c"
  else "temperature_" ++ (toString i ++ "_c")

def parse96 (f : Bytes) (result : PollDict) : PollDict :=
  (List.range (min 7 f.length)).foldl (fun result i =>
    if byte f i = 0 then result
    else result.set (sensorKey result i) (.num ((byte f i : ℚ) - 40))) result

def apply (parse : Bytes → PollDict → PollDict) (frame : Option Bytes) (result : PollDict) :
    PollDict :=
  match frame with
  | some f => parse f result
  | none => result

/-- `DalyBms.poll`. -/
def poll (label : String) (slaveId : Int) (transport : Option Transport) : PollDict :=
  let result := header "daly" "smart_battery" label slaveId
  match transport with
  | none => fail result "wrong transport type, Daly BMS requires ble_daly"
  | some t =>
      let result := stampAge result t.age
      let result := apply parse90 (longEnough 8 t.frame90) result
      let result := apply parse91 (longEnough 6 t.frame91) result
      let result := apply parse92 (longEnough 4 t.frame92) result
      let result := apply parse93 (longEnough 8 t.frame93) result
      let result := apply parse94 (longEnough 7 t.frame94) result
      let result := apply parse96 t.frame96 result
      setCells (t.cellVoltagesMv.map fun (mv : Nat) => (mv : ℚ) / 1000) result

end Daly

/-! ### JK -/

namespace Jk

/-- `struct.unpack_from("<H", …)` and the like; `none` when the frame is short. -/
def u16le (data : Bytes) (off : Nat) : Option Nat :=
  if off + 2 ≤ data.length then some (byte data off + byte data (off + 1) * 256) else none

def s16le (data : Bytes) (off : Nat) : Option Int :=
  (u16le data off).map fun v => if v ≥ 0x8000 then (v : Int) - 0x10000 else v

def u32le (data : Bytes) (off : Nat) : Option Nat := do
  let low ← u16le data off
  let high ← u16le data (off + 2)
  some (low + high * 65536)

def s32le (data : Bytes) (off : Nat) : Option Int :=
  (u32le data off).map fun v => if v ≥ 0x80000000 then (v : Int) - 0x100000000 else v

/-- `BALANCING_ACTION.get(action, "unknown")`. -/
def balancingAction (action : Nat) : String :=
  match action with
  | 0 => "off"
  | 1 => "charging"
  | 2 => "discharging"
  | _ => "unknown"

/-- The cell slots in volts, absent ones included. -/
def cellSlots (frame : Bytes) (count : Nat) : List ℚ :=
  (List.range count).map fun i => ((u16le frame (6 + i * 2)).getD 0 : ℚ) / 1000

/-- `v > 0.5` tells a cell from an absent slot. -/
def enabledCells (slots : List ℚ) : List ℚ := slots.filter fun v => 1 / 2 < v

def cellSummary (enabled : List ℚ) : List (String × PyVal) :=
  match enabled.min?, enabled.max? with
  | some low, some high =>
      [("cell_min_v", .num (round low 3)), ("cell_max_v", .num (round high 3)),
        ("cell_mean_v", .num (round (enabled.sum / enabled.length) 4)),
        ("cell_drift_v", .num (round (high - low) 3))]
  | _, _ => []

/-- The entries of a `try` block: the fields in order, up to the first that the
frame is too short for. -/
def tryFields (fields : List (Option (String × PyVal))) : List (String × PyVal) :=
  (fields.takeWhile Option.isSome).filterMap id

def field (key : String) (value : Option ℚ) : Option (String × PyVal) :=
  value.map fun v => (key, .num v)

def packFields (frame : Bytes) (off : Nat) : List (String × PyVal) :=
  match u32le frame (118 + off), s32le frame (126 + off) with
  | some mv, some ma =>
      let totalV : ℚ := mv / 1000
      let current : ℚ := ma / 1000
      [("voltage_v", .num (round totalV 3)), ("current_a", .num (round current 3)),
        ("power_w", .num (round (totalV * current) 2))]
  | _, _ => []

def temperatureFields (frame : Bytes) (off : Nat) : List (String × PyVal) :=
  tryFields
    [field "temperature_0_c" ((s16le frame (130 + off)).map fun (v : Int) => (v : ℚ) / 10),
      field "temperature_1_c" ((s16le frame (132 + off)).map fun (v : Int) => (v : ℚ) / 10),
      some ("temperature_sensor_count", .num 2)]

def statusFields (frame : Bytes) (off : Nat) : List (String × PyVal) :=
  tryFields
    [field "balancing_current_a" ((s16le frame (138 + off)).map fun (v : Int) => (v : ℚ) / 1000),
      (if 140 + off < frame.length
        then some ("balancing_action", .text (balancingAction (byte frame (140 + off)))) else none),
      field "soc_pct"
        (if 141 + off < frame.length then some (byte frame (141 + off) : ℚ) else none),
      field "remaining_charge_ah"
        ((u32le frame (142 + off)).map fun (v : Nat) => round ((v : ℚ) / 1000) 3),
      field "capacity_ah"
        ((u32le frame (146 + off)).map fun (v : Nat) => round ((v : ℚ) / 1000) 3),
      field "cycle_count" ((u32le frame (150 + off)).map fun (v : Nat) => (v : ℚ)),
      field "total_charge_ah"
        ((u32le frame (154 + off)).map fun (v : Nat) => round ((v : ℚ) / 1000) 1)]

/-- The offset of everything behind the resistances. -/
def trailerOff (is32s : Bool) : Nat := if is32s then 32 else 0

/-- A frame of 24 or 32 cell slots. -/
def frameDict (frame : Bytes) (is32s : Bool) : PollDict :=
  let off := trailerOff is32s
  let slots := cellSlots frame (if is32s then 32 else 24)
  let enabled := enabledCells slots
  let errorsAt := if is32s then 134 + off else 136 + off
  Dict.ofList [("cell_count", .num enabled.length)]
    |>.setAll ((slots.zipIdx.filter fun v => 1 / 2 < v.1).map fun v =>
      (cellKey v.2, .num (round v.1 3)))
    |>.setAll (cellSummary enabled)
    |>.setAll (packFields frame off)
    |>.setAll (temperatureFields frame off)
    |>.setSome "mos_temperature_c"
      (if is32s then (s16le frame (112 + off)).map fun (v : Int) => .num ((v : ℚ) / 10) else none)
    |>.setSome "alarm_flags" ((u16le frame errorsAt).map fun (v : Nat) => .num v)
    |>.setAll (statusFields frame off)
    |>.set "_protocol_version" (.text (if is32s then "JK02_32S" else "JK02_24S"))

/-- `_parse_cell_info`: a frame of 260 bytes or more has 32 cell slots. -/
def parseCellInfo (frame : Bytes) : PollDict :=
  if frame.length < 150 then
    fail Dict.empty ("frame too short (" ++ toString frame.length ++ " bytes)")
  else frameDict frame (260 ≤ frame.length)

/-- What the transport holds: the latest frame and its age in whole seconds. -/
structure Transport where
  frame : Option Bytes
  frameAgeS : Option ℚ

/-- `JkBms.poll`. -/
def poll (label : String) (slaveId : Int) (transport : Option Transport) : PollDict :=
  let result := header "jkbms" "bms" label slaveId
  match transport with
  | none => fail result "wrong transport type, JK BMS requires ble_jkbms"
  | some t =>
      match t.frame with
      | none =>
          fail result ("no cell-info frame received yet (or stale), " ++
            "the BMS should start streaming within ~2s of connect")
      | some frame =>
          (result.update (parseCellInfo frame)).setSome "frame_age_s" (t.frameAgeS.map .num)

end Jk

end WattPost.Vendors
