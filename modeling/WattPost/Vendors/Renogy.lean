import WattPost.Vendors.Bms

/-! The Renogy smart battery and shunt, which are polled in register sections. A
response begins with three header bytes. -/
namespace WattPost.Vendors

open PyDict

namespace Renogy

/-- `int.from_bytes(bs, "big", signed=signed)`. -/
def fromBytes (bs : Bytes) (signed : Bool) : Int :=
  let n : Nat := bs.foldl (fun acc b => acc * 256 + b.toNat) 0
  if signed && 2 * n ≥ 256 ^ bs.length then (n : Int) - 256 ^ bs.length else n

/-- `bytes_to_int`: zero when the response is too short. -/
def bytesToInt (bs : Bytes) (offset length : Nat) (signed : Bool) (scale : ℚ) : ℚ :=
  if bs.length < offset + length then 0
  else round (fromBytes ((bs.drop offset).take length) signed * scale) 4

/-- `int(q)`. -/
def truncate (q : ℚ) : ℚ := (q.num.tdiv q.den : Int)

/-- `bs.decode("ascii", errors="replace")`; the model texts are UTF-8 on the
wire and ASCII in fact. -/
def decodeAscii (bs : Bytes) : String :=
  String.ofList (bs.map fun b => if b.toNat < 128 then Char.ofNat b.toNat else '\uFFFD')

/-- `bs[3:19]` as text, without the padding. -/
def asciiBlock (bs : Bytes) : String :=
  PyText.strip (PyText.rstrip (decodeAscii ((bs.drop 3).take 16)) (Char.ofNat 0))

def parseDeviceInfo (bs : Bytes) : PollDict := Dict.ofList [("model", .text (asciiBlock bs))]

/-! ### Smart battery -/

namespace SmartBattery

def parseCellVoltages (bs : Bytes) : PollDict :=
  let count := truncate (bytesToInt bs 3 2 false 1)
  (Dict.ofList [("cell_count", .num count)]).setAll
    (cellEntries ((List.range count.num.toNat).map fun i => bytesToInt bs (5 + i * 2) 2 false (1 / 10)))

def parseCellTemperaturesC (bs : Bytes) : PollDict :=
  let count := truncate (bytesToInt bs 3 2 false 1)
  (Dict.ofList [("temperature_sensor_count", .num count)]).setAll
    ((List.range count.num.toNat).map fun i =>
      ("temperature_" ++ (toString i ++ "_c"), .num (bytesToInt bs (5 + i * 2) 2 true (1 / 10))))

def parseBatteryInfo (bs : Bytes) : PollDict :=
  Dict.ofList
    [("current_a", .num (bytesToInt bs 3 2 true (1 / 100))),
      ("voltage_v", .num (bytesToInt bs 5 2 false (1 / 10))),
      ("remaining_charge_ah", .num (bytesToInt bs 7 4 false (1 / 1000))),
      ("capacity_ah", .num (bytesToInt bs 11 4 false (1 / 1000)))]

/-- Six digits are written as three pairs. -/
def dotted (digits : String) : String :=
  PyText.takeFirst digits 2 ++ "." ++ PyText.takeFirst (PyText.dropFirst digits 2) 2 ++ "." ++
    PyText.dropFirst digits 4

def parseFirmware (bs : Bytes) : PollDict :=
  if bs.length < 11 then Dict.empty
  else
    let trimmed := (((bs.drop 3).take 8).dropWhile (· = 0xff)).reverse.dropWhile (· = 0)
    let fwAscii := PyText.strip (decodeAscii trimmed.reverse)
    (Dict.ofList [("firmware_version_raw", .text fwAscii)]).setSome "firmware_version"
      (if fwAscii.toList.length = 6 ∧ fwAscii.toList.all Char.isDigit = true
        then some (.text (dotted fwAscii)) else none)

def parseSerial (bs : Bytes) : PollDict :=
  if bs.length < 19 then Dict.empty else Dict.ofList [("serial", .text (asciiBlock bs))]

def parseDeviceAddress (bs : Bytes) : PollDict :=
  Dict.ofList [("device_id", .num (truncate (bytesToInt bs 3 2 false 1)))]

/-- What the transport answers to the seven requests. -/
structure Reads where
  cellVoltages : SectionRead
  cellTemperatures : SectionRead
  batteryInfo : SectionRead
  firmware : SectionRead
  serial : SectionRead
  deviceInfo : SectionRead
  deviceAddress : SectionRead

def sections (reads : Reads) : List (Section × SectionRead) :=
  [(⟨"cell_voltages", fun bs => some (parseCellVoltages bs)⟩, reads.cellVoltages),
    (⟨"cell_temperatures", fun bs => some (parseCellTemperaturesC bs)⟩, reads.cellTemperatures),
    (⟨"battery_info", fun bs => some (parseBatteryInfo bs)⟩, reads.batteryInfo),
    (⟨"firmware", fun bs => some (parseFirmware bs)⟩, reads.firmware),
    (⟨"serial", fun bs => some (parseSerial bs)⟩, reads.serial),
    (⟨"device_info", fun bs => some (parseDeviceInfo bs)⟩, reads.deviceInfo),
    (⟨"device_address", fun bs => some (parseDeviceAddress bs)⟩, reads.deviceAddress)]

/-- `RenogySmartBattery.poll`. -/
def poll (label : String) (slaveId : Int) (reads : Reads) : PollDict :=
  Vendors.poll (header "renogy" "smart_battery" label slaveId) (sections reads)

end SmartBattery

/-! ### Shunt -/

namespace Shunt

def hexDigits (b : UInt8) : List Char :=
  [Char.toUpper (Nat.digitChar (b.toNat / 16)), Char.toUpper (Nat.digitChar (b.toNat % 16))]

def version (bs : Bytes) (off : Nat) : String :=
  toString (byte bs (off + 1)) ++ "." ++ toString (byte bs (off + 2)) ++ "." ++
    toString (byte bs (off + 3))

def parseVersions (bs : Bytes) : PollDict :=
  if bs.length < 15 then Dict.empty
  else
    Dict.ofList
      [("firmware_version", .text (version bs 3)), ("hardware_version", .text (version bs 7)),
        ("serial", .text (String.ofList (((bs.drop 11).take 4).flatMap hexDigits)))]

def parseDeviceAddress (bs : Bytes) : PollDict :=
  Dict.ofList [("device_id", .num (truncate (bytesToInt bs 4 1 false 1)))]

/-- A time in minutes; 0xFFFF stands for unknown. -/
def minutes (raw : ℚ) : Option PyVal :=
  if raw = 0 ∨ raw = 0xFFFF then none else some (.num raw)

/-- `_parse_live_stats`. The capacity is reported as `full_capacity_ah`. -/
def parseLiveStats (bs : Bytes) : PollDict :=
  let voltageV := bytesToInt bs 3 2 false (1 / 10)
  let currentA := bytesToInt bs 5 2 true (1 / 100)
  (Dict.ofList
    [("voltage_v", .num voltageV),
      ("current_a", .num currentA),
      ("temperature_c", .num (bytesToInt bs 7 2 true (1 / 10))),
      ("soc_pct", .num (truncate (bytesToInt bs 9 2 false 1))),
      ("remaining_ah", .num (bytesToInt bs 11 4 false (1 / 1000))),
      ("full_capacity_ah", .num (bytesToInt bs 15 4 false (1 / 1000))),
      ("cumulative_discharge_ah", .num (bytesToInt bs 19 4 false (1 / 1000))),
      ("cumulative_charge_ah", .num (bytesToInt bs 23 4 false (1 / 1000)))]
    |>.setSome "power_w" (if voltageV = 0 then none else some (.num (round (voltageV * currentA) 2)))
    |>.setSome "time_to_empty_min" (minutes (truncate (bytesToInt bs 27 2 false 1)))
    |>.setSome "time_to_full_min" (minutes (truncate (bytesToInt bs 29 2 false 1))))

/-- What the transport answers to the four requests. -/
structure Reads where
  deviceInfo : SectionRead
  versions : SectionRead
  deviceAddress : SectionRead
  liveStats : SectionRead

def sections (reads : Reads) : List (Section × SectionRead) :=
  [(⟨"device_info", fun bs => some (parseDeviceInfo bs)⟩, reads.deviceInfo),
    (⟨"versions", fun bs => some (parseVersions bs)⟩, reads.versions),
    (⟨"device_address", fun bs => some (parseDeviceAddress bs)⟩, reads.deviceAddress),
    (⟨"live_stats", fun bs => some (parseLiveStats bs)⟩, reads.liveStats)]

/-- `RenogyShunt.poll`. -/
def poll (label : String) (slaveId : Int) (reads : Reads) : PollDict :=
  Vendors.poll (header "renogy" "shunt" label slaveId) (sections reads)

end Shunt

end Renogy

end WattPost.Vendors
