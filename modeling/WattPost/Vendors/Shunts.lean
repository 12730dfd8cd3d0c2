import WattPost.Vendors.Base

/-! The Junctek and AiLi shunts, with the decoders of their transports. -/
namespace WattPost.Vendors

open PyDict

/-! ### Junctek -/

namespace Junctek

/-- The fields of a response: `:r50=1320,…` has the register 50. -/
def splitResponse (line : String) : Option (String × List Int) :=
  let line := PyText.strip line
  if !(PyText.startsWith line ":r") || !(PyText.contains line "=") then none
  else
    let cmd := String.ofList ((line.toList.takeWhile (· != '=')).drop 2)
    let rest := PyText.rstrip (PyText.afterFirst line '=') ','
    let parts := (PyText.split rest ',').filter (· ≠ "")
    if parts.isEmpty then none
    else (parts.mapM PyText.toInt).map fun nums => (cmd, nums)

/-- `parse_response` on split fields. Direction 0 is charging. -/
def parseFields (cmd : String) (nums : List Int) : List (String × PyVal) :=
  let nth (i : Nat) : ℚ := nums.getD i 0
  if cmd = "50" ∧ 5 ≤ nums.length then
    [("voltage_v", .num (nth 0 / 100)),
      ("current_a", .num (if nth 2 = 0 then nth 1 / 100 else -(nth 1 / 100))),
      ("remaining_ah", .num (nth 3 / 1000)),
      ("bank_capacity_ah", .num (nth 4))]
  else if cmd = "51" ∧ 3 ≤ nums.length then
    [("temperature_c", .num (nth 0 - 100)),
      ("cumulative_charge_ah", .num (nth 1 / 1000)),
      ("cumulative_discharge_ah", .num (nth 2 / 1000))]
  else if cmd = "53" ∧ 3 ≤ nums.length then
    ("soc_pct", .num (nth 0)) ::
      ((if nth 1 < 0xFFFFFF then [("time_to_go_minutes", .num (nth 1))] else []) ++
        [("power_w", .num (nth 2))])
  else []

/-- `parse_response`. -/
def parseResponse (line : String) : Option (List (String × PyVal)) :=
  (splitResponse line).bind fun r =>
    let out := parseFields r.1 r.2
    if out.isEmpty then none else some out

/-- `_on_notify`: the last value of each field over the lines so far. -/
def latest (lines : List String) : PollDict :=
  lines.foldl (fun f line => f.setAll ((parseResponse line).getD [])) Dict.empty

/-- What the transport offers: the merged fields unless stale, and their age. -/
structure Transport where
  latest : Option PollDict
  age : Option ℚ

/-- The names the driver passes on. -/
def passed : List String :=
  ["voltage_v", "current_a", "remaining_ah", "bank_capacity_ah", "temperature_c", "soc_pct",
    "time_to_go_minutes", "cumulative_charge_ah", "cumulative_discharge_ah"]

/-- The reported power, or else voltage times current. -/
def power (f : PollDict) : Option PyVal :=
  match f.get "power_w" with
  | some p => some p
  | none =>
      match PyVal.number (f.get "voltage_v"), PyVal.number (f.get "current_a") with
      | some v, some i => some (.num (round (v * i) 2))
      | _, _ => none

def fields (f : PollDict) (result : PollDict) : PollDict :=
  (passed.foldl (fun result k => result.setSome k (f.get k)) result).setSome "power_w" (power f)

/-- `JunctekShunt.poll`. -/
def poll (label : String) (slaveId : Int) (transport : Option Transport) : PollDict :=
  let result := header "junctek" "shunt" label slaveId
  match transport with
  | none => fail result "wrong transport type, Junctek requires ble_junctek"
  | some t =>
      let result := stampAge result t.age
      match t.latest with
      | none => result
      | some f => fields f result

end Junctek

/-! ### AiLi -/

namespace Aili

/-- `_verify_frame`: header and either checksum. -/
def verifyFrame (buf : Bytes) : Bool :=
  buf.length = 20 && byte buf 0 = 0xff && byte buf 1 = 0x55 &&
    ((buf.take 19).foldl (fun n b => n + b.toNat) 0 % 256 = byte buf 19 ||
      (buf.take 19).foldl (fun n b => n ^^^ b.toNat) 0 = byte buf 19)

/-- `_i24`: sign and magnitude. -/
def i24 (b : Bytes) (off : Nat) : Int :=
  let raw := byte b off * 65536 + u16 b (off + 1)
  if raw ≥ 0x800000 then -((raw : Int) - 0x800000) else raw

/-- `_i8`. -/
def i8 (b : Bytes) (off : Nat) : Int :=
  let v := byte b off
  if v ≥ 0x80 then (v : Int) - 256 else v

/-- A decoded frame. -/
structure Frame where
  voltageV : ℚ
  currentA : ℚ
  remainingAh : ℚ
  socPct : ℚ
  temperatureC : ℚ
  timeToGoMinutes : Option ℚ
  cumulativeAh : ℚ

/-- `_parse_frame`. -/
def parseFrame (buf : Bytes) : Frame where
  voltageV := u16 buf 2 / 1000
  currentA := i24 buf 4 / 1000
  remainingAh := u32 buf 7 / 1000
  socPct := byte buf 11
  temperatureC := i8 buf 12
  timeToGoMinutes := if u16 buf 13 = 0xFFFF then none else some (u16 buf 13)
  cumulativeAh := u32 buf 15 / 1000

/-- The bank size behind the remaining charge. -/
def bankCapacity (f : Frame) : Option ℚ :=
  if 0 < f.socPct then some (round (f.remainingAh / (f.socPct / 100)) 2) else none

def fields (f : Frame) (result : PollDict) : PollDict :=
  result
    |>.set "voltage_v" (.num f.voltageV)
    |>.set "current_a" (.num f.currentA)
    |>.set "power_w" (.num (round (f.voltageV * f.currentA) 2))
    |>.set "remaining_ah" (.num f.remainingAh)
    |>.set "soc_pct" (.num f.socPct)
    |>.setSome "bank_capacity_ah" ((bankCapacity f).map .num)
    |>.set "temperature_c" (.num f.temperatureC)
    |>.setSome "time_to_go_minutes" (f.timeToGoMinutes.map .num)
    |>.set "cumulative_ah" (.num f.cumulativeAh)

/-- What the transport offers: the latest decoded frame unless stale, and its age. -/
structure Transport where
  latest : Option Frame
  age : Option ℚ

/-- `AiliShunt.poll`. -/
def poll (label : String) (slaveId : Int) (transport : Option Transport) : PollDict :=
  let result := header "aili" "shunt" label slaveId
  match transport with
  | none => fail result "wrong transport type, AiLi shunt requires ble_aili"
  | some t =>
      let result := stampAge result t.age
      match t.latest with
      | none => result
      | some f => fields f result

end Aili

end WattPost.Vendors
