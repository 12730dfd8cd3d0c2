import WattPost.Vendors.RenogyChargers

/-! The drivers that leave a field out of their result when it is zero or inactive:
the single-phase Deye, the EG4 XP and the DCC50S. All three read register sections;
of a device that answers every section a poll sees the register image and nothing
else. -/
namespace WattPost.Vendors

open PyDict

/-- `if q > 0: out[key] = round(q, digits)`. -/
def ifPositive (q : ℚ) (digits : Nat) : Option PyVal :=
  if 0 < q then some (.num (round q digits)) else none

/-- `if n > 0: out[key] = n`. -/
def ifAboveZero (n : Nat) : Option PyVal := if 0 < n then some (.num n) else none

/-- `if n != 0: out[key] = n`. -/
def ifNonzero (n : Int) : Option PyVal := if n ≠ 0 then some (.num n) else none

/-- The voltages of the two strings and of both, the same in two drivers: a mean
when both are live, else the live one. -/
def pvVoltages (out : PollDict) (pv1V pv2V : ℚ) : PollDict :=
  let out := (out.setSome "pv1_voltage_v" (ifPositive pv1V 1)).setSome "pv2_voltage_v"
    (ifPositive pv2V 1)
  if 0 < pv1V ∧ 0 < pv2V then out.set "pv_voltage_v" (.num (round ((pv1V + pv2V) / 2) 1))
  else if 0 < pv1V ∨ 0 < pv2V then out.set "pv_voltage_v" (.num (round (max pv1V pv2V) 1))
  else out

/-! ### Deye -/

namespace Deye

def modeLabels : List (Nat × String) :=
  [(0, "standby"), (1, "selfcheck"), (2, "line"), (3, "line"), (4, "fault"), (5, "selfcheck")]

def labelForMode (code : Nat) : String := (modeLabels.lookup code).getD "unknown"

def parseStatus (bs : Bytes) : PollDict :=
  let code := u16 bs 3 &&& 0xFF
  Dict.ofList
    [("device_status_code", .num code), ("inverter_mode_code", .num code),
      ("inverter_mode", .text (labelForMode code))]

/-- The words from 79 on: the grid's frequency and counters, and two temperatures. -/
def parseTempsAndGridHz (bs : Bytes) : PollDict :=
  let out := Dict.empty.setSome "grid_frequency_hz" (ifPositive (u16 bs 3 / 100) 2)
  let out := out.setSome "lifetime_grid_import_wh" (ifAboveZero (u32 bs 5 * 100))
  let out := out.setSome "lifetime_grid_export_wh" (ifAboveZero (u32 bs 9 * 100))
  out.setAll
    [("temperature_c", .num (round (i16 bs 25 / 10) 1)),
      ("radiator_temperature_c", .num (round (i16 bs 27 / 10) 1))]

def parsePvVoltages (bs : Bytes) : PollDict :=
  pvVoltages Dict.empty (u16 bs 3 / 10) (u16 bs 7 / 10)

/-- The words from 150 on. What flows out is positive on the wire. -/
def parseGridAndAc (bs : Bytes) : PollDict :=
  let out := Dict.empty.setSome "grid_voltage_v" (ifPositive (u16 bs 3 / 10) 1)
  let out := out.setSome "ac_output_voltage_v" (ifPositive (u16 bs 11 / 10) 1)
  let out := out.setSome "load_power_w" (ifNonzero (-i16 bs 37))
  let gridW := -i16 bs 41
  let out :=
    if 0 < gridW then out.set "power_to_grid_w" (.num gridW)
    else if gridW < 0 then out.set "power_to_user_w" (.num (-gridW : Int))
    else out
  out.setSome "ac_output_power_w" (ifNonzero (-i16 bs 53))

/-- The words from 182 on. -/
def parseBatteryAndPvPower (bs : Bytes) : PollDict :=
  let pv1W := -i16 bs 11
  let pv2W := -i16 bs 13
  let out := Dict.ofList
    [("battery_temperature_c", .num (round (i16 bs 3 / 10) 1)),
      ("battery_voltage_v", .num (round (u16 bs 5 / 100) 2)), ("soc_pct", .num (u16 bs 7))]
  let out := (out.setSome "pv1_power_w" (ifNonzero pv1W)).setSome "pv2_power_w" (ifNonzero pv2W)
  let out := out.setAll
    [("pv_power_w", .num (max 0 pv1W + max 0 pv2W : Int)),
      ("battery_power_w", .num (-i16 bs 19 : Int)),
      ("battery_current_a", .num (round ((-i16 bs 21 : Int) / 100) 2))]
  out.setSome "ac_output_frequency_hz" (ifPositive (u16 bs 25 / 100) 2)

/-- `DeyeInverter1P.sections`. -/
def sections : List RegisterSection :=
  [{ register := 59, wordCount := 1, parser := some ∘ parseStatus, name := "status" },
    { register := 79, wordCount := 13, parser := some ∘ parseTempsAndGridHz,
      name := "temps_grid_hz" },
    { register := 109, wordCount := 3, parser := some ∘ parsePvVoltages, name := "pv_voltages" },
    { register := 150, wordCount := 26, parser := some ∘ parseGridAndAc, name := "grid_ac" },
    { register := 182, wordCount := 12, parser := some ∘ parseBatteryAndPvPower,
      name := "battery_pv_power" }]

end Deye

/-! ### EG4 -/

namespace Eg4

/-- `_u32_lh`: the low word first. -/
def u32Lh (b : Bytes) (off : Nat) : Nat := u16 b (off + 2) * 65536 + u16 b off

def modeLabels : List (Nat × String) :=
  [(0x00, "standby"), (0x01, "fault"), (0x02, "programming"), (0x04, "line"), (0x08, "line"),
    (0x0C, "line"), (0x10, "line"), (0x14, "line"), (0x20, "line"), (0x40, "battery"),
    (0x80, "battery"), (0x88, "battery"), (0xC0, "battery")]

/-- The words 0 to 15. -/
def parseBlockA (bs : Bytes) : PollDict :=
  let code := u16 bs 3 &&& 0xFF
  let out := Dict.ofList
    [("device_status_code", PyVal.num code), ("inverter_mode_code", .num code),
      ("inverter_mode", .text ((modeLabels.lookup code).getD "unknown"))]
  let out := pvVoltages out (u16 bs 5 / 10) (u16 bs 7 / 10)
  let battV : ℚ := u16 bs 11 / 10
  let raw5 := u16 bs 13
  let out := out.setAll
    [("battery_voltage_v", .num (round battV 2)), ("soc_pct", .num (raw5 &&& 0xFF : Nat))]
  let out := out.setSome "soh_pct" (ifAboveZero (raw5 >>> 8 &&& 0xFF))
  let pv1W := u16 bs 17
  let pv2W := u16 bs 19
  let out := (out.setSome "pv1_power_w" (ifAboveZero pv1W)).setSome "pv2_power_w" (ifAboveZero pv2W)
  let chargeW := u16 bs 23
  let dischargeW := u16 bs 25
  let netW : Int := chargeW - dischargeW
  let out := out.setAll
    [("pv_power_w", .num (pv1W + pv2W : Nat)), ("battery_charging_power_w", .num chargeW),
      ("battery_discharging_power_w", .num dischargeW), ("battery_power_w", .num netW)]
  let out := out.setSome "battery_current_a"
    (if 0 < battV then some (.num (round (netW / battV) 2)) else none)
  let out := out.setSome "grid_voltage_v" (ifPositive (u16 bs 27 / 10) 1)
  out.setSome "grid_frequency_hz" (ifPositive (u16 bs 33 / 100) 2)

/-- The words 16 to 27. -/
def parseBlockB (bs : Bytes) : PollDict :=
  let out := Dict.ofList [("ac_output_power_w", PyVal.num (u16 bs 3))]
  let out := out.setSome "rectifier_power_w" (ifAboveZero (u16 bs 5))
  let epsV : ℚ := u16 bs 11 / 10
  let out := out.setSome "ac_output_voltage_v" (ifPositive epsV 1)
  let out := out.setSome "eps_voltage_v" (ifPositive epsV 1)
  let out := out.setSome "ac_output_frequency_hz" (ifPositive (u16 bs 17 / 100) 2)
  let out := out.setSome "eps_power_w" (ifAboveZero (u16 bs 19))
  let out := out.setSome "power_to_grid_w" (ifAboveZero (u16 bs 23))
  out.setSome "power_to_user_w" (ifAboveZero (u16 bs 25))

/-- The words 64 to 70. -/
def parseTemps (bs : Bytes) : PollDict :=
  let out := Dict.ofList [("temperature_c", PyVal.num (i16 bs 3))]
  let out := out.setSome "radiator_temperature_1_c" (ifNonzero (i16 bs 5))
  let out := out.setSome "radiator_temperature_2_c" (ifNonzero (i16 bs 7))
  let out := out.set "battery_temperature_c" (.num (i16 bs 9))
  out.setSome "running_time_s" (ifAboveZero (u32Lh bs 13))

/-- The words 127 and 128, which are zero on a single-phase model. -/
def parseSplitPhase (bs : Bytes) : PollDict :=
  (Dict.empty.setSome "eps_l1_voltage_v" (ifPositive (u16 bs 3 / 10) 1)).setSome
    "eps_l2_voltage_v" (ifPositive (u16 bs 5 / 10) 1)

/-- `EG4XpInverter.sections`. -/
def sections : List RegisterSection :=
  [{ register := 0, wordCount := 16, parser := some ∘ parseBlockA, name := "block_a",
      functionCode := 4 },
    { register := 16, wordCount := 12, parser := some ∘ parseBlockB, name := "block_b",
      functionCode := 4 },
    { register := 64, wordCount := 7, parser := some ∘ parseTemps, name := "temps",
      functionCode := 4 },
    { register := 127, wordCount := 2, parser := some ∘ parseSplitPhase, name := "split_phase",
      functionCode := 4 }]

end Eg4

/-! ### Polls of a register image -/

/-- What a device's registers hold at one poll, by register number. -/
abbrev RegisterImage := Nat → UInt16

/-- The words of a section in an image. -/
def RegisterImage.words (image : RegisterImage) (section_ : RegisterSection) : List Nat :=
  (List.range section_.wordCount).map fun i => (image (section_.register + i)).toNat

/-- The drivers of this module. -/
inductive SparseDriver where
  | deyeInverter1p
  | eg4XpInverter
  | dcc50s
deriving DecidableEq

namespace SparseDriver

def vendorId : SparseDriver → String
  | deyeInverter1p => "deye"
  | eg4XpInverter => "eg4"
  | dcc50s => "renogy"

def deviceKind : SparseDriver → String
  | deyeInverter1p => "inverter_1p"
  | eg4XpInverter => "inverter"
  | dcc50s => "dcdc"

def sections : SparseDriver → List RegisterSection
  | deyeInverter1p => Deye.sections
  | eg4XpInverter => Eg4.sections
  | dcc50s => Renogy.Dcc.sections

/-- The reply to a section, which the check of the response accepts. -/
def reply (slaveId : UInt8) (image : RegisterImage) (section_ : RegisterSection) : Bytes :=
  Modbus.readReply slaveId (UInt8.ofNat section_.functionCode) (image.words section_)

/-- A poll in which every section is answered from one image. -/
def poll (driver : SparseDriver) (label : String) (slaveId : UInt8) (image : RegisterImage) :
    PollDict :=
  Vendors.poll (header driver.vendorId driver.deviceKind label slaveId.toNat)
    (driver.sections.map fun s => (s.toSection, .response (reply slaveId image s)))

/-- Every section of a driver fits one frame. -/
theorem sections_fit (driver : SparseDriver) :
    ∀ s ∈ driver.sections, (s.functionCode = 3 ∨ s.functionCode = 4) ∧ s.wordCount ≤ 125 := by
  cases driver <;> decide

/-- What no parser sets stays as the header has it. -/
theorem get_poll_of_absent {k : String} (hErrors : k ≠ "_errors")
    {reads : List (Section × SectionRead)}
    (hAbsent : ∀ s ∈ reads, ∀ bs parsed, s.1.parser bs = some parsed → parsed.get k = none)
    (result : PollDict) : (Vendors.poll result reads).get k = result.get k := by
  induction reads generalizing result with
  | nil => rfl
  | cons s reads ih =>
      refine (ih (fun t ht => hAbsent t (List.mem_cons_of_mem _ ht)) _).trans ?_
      have hAdd : ∀ message, (addError result message).get k = result.get k := by
        intro message
        unfold addError
        split <;> rw [Dict.get_set, if_neg hErrors]
      simp only [pollSection]
      split
      · exact hAdd _
      · split
        · next hParse =>
            rw [Dict.get_update, hAbsent s List.mem_cons_self _ _ hParse, Option.none_or]
        · exact hAdd _

theorem get_kind_pvVoltages (out : PollDict) (pv1V pv2V : ℚ) :
    (pvVoltages out pv1V pv2V).get "_kind" = out.get "_kind" := by
  unfold pvVoltages
  split_ifs <;> simp

theorem get_kind_parseGridAndAc (bs : Bytes) : (Deye.parseGridAndAc bs).get "_kind" = none := by
  rw [Deye.parseGridAndAc]
  split_ifs <;> simp

theorem parsers_set_no_kind (driver : SparseDriver) :
    ∀ s ∈ driver.sections, ∀ bs parsed, s.parser bs = some parsed → parsed.get "_kind" = none := by
  cases driver with
  | deyeInverter1p =>
      simp [sections, Deye.sections, Deye.parseStatus, Deye.parseTempsAndGridHz,
        Deye.parsePvVoltages, get_kind_pvVoltages, get_kind_parseGridAndAc,
        Deye.parseBatteryAndPvPower, Dict.ofList, Dict.setAll]
  | eg4XpInverter =>
      simp [sections, Eg4.sections, Eg4.parseBlockA, get_kind_pvVoltages, Eg4.parseBlockB,
        Eg4.parseTemps, Eg4.parseSplitPhase, Dict.ofList, Dict.setAll]
  | dcc50s =>
      simp [sections, Renogy.Dcc.sections, Renogy.parseModel, Renogy.Shunt.parseDeviceAddress,
        Renogy.Dcc.parseChargingInfo, Renogy.Dcc.parseState, Renogy.parseBatteryType,
        Renogy.Dcc.parseChargeVoltages, Dict.ofList, Dict.setAll]

/-- A poll carries the kind of its driver. -/
theorem get_kind_poll (driver : SparseDriver) (label : String) (slaveId : UInt8)
    (image : RegisterImage) :
    (driver.poll label slaveId image).get "_kind" = some (.text driver.deviceKind) := by
  rw [poll, get_poll_of_absent (by decide)]
  · simp
  · intro s hs bs parsed hParse
    obtain ⟨section_, hMem, rfl⟩ := List.mem_map.mp hs
    exact parsers_set_no_kind driver section_ hMem bs parsed hParse

end SparseDriver

end WattPost.Vendors
