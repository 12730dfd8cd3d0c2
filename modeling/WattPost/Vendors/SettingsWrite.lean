import Mathlib.Tactic.NormNum
import WattPost.Vendors.RenogyChargers

/-! Changing a charger's setting: the check and encoding of the value by the
settings page, the single-register write with its read-back, and what the next
poll of the same device reports. -/
namespace WattPost.Vendors

open PyDict

/-! ### The value that is written -/

/-- Why `patch_device_setting` refuses a value. -/
inductive SettingError where
  | enumNotInt (key : String)
  | notInChoices (value : Int) (valid : List Int)
  | notANumber (key : String)
  | belowMinimum (value min : ℚ)
  | aboveMaximum (value max : ℚ)
  | outOfFc06Range (encoded : Int)
deriving DecidableEq

/-- `setting.scale or 1.0`. -/
def WritableSetting.effectiveScale (setting : WritableSetting) : ℚ :=
  if setting.scale = 0 then 1 else setting.scale

/-- The validation by kind in `patch_device_setting`, and the register value it
ends with. -/
def WritableSetting.encode (setting : WritableSetting) (rawValue : PyVal) :
    Except SettingError Int :=
  match setting.kind with
  | .enum =>
      match PyVal.int (some rawValue) with
      | none => .error (.enumNotInt setting.key)
      | some value =>
          if value ∈ setting.choices.map Prod.fst then .ok value
          else .error (.notInChoices value (setting.choices.map Prod.fst))
  | .float | .int =>
      match PyVal.float (some rawValue) with
      | none => .error (.notANumber setting.key)
      | some value =>
          if setting.min.any (value < ·) then
            .error (.belowMinimum value (setting.min.getD 0))
          else if setting.max.any (· < value) then
            .error (.aboveMaximum value (setting.max.getD 0))
          else
            let registerValue := roundHalfEven (value / setting.effectiveScale)
            if 0 ≤ registerValue ∧ registerValue ≤ 0xFFFF then .ok registerValue
            else .error (.outOfFc06Range registerValue)

/-- Every accepted value fits the register, when the choices do. -/
theorem WritableSetting.encode_range {setting : WritableSetting} {rawValue : PyVal} {value : Int}
    (hChoices : ∀ choice ∈ setting.choices, 0 ≤ choice.1 ∧ choice.1 ≤ 0xFFFF)
    (h : setting.encode rawValue = .ok value) : 0 ≤ value ∧ value ≤ 0xFFFF := by
  have hNumeric : ∀ v : Int,
      (if 0 ≤ v ∧ v ≤ 0xFFFF then Except.ok v else .error (SettingError.outOfFc06Range v)) =
        .ok value → 0 ≤ value ∧ value ≤ 0xFFFF := by
    intro v hv
    split at hv
    case isTrue hRange => cases hv; exact hRange
    case isFalse => cases hv
  unfold encode at h
  split at h
  case h_1 =>
    split at h
    · cases h
    · split at h
      case isTrue hMem =>
        cases h
        obtain ⟨choice, hIn, rfl⟩ := List.mem_map.mp hMem
        exact hChoices choice hIn
      case isFalse => cases h
  all_goals
    split at h
    · cases h
    · split at h
      · cases h
      · split at h
        · cases h
        · exact hNumeric _ h

/-! ### The write -/

/-- What the link does with one exchange. -/
inductive Fate where
  | answered
  | replyLost
  | sendFailed (message : String)
deriving DecidableEq

/-- How `transport.request` ends. -/
inductive Reply where
  | bytes (resp : Bytes)
  | timeout
  | failed (message : String)

/-- The frame reaches the device. -/
def Fate.Delivers : Fate → Prop
  | .sendFailed _ => False
  | _ => True

instance (fate : Fate) : Decidable fate.Delivers := by
  cases fate <;> (unfold Fate.Delivers; infer_instance)

def exchange (device : Modbus.Device) (frame : Bytes) : Fate → Reply × Modbus.Device
  | .answered =>
      match device.respond frame with
      | (some resp, after) => (.bytes resp, after)
      | (none, after) => (.timeout, after)
  | .replyLost => (.timeout, (device.respond frame).2)
  | .sendFailed message => (.failed message, device)

/-- The result of `write_setting_register`. -/
structure WriteResult where
  ok : Bool
  confirmedValue : Option Nat
  detail : Option String

/-- The fates of the write and of the read-back. -/
structure Link where
  write : Fate
  readBack : Fate

/-- The second pass: read the register again and compare. -/
def readBackResult (reply : Reply) (slaveId : UInt8) (value : Int) (ackSeen : Bool) :
    WriteResult :=
  match reply with
  | .timeout =>
      if ackSeen then
        { ok := true, confirmedValue := none
          detail := some "ack ok; read-back timed out, next poll will confirm" }
      else
        { ok := false, confirmedValue := none, detail := some "no ack and read-back timed out" }
  | .failed message =>
      { ok := false, confirmedValue := none, detail := some ("read-back failed: " ++ message) }
  | .bytes resp =>
      match Modbus.verifyResponse resp slaveId 3 none with
      | .error message =>
          { ok := false, confirmedValue := none
            detail := some ("read-back failed: ValueError: " ++ message) }
      | .ok () =>
          let confirmed := Modbus.wordValue (resp.getD 3 0) (resp.getD 4 0)
          if (confirmed : Int) = value then
            { ok := true, confirmedValue := some confirmed, detail := none }
          else
            { ok := false, confirmedValue := some confirmed
              detail := some ("read-back returned " ++ toString confirmed ++ " after writing " ++
                toString value ++ ", device may have clamped to a safe range") }

/-- An acknowledgement counts when it is a clean reply to the write. -/
def ackSeen (reply : Reply) (slaveId : UInt8) : Bool :=
  match reply with
  | .bytes resp => (Modbus.verifyResponse resp slaveId 6 none).isOk
  | _ => false

/-- `write_setting_register`; the error is that of `build_write_single`. -/
def writeSettingRegister (device : Modbus.Device) (slaveId : UInt8) (register : Nat) (value : Int)
    (readBack : Bool) (link : Link) : Except String (WriteResult × Modbus.Device) := do
  let frame ← Modbus.buildWriteSingle slaveId register value
  match exchange device frame link.write with
  | (.failed message, after) =>
      return ({ ok := false, confirmedValue := none, detail := some message }, after)
  | (reply, after) =>
      let ack := ackSeen reply slaveId
      if readBack = false then
        return ({ ok := ack, confirmedValue := none
                  detail := if ack then none
                    else some "no ack and read-back disabled, write may have landed" }, after)
      else
        let (reply2, after2) :=
          exchange after (Modbus.buildReadHolding slaveId register 1) link.readBack
        return (readBackResult reply2 slaveId value ack, after2)

/-- A read does not change the device. -/
theorem exchange_buildReadHolding (device : Modbus.Device) {register : Nat}
    (hRegister : register < 65536) (fate : Fate) :
    (exchange device (Modbus.buildReadHolding device.slaveId register 1) fate).2 = device := by
  have hRespond := Modbus.respond_buildReadHolding device hRegister (Nat.le_refl 1) (by omega)
  cases fate <;> simp [exchange, hRespond]

/-- A delivered write is in the device, acknowledged or not. -/
theorem exchange_requestFrame_write (device : Modbus.Device) {register value : Nat}
    (hRegister : register < 65536) (hValue : value < 65536) {fate : Fate}
    (hDelivered : fate.Delivers) :
    ∃ reply, exchange device (Modbus.requestFrame device.slaveId 6 register value) fate =
        (reply, device.write register (UInt16.ofNat value)) ∧
      ∀ message, reply ≠ .failed message := by
  have hRespond := Modbus.respond_requestFrame_write device hRegister hValue
  cases fate with
  | sendFailed message => exact hDelivered.elim
  | answered =>
      refine ⟨.bytes (Modbus.requestFrame device.slaveId 6 register value), ?_, nofun⟩
      simp [exchange, hRespond]
  | replyLost =>
      refine ⟨.timeout, ?_, nofun⟩
      simp [exchange, hRespond]

/-- Once the write frame is delivered the register holds the value, whatever
becomes of the acknowledgement and of the read-back. -/
theorem writeSettingRegister_device (device : Modbus.Device) {register : Nat} {value : Int}
    (hRegister : register < 65536) (hValue : 0 ≤ value ∧ value ≤ 0xFFFF) (readBack : Bool)
    (link : Link) (hDelivered : link.write.Delivers) :
    ∃ result, writeSettingRegister device device.slaveId register value readBack link =
      .ok (result, device.write register (UInt16.ofNat value.toNat)) := by
  have hWrite := exchange_requestFrame_write device hRegister
    (show value.toNat < 65536 by omega) hDelivered
  have hReadBack := exchange_buildReadHolding
    (device.write register (UInt16.ofNat value.toNat)) hRegister link.readBack
  obtain ⟨reply, hExchange, hReply⟩ := hWrite
  rw [Modbus.Device.write_slaveId] at hReadBack
  cases reply with
  | failed message => exact absurd rfl (hReply message)
  | bytes resp =>
      cases readBack <;>
        simp [writeSettingRegister, Modbus.buildWriteSingle, hValue, hExchange, hReadBack, bind,
          Except.bind, pure, Except.pure]
  | timeout =>
      cases readBack <;>
        simp [writeSettingRegister, Modbus.buildWriteSingle, hValue, hExchange, hReadBack, bind,
          Except.bind, pure, Except.pure]

/-! ### What the next poll reports -/

/-- The value that stands for a register content: the name of the battery type,
or the scaled number. -/
def WritableSetting.decode (setting : WritableSetting) (value : Int) : PyVal :=
  match setting.kind with
  | .enum => Renogy.nameOf Renogy.batteryType value
  | .float | .int => .num (value * setting.effectiveScale)

/-- The poll before and after a write agree with it: the setting's field has
the written value, and the fields of the other settings are as before. -/
def SettingApplied (charger : Renogy.Charger) (label : String) (setting : WritableSetting)
    (field : String) (value : Int) (before after : Modbus.Device) : Prop :=
  (charger.poll label after.slaveId (deviceRequest after)).get field =
      some (setting.decode value) ∧
    ∀ other ∈ charger.writableSettings, other.key ≠ setting.key →
      ∀ otherField, other.readFrom = some otherField →
        (charger.poll label after.slaveId (deviceRequest after)).get otherField =
          (charger.poll label before.slaveId (deviceRequest before)).get otherField

namespace Renogy

/-- The register that the poll takes a setting's field from. The words of the
Rover's charge voltages are counted from 0xE007, its boost and float settings
are written one register higher. -/
def Charger.polledRegister (charger : Charger) (setting : WritableSetting) : Nat :=
  if charger = .rover ∧ setting.key = "boost_voltage" then 0xE007
  else if charger = .rover ∧ setting.key = "float_voltage" then 0xE008
  else setting.register

@[simp] theorem decode_voltageSetting (key : String) (register : Nat) (readFrom : String)
    (min max : ℚ) (value : Int) :
    (voltageSetting key register readFrom min max).decode value = .num (value * (1 / 10)) := by
  simp [WritableSetting.decode, WritableSetting.effectiveScale, voltageSetting]

@[simp] theorem decode_batteryTypeSetting (value : Int) :
    batteryTypeSetting.decode value = nameOf batteryType value := rfl

theorem truncate_natCast (n : Nat) : truncate n = n := by
  simp [truncate]

theorem round_tenths (n : Nat) : round ((n : ℚ) * (1 / 10)) 4 = n * (1 / 10) := by
  refine round_eq_self (n := (n * 1000 : Nat)) ?_
  push_cast
  ring

theorem round_whole (n : Nat) : round ((n : ℚ) * 1) 4 = n := by
  rw [mul_one]
  refine round_eq_self (n := (n * 10000 : Nat)) ?_
  push_cast
  ring

/-- A voltage of the last section, by its place in the section. -/
theorem tenths_readReply (device : Modbus.Device) (register : Nat) {count i : Nat} (h : i < count) :
    tenths (Modbus.readReply device.slaveId 3 (device.words register count)) (3 + i * 2) =
      (device.registers (register + i)).toNat * (1 / 10) := by
  rw [tenths, bytesToInt_readReply device 3 register h, round_tenths]

theorem parseBatteryType_readReply (device : Modbus.Device) (register : Nat) :
    (parseBatteryType (Modbus.readReply device.slaveId 3 (device.words register 1))).get
      "battery_type" = some (nameOf batteryType (device.registers register).toNat) := by
  have hWord := bytesToInt_readReply device 3 register (show 0 < 1 by omega) 1
  rw [round_whole] at hWord
  simp only [Nat.zero_mul, Nat.add_zero] at hWord
  simp [parseBatteryType, Dict.ofList, Dict.setAll, hWord, truncate_natCast]

/-- The last two sections of a driver, behind the others. -/
def Charger.chargeSection : Charger → RegisterSection
  | .rover => { register := 0xE007, wordCount := 6, parser := some ∘ Rover.parseChargeVoltages,
                name := "charge_voltages" }
  | .dcc => { register := 0xE008, wordCount := 6, parser := some ∘ Dcc.parseChargeVoltages,
              name := "charge_voltages" }

def batteryTypeSection : RegisterSection :=
  { register := 57348, wordCount := 1, parser := some ∘ parseBatteryType, name := "battery_type" }

theorem Charger.sections_eq (charger : Charger) :
    charger.sections =
      (charger.sections.take 4 ++ [batteryTypeSection]) ++ [charger.chargeSection] := by
  cases charger <;> rfl

/-- The dictionary that the last section parses from the device. -/
def Charger.chargeVoltages (charger : Charger) (device : Modbus.Device) : PollDict :=
  match charger with
  | .rover => Rover.parseChargeVoltages
      (Modbus.readReply device.slaveId 3 (device.words 0xE007 6))
  | .dcc => Dcc.parseChargeVoltages (Modbus.readReply device.slaveId 3 (device.words 0xE008 6))

theorem Charger.get_poll (charger : Charger) (label : String) (device : Modbus.Device)
    (field : String) :
    (charger.poll label device.slaveId (deviceRequest device)).get field =
      ((charger.chargeVoltages device).get field).or
        (((parseBatteryType (Modbus.readReply device.slaveId 3 (device.words 57348 1))).get
          field).or
          ((pollSections (header "renogy" charger.deviceKind label device.slaveId.toNat)
            (deviceRequest device) device.slaveId (charger.sections.take 4)).get field)) := by
  have hBattery := readSection_deviceRequest device batteryTypeSection rfl
    (by decide) (by decide) (by decide)
  rw [Charger.poll, charger.sections_eq]
  cases charger with
  | rover =>
      have hCharge := readSection_deviceRequest device Charger.rover.chargeSection
        rfl (by decide) (by decide) (by decide)
      rw [get_pollSections_concat hCharge rfl, get_pollSections_concat hBattery rfl]
      rfl
  | dcc =>
      have hCharge := readSection_deviceRequest device Charger.dcc.chargeSection
        rfl (by decide) (by decide) (by decide)
      rw [get_pollSections_concat hCharge rfl, get_pollSections_concat hBattery rfl]
      rfl

/-- The voltages that the settings name, where each driver's parser has them. -/
theorem Rover.get_chargeVoltages (device : Modbus.Device) :
    (Charger.rover.chargeVoltages device).get "boost_voltage_v" =
        some (.num ((device.registers 0xE007).toNat * (1 / 10))) ∧
      (Charger.rover.chargeVoltages device).get "float_voltage_v" =
        some (.num ((device.registers 0xE008).toNat * (1 / 10))) ∧
      (Charger.rover.chargeVoltages device).get "low_voltage_disconnect_v" =
        some (.num ((device.registers 0xE00B).toNat * (1 / 10))) ∧
      (Charger.rover.chargeVoltages device).get "low_voltage_reconnect_v" =
        some (.num ((device.registers 0xE00C).toNat * (1 / 10))) := by
  rw [← tenths_readReply device 0xE007 (show 0 < 6 by omega),
    ← tenths_readReply device 0xE007 (show 1 < 6 by omega),
    ← tenths_readReply device 0xE007 (show 4 < 6 by omega),
    ← tenths_readReply device 0xE007 (show 5 < 6 by omega)]
  simp [Charger.chargeVoltages, Rover.parseChargeVoltages, Dict.ofList, Dict.setAll]

theorem Dcc.get_chargeVoltages (device : Modbus.Device) :
    (Charger.dcc.chargeVoltages device).get "boost_voltage_v" =
        some (.num ((device.registers 0xE008).toNat * (1 / 10))) ∧
      (Charger.dcc.chargeVoltages device).get "float_voltage_v" =
        some (.num ((device.registers 0xE009).toNat * (1 / 10))) ∧
      (Charger.dcc.chargeVoltages device).get "low_voltage_disconnect_v" =
        some (.num ((device.registers 0xE00B).toNat * (1 / 10))) ∧
      (Charger.dcc.chargeVoltages device).get "low_voltage_reconnect_v" =
        some (.num ((device.registers 0xE00C).toNat * (1 / 10))) := by
  rw [← tenths_readReply device 0xE008 (show 0 < 6 by omega),
    ← tenths_readReply device 0xE008 (show 1 < 6 by omega),
    ← tenths_readReply device 0xE008 (show 3 < 6 by omega),
    ← tenths_readReply device 0xE008 (show 4 < 6 by omega)]
  simp [Charger.chargeVoltages, Dcc.parseChargeVoltages, Dict.ofList, Dict.setAll]

/-- No voltage section has the battery type. -/
theorem Charger.get_chargeVoltages_batteryType (charger : Charger) (device : Modbus.Device) :
    (charger.chargeVoltages device).get "battery_type" = none := by
  cases charger <;>
    simp [chargeVoltages, Rover.parseChargeVoltages, Dcc.parseChargeVoltages, Dict.ofList,
      Dict.setAll]

/-- A setting's field is the decoded content of the register it is polled from. -/
theorem Charger.get_poll_setting {charger : Charger} {setting : WritableSetting}
    (hSetting : setting ∈ charger.writableSettings) {field : String}
    (hField : setting.readFrom = some field) (label : String) (device : Modbus.Device) :
    (charger.poll label device.slaveId (deviceRequest device)).get field =
      some (setting.decode (device.registers (charger.polledRegister setting)).toNat) := by
  have hBattery := parseBatteryType_readReply device 57348
  have hNone := charger.get_chargeVoltages_batteryType device
  rw [Charger.get_poll]
  cases charger with
  | rover =>
      obtain ⟨hBoost, hFloat, hLvd, hLvr⟩ := Rover.get_chargeVoltages device
      simp only [writableSettings, Rover.writableSettings, List.mem_cons, List.not_mem_nil,
        or_false] at hSetting
      rcases hSetting with rfl | rfl | rfl | rfl | rfl <;> cases hField
      · rw [hNone, hBattery]
        simp [polledRegister]
      · rw [hBoost]
        simp [polledRegister]
      · rw [hFloat]
        simp [polledRegister]
      · rw [hLvd]
        simp [polledRegister]
      · rw [hLvr]
        simp [polledRegister]
  | dcc =>
      obtain ⟨hBoost, hFloat, hLvd, hLvr⟩ := Dcc.get_chargeVoltages device
      simp only [writableSettings, Dcc.writableSettings, List.mem_cons, List.not_mem_nil,
        or_false] at hSetting
      rcases hSetting with rfl | rfl | rfl | rfl | rfl <;> cases hField
      · rw [hNone, hBattery]
        simp [polledRegister]
      · rw [hBoost]
        simp [polledRegister]
      · rw [hFloat]
        simp [polledRegister]
      · rw [hLvd]
        simp [polledRegister]
      · rw [hLvr]
        simp [polledRegister]

theorem Charger.exists_readFrom {charger : Charger} {setting : WritableSetting}
    (hSetting : setting ∈ charger.writableSettings) :
    (∃ field, setting.readFrom = some field) ∧ setting.register < 65536 ∧
      ∀ choice ∈ setting.choices, 0 ≤ choice.1 ∧ choice.1 ≤ 0xFFFF := by
  cases charger <;>
    simp only [writableSettings, Rover.writableSettings, Dcc.writableSettings, List.mem_cons,
      List.not_mem_nil, or_false] at hSetting <;>
    rcases hSetting with rfl | rfl | rfl | rfl | rfl <;>
    exact ⟨⟨_, rfl⟩, by decide, by decide⟩

/-- In terms of the registers: the polled register of the setting decodes to the
written value, and those of the others decode to what they did. -/
theorem settingApplied_iff {charger : Charger} {setting : WritableSetting}
    (hSetting : setting ∈ charger.writableSettings) {field : String}
    (hField : setting.readFrom = some field) (label : String) (value : Int)
    (before after : Modbus.Device) :
    SettingApplied charger label setting field value before after ↔
      setting.decode (after.registers (charger.polledRegister setting)).toNat =
          setting.decode value ∧
        ∀ other ∈ charger.writableSettings, other.key ≠ setting.key →
          other.decode (after.registers (charger.polledRegister other)).toNat =
            other.decode (before.registers (charger.polledRegister other)).toNat := by
  unfold SettingApplied
  rw [Charger.get_poll_setting hSetting hField, Option.some.injEq]
  refine and_congr_right fun _ => forall_congr' fun other => forall_congr' fun hOther => ?_
  obtain ⟨⟨otherField, hOtherField⟩, _⟩ := Charger.exists_readFrom hOther
  constructor
  · intro h hKey
    have hGet := h hKey otherField hOtherField
    rw [Charger.get_poll_setting hOther hOtherField,
      Charger.get_poll_setting hOther hOtherField] at hGet
    exact Option.some.inj hGet
  · intro h hKey f hf
    rw [Charger.get_poll_setting hOther hf, Charger.get_poll_setting hOther hf, h hKey]

/-- The registers that the poll reads hold the written value beforehand, where
the Rover's descriptor names another register than its poll reads. -/
def Charger.PolledAlready (charger : Charger) (setting : WritableSetting) (value : Int)
    (device : Modbus.Device) : Prop :=
  charger = .rover →
    (setting.key = "boost_voltage" → (device.registers 0xE007).toNat = value ∧
      (device.registers 0xE008).toNat = value) ∧
    (setting.key = "float_voltage" → (device.registers 0xE008).toNat = value)

theorem settingApplied_write_iff {charger : Charger} {setting : WritableSetting}
    (hSetting : setting ∈ charger.writableSettings) {field : String}
    (hField : setting.readFrom = some field) (label : String) (stored : UInt16)
    (device : Modbus.Device) :
    SettingApplied charger label setting field stored.toNat device
        (device.write setting.register stored) ↔
      charger.PolledAlready setting stored.toNat device := by
  rw [settingApplied_iff hSetting hField]
  cases charger with
  | rover =>
      simp only [Charger.writableSettings, Rover.writableSettings, List.mem_cons,
        List.not_mem_nil, or_false] at hSetting
      rcases hSetting with rfl | rfl | rfl | rfl | rfl <;>
        simp [Charger.writableSettings, Rover.writableSettings, Charger.PolledAlready,
          Charger.polledRegister, eq_comm (a := stored.toNat)]
  | dcc =>
      simp only [Charger.writableSettings, Dcc.writableSettings, List.mem_cons,
        List.not_mem_nil, or_false] at hSetting
      rcases hSetting with rfl | rfl | rfl | rfl | rfl <;>
        simp [Charger.writableSettings, Dcc.writableSettings, Charger.PolledAlready,
          Charger.polledRegister]

/-- A setting that the page accepts and writes is polled back, and no other
setting's field moves, exactly when the registers that the poll reads held the
value already where they are not the register that is written. -/
theorem polled_setting_eq_written_iff (charger : Charger) (setting : WritableSetting)
    (hSetting : setting ∈ charger.writableSettings) {field : String}
    (hField : setting.readFrom = some field) (rawValue : PyVal) {value : Int}
    (hAccepted : setting.encode rawValue = .ok value) (device : Modbus.Device) (label : String)
    (link : Link) (hDelivered : link.write.Delivers) :
    ∃ result after,
      writeSettingRegister device device.slaveId setting.register value true link =
          .ok (result, after) ∧
        (SettingApplied charger label setting field value device after ↔
          charger.PolledAlready setting value device) := by
  obtain ⟨_, hRegister, hChoices⟩ := Charger.exists_readFrom hSetting
  have hValue := setting.encode_range hChoices hAccepted
  have hStored : ((UInt16.ofNat value.toNat).toNat : Int) = value := by
    rw [UInt16.toNat_ofNat']
    omega
  obtain ⟨result, hWrite⟩ := writeSettingRegister_device device hRegister hValue true link
    hDelivered
  have hApplied := settingApplied_write_iff hSetting hField label (UInt16.ofNat value.toNat) device
  rw [hStored] at hApplied
  exact ⟨result, _, hWrite, hApplied⟩

/-- A Rover with a boost voltage of 14.4 V, a float voltage of 13.8 V and zeros
elsewhere. -/
def sampleRover : Modbus.Device where
  slaveId := 1
  registers := fun r => if r = 0xE007 then 144 else if r = 0xE008 then 138 else 0

def boostVoltage : WritableSetting :=
  voltageSetting "boost_voltage" 0xE008 "boost_voltage_v" 12 16

def lowVoltageReconnect : WritableSetting :=
  voltageSetting "low_voltage_reconnect" 0xE00C "low_voltage_reconnect_v" (105 / 10) (135 / 10)

theorem polled_setting_eq_written_lowVoltageReconnect :
    ∃ result after,
      writeSettingRegister sampleRover 1 0xE00C 126 true ⟨.replyLost, .answered⟩ =
          .ok (result, after) ∧
        (SettingApplied .rover "rover" lowVoltageReconnect "low_voltage_reconnect_v" 126
            sampleRover after ↔
          Charger.rover.PolledAlready lowVoltageReconnect 126 sampleRover) :=
  polled_setting_eq_written_iff .rover lowVoltageReconnect (List.mem_of_getLast? rfl) rfl
    (.num (126 / 10)) (by decide +kernel) sampleRover "rover" ⟨.replyLost, .answered⟩ trivial

/-- 14.2 V for the boost voltage goes to 0xE008, where the poll finds the float
voltage; the boost voltage is still the 14.4 V of 0xE007. -/
theorem rover_boostVoltage_not_polled :
    boostVoltage ∈ Charger.rover.writableSettings ∧
      boostVoltage.encode (.num (142 / 10)) = .ok 142 ∧
      ∃ result after,
        writeSettingRegister sampleRover 1 0xE008 142 true ⟨.answered, .answered⟩ =
            .ok (result, after) ∧
          ¬ SettingApplied .rover "rover" boostVoltage "boost_voltage_v" 142 sampleRover after := by
  have hSetting : boostVoltage ∈ Charger.rover.writableSettings := by
    simp [Charger.writableSettings, Rover.writableSettings, boostVoltage]
  obtain ⟨result, hWrite⟩ := writeSettingRegister_device sampleRover
    (show 0xE008 < 65536 by decide) (show 0 ≤ (142 : Int) ∧ (142 : Int) ≤ 0xFFFF by decide) true
    ⟨.answered, .answered⟩ trivial
  refine ⟨hSetting, by decide +kernel, result, _, hWrite, ?_⟩
  rw [settingApplied_iff hSetting rfl]
  intro hApplied
  exact absurd hApplied.1 (by decide +kernel)

end Renogy

end WattPost.Vendors
