import WattPost.Lib.PyDict
import WattPost.Transport.Modbus

/-! What every driver shares: the header of a result, the default poll over
register sections, and the way a silent device is reported. Numbers that a
driver decodes are the exact rationals its arithmetic stands for. -/
namespace WattPost.Vendors

open PyDict

/-- The result of a driver's `poll`. -/
abbrev PollDict := Dict PyVal

abbrev Bytes := List UInt8

/-- `b[off]`; the drivers only read within the length they checked. -/
def byte (b : Bytes) (off : Nat) : Nat := (b.getD off 0).toNat

/-- `_u16` and `_u32`: big-endian words. -/
def u16 (b : Bytes) (off : Nat) : Nat := byte b off * 256 + byte b (off + 1)

def u32 (b : Bytes) (off : Nat) : Nat := u16 b off * 65536 + u16 b (off + 2)

/-- `_i16`. -/
def i16 (b : Bytes) (off : Nat) : Int :=
  let v := u16 b off
  if v ≥ 0x8000 then (v : Int) - 0x10000 else v

/-- The four keys that every driver sets first. -/
def header (vendorId deviceKind label : String) (slaveId : Int) : PollDict :=
  Dict.ofList
    [("_vendor", .text vendorId), ("_kind", .text deviceKind), ("_label", .text label),
      ("_slave_id", .num slaveId)]

@[simp] theorem get_header (vendorId deviceKind label k : String) (slaveId : Int) :
    (header vendorId deviceKind label slaveId).get k =
      if k = "_slave_id" then some (.num slaveId)
      else if k = "_label" then some (.text label)
      else if k = "_kind" then some (.text deviceKind)
      else if k = "_vendor" then some (.text vendorId)
      else none := by
  simp [header, Dict.ofList, Dict.setAll]

/-- `result["_errors"] = [message]`. -/
def fail (result : PollDict) (message : String) : PollDict := result.set "_errors" (.list [message])

/-- `result.setdefault("_errors", []).append(message)`. -/
def addError (result : PollDict) (message : String) : PollDict :=
  match result.get "_errors" with
  | some (.list errors) => result.set "_errors" (.list (errors ++ [message]))
  | _ => result.set "_errors" (.list [message])

/-- One register section: its name and its parser, which may raise. -/
structure Section where
  name : String
  parser : Bytes → Option PollDict

/-- What the transport makes of a request: a verified response, or an error. -/
inductive SectionRead where
  | response (bytes : Bytes)
  | failed (message : String)

def pollSection (result : PollDict) (section_ : Section) : SectionRead → PollDict
  | .failed message => addError result ("section " ++ section_.name ++ ": " ++ message)
  | .response bytes =>
      match section_.parser bytes with
      | some parsed => result.update parsed
      | none => addError result ("section " ++ section_.name ++ ": parser error")

/-- `DeviceDriver.poll`: each section in turn, and the parsed dictionaries merged. -/
def poll (result : PollDict) (sections : List (Section × SectionRead)) : PollDict :=
  sections.foldl (fun result s => pollSection result s.1 s.2) result

/-! ### Register sections over a transport -/

/-- A section with the registers it reads. -/
structure RegisterSection extends Section where
  register : Nat
  wordCount : Nat
  functionCode : Nat := 3

/-- What `transport.request` makes of a frame: a reply, or a transport error. -/
abbrev Request := Bytes → Except String Bytes

/-- One section of `DeviceDriver.poll`: the request and the check of its reply. -/
def readSection (request : Request) (slaveId : UInt8) (section_ : RegisterSection) :
    SectionRead :=
  let frame :=
    if section_.functionCode = 4 then
      Modbus.buildReadInput slaveId section_.register section_.wordCount
    else Modbus.buildReadHolding slaveId section_.register section_.wordCount
  match request frame with
  | .error message => .failed message
  | .ok resp =>
      match Modbus.verifyResponse resp slaveId section_.functionCode
          (some (Modbus.expectedReadResponseLen section_.wordCount)) with
      | .error message => .failed message
      | .ok () => .response resp

/-- The poll of a driver's register sections. -/
def pollSections (result : PollDict) (request : Request) (slaveId : UInt8)
    (sections : List RegisterSection) : PollDict :=
  poll result (sections.map fun s => (s.toSection, readSection request slaveId s))

/-- The last section that was read has the last word on its keys. -/
theorem get_pollSections_concat {result : PollDict} {request : Request} {slaveId : UInt8}
    {sections : List RegisterSection} {last : RegisterSection} {bytes : Bytes} {parsed : PollDict}
    (hRead : readSection request slaveId last = .response bytes)
    (hParse : last.parser bytes = some parsed) (k : String) :
    (pollSections result request slaveId (sections ++ [last])).get k =
      (parsed.get k).or ((pollSections result request slaveId sections).get k) := by
  simp [pollSections, poll, pollSection, hRead, hParse]

/-- The transport of a device on a link that delivers everything. -/
def deviceRequest (device : Modbus.Device) : Request := fun frame =>
  match (device.respond frame).1 with
  | some resp => .ok resp
  | none => .error "timeout"

/-- A section that fits one frame reads the words of its registers. -/
theorem readSection_deviceRequest (device : Modbus.Device) (section_ : RegisterSection)
    (hFc : section_.functionCode = 3) (hRegister : section_.register < 65536)
    (hPos : 1 ≤ section_.wordCount) (hCount : section_.wordCount ≤ 125) :
    readSection (deviceRequest device) device.slaveId section_ =
      .response (Modbus.readReply device.slaveId 3
        (device.words section_.register section_.wordCount)) := by
  have hLength : (device.words section_.register section_.wordCount).length =
      section_.wordCount := by
    simp [Modbus.Device.words]
  have hVerify := Modbus.verifyResponse_readReply device.slaveId
    (show (device.words section_.register section_.wordCount).length ≤ 125 by omega)
  rw [hLength] at hVerify
  simp [readSection, deviceRequest, hFc, hVerify,
    Modbus.respond_buildReadHolding device hRegister hPos hCount]

/-! ### Settings that the user can change -/

/-- The kinds a driver declares. -/
inductive SettingKind where
  | enum
  | float
  | int
deriving DecidableEq

/-- `WritableSetting`, without the texts of the page. -/
structure WritableSetting where
  key : String
  kind : SettingKind
  register : Nat
  readFrom : Option String := none
  choices : List (Int × String) := []
  min : Option ℚ := none
  max : Option ℚ := none
  scale : ℚ := 1

/-! ### Silent devices -/

/-- The age that a transport reports: no such method, nothing heard yet, or the
seconds since the last frame. -/
inductive FrameAge where
  | unavailable
  | never
  | seconds (age : ℚ)

/-- `NEVER_SEEN_SENTINEL_S`. -/
def neverSeenSentinelS : ℚ := 86400

/-- `stamp_advertisement_age`. -/
def stampAdvertisementAge (result : PollDict) : FrameAge → PollDict
  | .unavailable => result
  | .never => result.set "advertisement_age_s" (.num neverSeenSentinelS)
  | .seconds age => result.set "advertisement_age_s" (.num (age.num.tdiv age.den))

/-- `mark_silent`. -/
def markSilent (result : PollDict) (age : FrameAge) : PollDict :=
  let stamped := stampAdvertisementAge result age
  match stamped.get "advertisement_age_s" with
  | some (.num seconds) =>
      fail stamped ("no fresh advertisement (last seen " ++ toString seconds.num ++ "s ago)")
  | _ => fail stamped "no advertisement received yet"

/-- `if age is not None: result["advertisement_age_s"] = age`. -/
def stampAge (result : PollDict) (age : Option ℚ) : PollDict :=
  result.setSome "advertisement_age_s" (age.map .num)

/-- The poll delivered no measurement: there are only internal keys and the age. -/
def NoMeasurement (d : PollDict) : Prop :=
  ∀ k ∈ d.keys, PyText.startsWith k "_" = true ∨ k = "advertisement_age_s"

instance (d : PollDict) : Decidable (NoMeasurement d) :=
  inferInstanceAs (Decidable (∀ k ∈ d.keys, _))

theorem NoMeasurement.get {d : PollDict} (h : NoMeasurement d) {k : String}
    (hk : PyText.startsWith k "_" = false) (hAge : k ≠ "advertisement_age_s") :
    d.get k = none := by
  rw [Dict.get_eq_none_iff]
  intro hMem
  rcases h k hMem with hStart | hEq
  · rw [hStart] at hk
    cases hk
  · exact hAge hEq

theorem NoMeasurement.set {d : PollDict} (h : NoMeasurement d) {k : String}
    (hk : PyText.startsWith k "_" = true ∨ k = "advertisement_age_s") (v : PyVal) :
    NoMeasurement (d.set k v) := by
  intro k' hMem
  rcases mem_keys_setEntry.mp hMem with rfl | hOld
  · exact hk
  · exact h k' hOld

theorem noMeasurement_header (vendorId deviceKind label : String) (slaveId : Int) :
    NoMeasurement (header vendorId deviceKind label slaveId) := by
  have hKeys : (header vendorId deviceKind label slaveId).keys =
      ["_vendor", "_kind", "_label", "_slave_id"] := by
    simp [header, Dict.ofList, Dict.setAll, Dict.set, Dict.empty, Dict.keys, setEntry]
  have hInternal : ∀ k ∈ ["_vendor", "_kind", "_label", "_slave_id"],
      PyText.startsWith k "_" = true := by decide
  intro k hMem
  exact Or.inl (hInternal k (hKeys ▸ hMem))

theorem NoMeasurement.addError {d : PollDict} (h : NoMeasurement d) (message : String) :
    NoMeasurement (addError d message) := by
  unfold Vendors.addError
  split <;> exact h.set (Or.inl (by decide)) _

/-- A poll in which every section read failed delivers nothing. -/
theorem NoMeasurement.poll {d : PollDict} (h : NoMeasurement d)
    {sections : List (Section × SectionRead)}
    (hFailed : ∀ s ∈ sections, ∃ message, s.2 = .failed message) :
    NoMeasurement (poll d sections) := by
  induction sections generalizing d with
  | nil => exact h
  | cons s sections ih =>
      obtain ⟨message, hs⟩ := hFailed s (List.mem_cons_self ..)
      refine ih ?_ (fun s' hs' => hFailed s' (List.mem_cons_of_mem _ hs'))
      show NoMeasurement (pollSection d s.1 s.2)
      rw [hs]
      exact h.addError _

theorem NoMeasurement.stampAge {d : PollDict} (h : NoMeasurement d) (age : Option ℚ) :
    NoMeasurement (stampAge d age) := by
  cases age with
  | none => exact h
  | some age => exact h.set (Or.inr rfl) _

/-- A silent device delivers nothing. -/
theorem NoMeasurement.markSilent {d : PollDict} (h : NoMeasurement d) (age : FrameAge) :
    NoMeasurement (markSilent d age) := by
  have hStamped : NoMeasurement (stampAdvertisementAge d age) := by
    cases age with
    | unavailable => exact h
    | never => exact h.set (Or.inr rfl) _
    | seconds age => exact h.set (Or.inr rfl) _
  unfold Vendors.markSilent
  dsimp only
  split <;> exact hStamped.set (Or.inl (by decide)) _

end WattPost.Vendors
