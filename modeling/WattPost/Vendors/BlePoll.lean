import WattPost.Transport.BleModbus
import WattPost.Vendors.Renogy

/-! Polls over the Bluetooth link. A reply carries no register number, so that a late
answer to an earlier read of the same size is a clean reply to the read that waits. -/
namespace WattPost.Vendors

open AnswerLine BleModbus Modbus

/-- The frame of a section's read. -/
def RegisterSection.frame (section_ : RegisterSection) (slaveId : UInt8) : Bytes :=
  requestFrame slaveId (if section_.functionCode = 4 then 4 else 3) section_.register
    section_.wordCount

/-- The length of the reply that a section waits for. -/
def RegisterSection.expected (section_ : RegisterSection) : ℕ :=
  expectedReadResponseLen section_.wordCount

theorem readSection_response_iff {request : Request} {slaveId : UInt8}
    {section_ : RegisterSection} {bytes : Bytes} :
    readSection request slaveId section_ = .response bytes ↔
      request (section_.frame slaveId) = .ok bytes ∧
        verifyResponse bytes slaveId section_.functionCode (some section_.expected) = .ok () := by
  have hFrame : (if section_.functionCode = 4 then
      buildReadInput slaveId section_.register section_.wordCount
      else buildReadHolding slaveId section_.register section_.wordCount) =
      section_.frame slaveId := by
    rw [RegisterSection.frame]
    split_ifs <;> rfl
  rw [readSection, hFrame, RegisterSection.expected]
  cases hRequest : request (section_.frame slaveId) with
  | error message => simp
  | ok resp =>
      cases hVerify : verifyResponse resp slaveId section_.functionCode
          (some (expectedReadResponseLen section_.wordCount)) with
      | error message =>
          simp only [hVerify, reduceCtorEq, false_iff, Except.ok.injEq, not_and]
          rintro rfl
          simp [hVerify]
      | ok u =>
          simp only [hVerify, SectionRead.response.injEq, Except.ok.injEq]
          refine ⟨fun h => ⟨h, h ▸ hVerify⟩, And.left⟩

namespace OverBle

variable {σ ε : Type}

/-- What `DeviceDriver.poll` makes of a request: the bytes, or the text of its error. -/
def reply (t : BleModbusTransport σ ε) : Outcome → Except String Bytes
  | .reply bytes => .ok (bytes.map Octet.byte)
  | .timeout => .error ("no response within 5.0s on transport " ++ t.id)
  | .notOpen => .error ("transport " ++ t.id ++ " is not open")
  | .writeFailed kind _ => .error ("parser error (" ++ kind ++ ")")

def requestSection (t : BleModbusTransport σ ε) (slaveId : UInt8) (section_ : RegisterSection)
    (attempt : Attempt ε) (s : State UInt8 σ) : Outcome × State UInt8 σ :=
  t.request (section_.frame slaveId) section_.expected attempt s

/-- One section of `DeviceDriver.poll` over the link. -/
def readSection (t : BleModbusTransport σ ε) (slaveId : UInt8) (section_ : RegisterSection)
    (attempt : Attempt ε) (s : State UInt8 σ) : SectionRead × State UInt8 σ :=
  (Vendors.readSection (fun frame => reply t (t.request frame section_.expected attempt s).1)
      slaveId section_,
    (requestSection t slaveId section_ attempt s).2)

/-- A section with what happens before its read and during it. -/
structure Turn (ε : Type) where
  section_ : RegisterSection
  pause : List (Event ε)
  attempt : Attempt ε

/-- `DeviceDriver.poll` over the link. -/
def poll (t : BleModbusTransport σ ε) (slaveId : UInt8) :
    List (Turn ε) → PollDict → State UInt8 σ → PollDict × State UInt8 σ
  | [], result, s => (result, s)
  | turn :: turns, result, s =>
      let paused := Runs.run (AnswerLine.step t.device.toServer) s turn.pause
      let read := readSection t slaveId turn.section_ turn.attempt paused
      poll t slaveId turns (pollSection result turn.section_.toSection read.1) read.2

/-! ### Runs -/

/-- What happens on a transport: something while nobody asks, a section read, or any
other request. -/
inductive Call (ε : Type) where
  | happen (event : Event ε)
  | read (slaveId : UInt8) (section_ : RegisterSection) (attempt : Attempt ε)
  | request (frame : Bytes) (expected : ℕ) (attempt : Attempt ε)

def step (t : BleModbusTransport σ ε) (s : State UInt8 σ) : Call ε → State UInt8 σ
  | .happen event => AnswerLine.step t.device.toServer s event
  | .read slaveId section_ attempt => (readSection t slaveId section_ attempt s).2
  | .request frame expected attempt => (t.request frame expected attempt s).2

def Turn.calls (slaveId : UInt8) (turn : Turn ε) : List (Call ε) :=
  turn.pause.map .happen ++ [.read slaveId turn.section_ turn.attempt]

theorem numbered_step {t : BleModbusTransport σ ε} {s : State UInt8 σ} (h : Numbered s)
    (call : Call ε) : Numbered (step t s call) := by
  cases call with
  | happen event => exact h.step event
  | read slaveId section_ attempt => exact numbered_request h _ _ attempt
  | request frame expected attempt => exact numbered_request h frame expected attempt

theorem numbered_run {t : BleModbusTransport σ ε} {s : State UInt8 σ} (h : Numbered s)
    (calls : List (Call ε)) : Numbered (Runs.run (step t) s calls) := by
  have hStep : ∀ (s : State UInt8 σ) (call : Call ε), Numbered s → Numbered (step t s call) :=
    fun _ call hs => numbered_step hs call
  exact Runs.run_preserves hStep h calls

/-! ### Pairing -/

/-- The bytes a section's parser gets are the device's answer to the read of that
section: every one of them, and they are all of it. -/
def Paired (t : BleModbusTransport σ ε) (s : State UInt8 σ) : Call ε → Prop
  | .read slaveId section_ attempt => ∀ bytes,
      (readSection t slaveId section_ attempt s).1 = .response bytes →
        Given t.device.toServer (requestSection t slaveId section_ attempt s).2 s.sent
            (section_.frame slaveId) bytes ∧
          (requestSection t slaveId section_ attempt s).1 = .reply (octets s.sent bytes)
  | _ => True

/-- What arrives begins with a byte of an answer to an earlier request, and has the
slave id, function code, length, byte count and checksum of a reply to this read. -/
def Mistakable (t : BleModbusTransport σ ε) (s : State UInt8 σ) : Call ε → Prop
  | .read slaveId section_ attempt => ∃ events first,
      attempt = .waits events ∧
        (wait t.device.toServer (section_.frame slaveId) events s).buf.head? = some first ∧
        first.origin ≠ s.sent ∧
        verifyResponse
          (((wait t.device.toServer (section_.frame slaveId) events s).buf.take
            section_.expected).map Octet.byte)
          slaveId section_.functionCode (some section_.expected) = .ok ()
  | _ => False

variable {t : BleModbusTransport σ ε} {s : State UInt8 σ}

theorem readSection_eq_response_iff {slaveId : UInt8} {section_ : RegisterSection}
    {attempt : Attempt ε} {bytes : Bytes} :
    (readSection t slaveId section_ attempt s).1 = .response bytes ↔
      ∃ events, attempt = .waits events ∧
        section_.expected ≤ (wait t.device.toServer (section_.frame slaveId) events s).buf.length ∧
        ((wait t.device.toServer (section_.frame slaveId) events s).buf.take
          section_.expected).map Octet.byte = bytes ∧
        verifyResponse bytes slaveId section_.functionCode (some section_.expected) = .ok () := by
  have hReply : ∀ outcome, reply t outcome = .ok bytes ↔
      ∃ os, outcome = .reply os ∧ os.map Octet.byte = bytes := by
    intro outcome
    cases outcome <;> simp [reply]
  rw [readSection, readSection_response_iff, hReply]
  constructor
  · rintro ⟨⟨os, hOutcome, hBytes⟩, hVerify⟩
    obtain ⟨events, hAttempt, hEnough, hTake⟩ := request_eq_reply_iff.mp hOutcome
    exact ⟨events, hAttempt, hEnough, hTake ▸ hBytes, hVerify⟩
  · rintro ⟨events, hAttempt, hEnough, hBytes, hVerify⟩
    exact ⟨⟨_, request_eq_reply_iff.mpr ⟨events, hAttempt, hEnough, rfl⟩, hBytes⟩, hVerify⟩

/-- A clean reply has the length that was asked for, and says so. -/
theorem length_of_verifyResponse {resp : Bytes} {slaveId : UInt8} {fc len : ℕ}
    (h : verifyResponse resp slaveId fc (some len) = .ok ()) :
    5 ≤ resp.length ∧ resp.length = len ∧ (resp.getD 2 0).toNat = len - 5 := by
  simp only [verifyResponse] at h
  split_ifs at h with hShort hSlave hError hFc hCrc hLen hCount
  exact ⟨by omega, not_not.mp hLen, not_not.mp hCount⟩

theorem length_le_expected {t : BleModbusTransport σ ε} {slaveId : UInt8}
    {section_ : RegisterSection} (before : σ) (answer : Bytes)
    (h : (t.device.serve before (section_.frame slaveId)).1 = some answer) :
    answer.length ≤ section_.expected := by
  refine t.device.fits before slaveId _ _ _ answer ?_ h
  split_ifs
  · exact Or.inr rfl
  · exact Or.inl rfl

theorem paired_iff_not_mistakable (h : Numbered s) (call : Call ε) :
    Paired t s call ↔ ¬ Mistakable t s call := by
  cases call with
  | happen event => simp [Paired, Mistakable]
  | request frame expected attempt => simp [Paired, Mistakable]
  | read slaveId section_ attempt =>
      constructor
      · rintro hPaired ⟨events, first, rfl, hHead, hOther, hVerify⟩
        obtain ⟨hPos, hLength, _⟩ := length_of_verifyResponse hVerify
        rw [List.length_map, List.length_take] at hPos hLength
        have hRead := readSection_eq_response_iff.mpr ⟨events, rfl, by omega, rfl, hVerify⟩
        obtain ⟨_, hOutcome⟩ := hPaired _ hRead
        obtain ⟨events', hEvents, _, hTake⟩ := request_eq_reply_iff.mp hOutcome
        cases hEvents
        obtain ⟨rest, hBuf⟩ := List.head?_eq_some_iff.mp hHead
        have hMem : first ∈ (wait t.device.toServer (section_.frame slaveId) events s).buf.take
            section_.expected := by
          rw [hBuf, List.take_cons (by omega)]
          exact List.mem_cons_self
        rw [hTake] at hMem
        exact hOther (origin_of_mem_octets hMem)
      · intro hClean bytes hRead
        obtain ⟨events, rfl, hEnough, hBytes, hVerify⟩ := readSection_eq_response_iff.mp hRead
        obtain ⟨hPos, hLength, _⟩ := length_of_verifyResponse hVerify
        obtain ⟨first, rest, hBuf⟩ := List.exists_cons_of_length_pos
          (show 0 < (wait t.device.toServer (section_.frame slaveId) events s).buf.length by omega)
        have hHead : (wait t.device.toServer (section_.frame slaveId) events s).buf.head? =
            some first := by
          rw [hBuf]
          rfl
        have hOwn : first.origin = s.sent := by
          by_contra hOther
          exact hClean ⟨events, first, rfl, hHead, hOther, hBytes ▸ hVerify⟩
        obtain ⟨others, before, answer, hHandled, _, hAnswer, _, hTake⟩ :=
          reply_of_head h length_le_expected hHead hOwn hEnough
        have hSame : bytes = answer := by rw [← hBytes, hTake, map_byte_octets]
        have hOutcome : (requestSection t slaveId section_ (.waits events) s).1 =
            .reply (octets s.sent bytes) :=
          request_eq_reply_iff.mpr ⟨events, rfl, hEnough, hSame ▸ hTake⟩
        refine ⟨⟨before, ?_, hSame ▸ hAnswer⟩, hOutcome⟩
        have hAfter : (requestSection t slaveId section_ (.waits events) s).2 =
            wait t.device.toServer (section_.frame slaveId) events s := by
          rw [requestSection, request_waits_snd]
        rw [hAfter, hHandled]
        exact List.mem_append_right _ List.mem_cons_self

/-- The parsers get the answers to their own reads exactly in the runs in which nothing
that arrives can be mistaken. -/
theorem sections_paired_iff (t : BleModbusTransport σ ε) (start : σ) (calls : List (Call ε)) :
    Runs.StepsOk (step t) (fun _ s call => Paired t s call) (State.start start) calls ↔
      Runs.StepsOk (step t) (fun _ s call => ¬ Mistakable t s call) (State.start start) calls := by
  have hReached (before : List (Call ε)) :=
    numbered_run (t := t) (numbered_start (β := UInt8) start) before
  constructor
  · intro h before call after hCalls
    exact (paired_iff_not_mistakable (hReached before) call).mp (h before call after hCalls)
  · intro h before call after hCalls
    exact (paired_iff_not_mistakable (hReached before) call).mpr (h before call after hCalls)

/-! ### What can be mistaken -/

/-- Where nothing is owed to earlier requests, nothing can be mistaken. -/
theorem not_mistakable_of_quiet (hQuiet : Quiet s) (call : Call ε) : ¬ Mistakable t s call := by
  cases call with
  | happen event => exact id
  | request frame expected attempt => exact id
  | read slaveId section_ attempt =>
      rintro ⟨events, first, _, hHead, hOther, _⟩
      exact hOther (hQuiet.origin_of_mem_buf (List.mem_of_mem_head? hHead))

/-- A late answer to a read of another size is refused by its byte count. -/
theorem verifyResponse_other_size {words : List ℕ} {slaveId fc slaveId' : UInt8} {fc' count : ℕ}
    (hWords : words.length ≤ 125) (hCount : count ≤ 125) (hOther : words.length ≠ count)
    (more : Bytes) :
    verifyResponse ((readReply slaveId fc words ++ more).take (expectedReadResponseLen count))
      slaveId' fc' (some (expectedReadResponseLen count)) ≠ .ok () := by
  intro h
  obtain ⟨_, _, hThird⟩ := length_of_verifyResponse h
  have hByteCount : ((readReply slaveId fc words ++ more).take
      (expectedReadResponseLen count)).getD 2 0 = UInt8.ofNat (words.length * 2) := by
    rw [show expectedReadResponseLen count = count * 2 + 2 + 3 by
      rw [expectedReadResponseLen]
      ring]
    rfl
  rw [hByteCount, UInt8.toNat_ofNat', expectedReadResponseLen] at hThird
  omega

/-- A late answer to a read of the same size is taken for the own one. -/
theorem late_answer_mistakable {slaveId : UInt8} {section_ : RegisterSection} (words : List ℕ)
    (j : ℕ) (rest : List (Octet UInt8))
    (hLine : s.line = octets j (readReply slaveId 3 words) ++ rest)
    (hFc : section_.functionCode = 3) (hSize : words.length = section_.wordCount)
    (hCount : section_.wordCount ≤ 125) (hLate : j ≠ s.sent) :
    Mistakable t s (.read slaveId section_ (.waits [.arrive section_.expected])) := by
  have hLength : (octets j (readReply slaveId 3 words)).length = section_.expected := by
    rw [length_octets, length_readReply, hSize, RegisterSection.expected, expectedReadResponseLen]
    omega
  have hBuf := buf_wait_late t.device.toServer _ rest hLine
    (section_.frame slaveId)
  rw [hLength] at hBuf
  refine ⟨_, ⟨j, slaveId⟩, rfl, ?_, hLate, ?_⟩
  · rw [hBuf]
    rfl
  · rw [hBuf, List.take_of_length_le hLength.le, map_byte_octets, hFc, RegisterSection.expected,
      ← hSize]
    exact verifyResponse_readReply slaveId (hSize ▸ hCount)

/-- A read times out, its answer comes while a read of the same size waits, and the
second section's parser gets it. -/
theorem mistakable_after_timeout (id : String) (device : Modbus.Device) (a b : RegisterSection)
    (hRegister : a.register < 65536) (hPos : 1 ≤ a.wordCount) (hCount : a.wordCount ≤ 125)
    (hSame : b.wordCount = a.wordCount) (hFcA : a.functionCode = 3) (hFcB : b.functionCode = 3) :
    Mistakable ⟨id, registerFile⟩
      (Runs.run (step ⟨id, registerFile⟩) (State.start device)
        [.read device.slaveId a (.waits []), .happen (.serve true)])
      (.read device.slaveId b (.waits [.arrive b.expected])) := by
  have hFrame : a.frame device.slaveId =
      buildReadHolding device.slaveId a.register a.wordCount := by
    rw [RegisterSection.frame, if_neg (by omega)]
    rfl
  have hRespond := respond_buildReadHolding device hRegister hPos hCount
  have hWords : (device.words a.register a.wordCount).length = b.wordCount := by
    rw [Modbus.Device.words, List.length_map, List.length_range, hSame]
  have hTimeout : ¬ a.expected ≤ 0 := by
    rw [RegisterSection.expected, expectedReadResponseLen]
    omega
  refine late_answer_mistakable (device.words a.register a.wordCount) 0 [] ?_ hFcB hWords
    (by omega) ?_
  · simp [Runs.run, step, readSection, requestSection, BleModbusTransport.request, wait, send,
      AnswerLine.step, State.take, State.start, registerFile, hFrame, hRespond, hTimeout]
  · simp [Runs.run, step, readSection, requestSection, BleModbusTransport.request, wait, send,
      AnswerLine.step, State.take, State.start, hTimeout]

end OverBle

/-! ### The smart battery -/

/-- `RenogySmartBattery.sections`. -/
def Renogy.SmartBattery.registerSections : List RegisterSection :=
  [{ register := 5000, wordCount := 17, parser := some ∘ parseCellVoltages,
     name := "cell_voltages" },
    { register := 5017, wordCount := 17, parser := some ∘ parseCellTemperaturesC,
      name := "cell_temperatures" },
    { register := 5042, wordCount := 6, parser := some ∘ parseBatteryInfo,
      name := "battery_info" },
    { register := 5117, wordCount := 4, parser := some ∘ parseFirmware, name := "firmware" },
    { register := 5120, wordCount := 8, parser := some ∘ parseSerial, name := "serial" },
    { register := 5122, wordCount := 8, parser := some ∘ parseDeviceInfo, name := "device_info" },
    { register := 5223, wordCount := 1, parser := some ∘ parseDeviceAddress,
      name := "device_address" }]

namespace OverBle

def battery : Modbus.Device := ⟨48, fun register => UInt16.ofNat register⟩

/-- The answer to a read of the cell voltages that came late is taken for the cell
temperatures. -/
theorem voltages_taken_for_temperatures :
    ¬ ∀ (t : BleModbusTransport Modbus.Device (ℕ → UInt16)) (start : Modbus.Device)
        (calls : List (Call (ℕ → UInt16))),
      Runs.StepsOk (step t) (fun _ s call => Paired t s call) (State.start start) calls := by
  intro h
  have hMistaken := mistakable_after_timeout "bt2" battery
    Renogy.SmartBattery.registerSections[0] Renogy.SmartBattery.registerSections[1]
    (by decide) (by decide) (by decide) rfl rfl rfl
  have hPaired := h ⟨"bt2", registerFile⟩ battery _
    [.read 48 Renogy.SmartBattery.registerSections[0] (.waits []), .happen (.serve true)]
    (.read 48 Renogy.SmartBattery.registerSections[1] (.waits [.arrive 39])) [] rfl
  have hReached := numbered_run (t := ⟨"bt2", registerFile⟩) (numbered_start battery)
    [.read 48 Renogy.SmartBattery.registerSections[0] (.waits []), .happen (.serve true)]
  exact (paired_iff_not_mistakable hReached _).mp hPaired hMistaken

end OverBle

end WattPost.Vendors
