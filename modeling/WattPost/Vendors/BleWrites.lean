import WattPost.Outputs.Service
import WattPost.Transport.BleModbus
import WattPost.Vendors.SettingsWrite

/-! Confirmed register writes over the Bluetooth link. The write counts as confirmed by
what looks like its echo, or by a read-back that shows the value; neither is tied to the
request that it answers. -/
namespace WattPost.Vendors

open AnswerLine BleModbus Modbus

/-- A device whose registers can be written. A full answer to a write is its echo, which
comes after the register is written; a full answer to the read of one register shows
its contents. What has been applied stays applied. -/
structure WritablePeripheral (σ ε : Type) extends Peripheral σ ε where
  applied : σ → ℕ → ℕ → Prop
  contents : σ → ℕ → UInt16
  write_fits : ∀ s slave register value answer,
    (serve s (requestFrame slave 6 register value)).1 = some answer →
      answer.length ≤ expectedWriteSingleResponseLen
  echo : ∀ s slave register value answer, register < 65536 → value < 65536 →
    (serve s (requestFrame slave 6 register value)).1 = some answer →
      answer.length = expectedWriteSingleResponseLen →
        answer = requestFrame slave 6 register value ∧
          applied (serve s (requestFrame slave 6 register value)).2 register value
  read_one : ∀ s slave register answer, register < 65536 →
    (serve s (requestFrame slave 3 register 1)).1 = some answer →
      answer.length = expectedReadResponseLen 1 →
        answer = readReply slave 3 [(contents s register).toNat]
  applied_lasts : ∀ register value, Lasting toServer fun s => applied s register value

namespace OverBle

variable {σ ε : Type}

/-- The schedule of a write: its request, the pause after it, and the read-back. -/
structure Exchange (ε : Type) where
  write : Attempt ε
  pause : List (Event ε)
  readBack : Attempt ε

/-- What the writers make of a request: the bytes, a timeout, or another exception. -/
def writeReply (t : BleModbusTransport σ ε) : Outcome → Reply
  | .reply bytes => .bytes (bytes.map Octet.byte)
  | .timeout => .timeout
  | .notOpen => .failed ("TransportError: transport " ++ t.id ++ " is not open")
  | .writeFailed kind message => .failed (kind ++ ": " ++ message)

/-- The two passes that the writers share: the write, and unless that raised or no
read-back is wanted, the read of the register. -/
def twoPass (t : BleModbusTransport σ ε) (slaveId : UInt8) (register value : ℕ)
    (readBack : Bool) (exchange : Exchange ε) (s : State UInt8 σ) :
    Reply × Option Reply × State UInt8 σ :=
  let first := t.request (requestFrame slaveId 6 register value) expectedWriteSingleResponseLen
    exchange.write s
  match writeReply t first.1 with
  | .failed message => (.failed message, none, first.2)
  | reply =>
      if readBack = false then (reply, none, first.2)
      else
        let paused := Runs.run (AnswerLine.step t.device.toServer) first.2 exchange.pause
        let second := t.request (buildReadHolding slaveId register 1) (expectedReadResponseLen 1)
          exchange.readBack paused
        (reply, some (writeReply t second.1), second.2)

/-- The dictionary of `write_setting_register`. -/
def settingResult (slaveId : UInt8) (value : Int) (reply : Reply) (second : Option Reply) :
    WriteResult :=
  match reply, second with
  | .failed message, _ => { ok := false, confirmedValue := none, detail := some message }
  | reply, none =>
      let ack := ackSeen reply slaveId
      { ok := ack, confirmedValue := none
        detail := if ack then none
          else some "no ack and read-back disabled, write may have landed" }
  | reply, some second => readBackResult second slaveId value (ackSeen reply slaveId)

/-- `write_setting_register` over the link; the error is that of `build_write_single`. -/
def writeSettingRegister (t : BleModbusTransport σ ε) (slaveId : UInt8) (register : ℕ)
    (value : Int) (readBack : Bool) (exchange : Exchange ε) (s : State UInt8 σ) :
    Except String (WriteResult × State UInt8 σ) :=
  match buildWriteSingle slaveId register value with
  | .error message => .error message
  | .ok _ =>
      let passes := twoPass t slaveId register value.toNat readBack exchange s
      .ok (settingResult slaveId value passes.1 passes.2.1, passes.2.2)

/-- `LOAD_REGISTER`. -/
def loadRegister : ℕ := 0x010A

/-- `LOAD_ON` and `LOAD_OFF`. -/
def loadValue (on : Bool) : ℕ := if on then 1 else 0

/-- The second pass of `RoverLoadAdapter.write`: a register that is not 0 counts as on. -/
def loadReadBack (second : Reply) (slaveId : UInt8) (on ack : Bool) : Outputs.WriteResult :=
  match second with
  | .timeout =>
      if ack then
        { ok := true, confirmedState := none
          detail := "ack ok; read-back timed out, next poll will confirm" }
      else { ok := false, confirmedState := none, detail := "no ack and read-back timed out" }
  | .failed message =>
      { ok := false, confirmedState := none, detail := "read-back failed: " ++ message }
  | .bytes resp =>
      match verifyResponse resp slaveId 3 none with
      | .error message =>
          { ok := false, confirmedState := none
            detail := "read-back failed: ValueError: " ++ message }
      | .ok () =>
          let confirmed := loadValue (wordValue (resp.getD 3 0) (resp.getD 4 0) != 0)
          if confirmed = loadValue on then
            { ok := true, confirmedState := some confirmed, detail := "" }
          else
            { ok := false, confirmedState := some confirmed
              detail := "read-back returned " ++ toString confirmed ++ " after writing " ++
                toString (loadValue on) }

/-- The `WriteResult` of `RoverLoadAdapter.write`, which has a second reply unless the
first request raised. -/
def loadResult (slaveId : UInt8) (on : Bool) (reply : Reply) (second : Option Reply) :
    Outputs.WriteResult :=
  match reply, second with
  | .failed message, _ => { ok := false, confirmedState := none, detail := message }
  | _, none => { ok := false, confirmedState := none, detail := "" }
  | reply, some second => loadReadBack second slaveId on (ackSeen reply slaveId)

/-- `RoverLoadAdapter.write` over the link. It always reads back. -/
def roverLoadWrite (t : BleModbusTransport σ ε) (slaveId : UInt8) (on : Bool)
    (exchange : Exchange ε) (s : State UInt8 σ) : Outputs.WriteResult × State UInt8 σ :=
  let passes := twoPass t slaveId loadRegister (loadValue on) true exchange s
  (loadResult slaveId on passes.1 passes.2.1, passes.2.2)

/-! ### When a write counts as confirmed -/

/-- The replies that make a write count as confirmed. `shows` tells the register
contents that stand for the value. -/
def Confirms (shows : ℕ → Prop) (slaveId : UInt8) (reply : Reply) (second : Option Reply) :
    Prop :=
  (∀ message, reply ≠ .failed message) ∧
    ((ackSeen reply slaveId = true ∧ (second = none ∨ second = some .timeout)) ∨
      ∃ resp, second = some (.bytes resp) ∧ verifyResponse resp slaveId 3 none = .ok () ∧
        shows (wordValue (resp.getD 3 0) (resp.getD 4 0)))

theorem ackSeen_timeout (slaveId : UInt8) : ackSeen .timeout slaveId = false := rfl

theorem readBackResult_ok_iff (slaveId : UInt8) (value : Int) (second : Reply) (ack : Bool) :
    (readBackResult second slaveId value ack).ok = true ↔
      (second = .timeout ∧ ack = true) ∨
        ∃ resp, second = .bytes resp ∧ verifyResponse resp slaveId 3 none = .ok () ∧
          (wordValue (resp.getD 3 0) (resp.getD 4 0) : Int) = value := by
  cases second with
  | timeout => cases ack <;> simp [readBackResult]
  | failed message => simp [readBackResult]
  | bytes resp =>
      cases hVerify : verifyResponse resp slaveId 3 none with
      | error message => simp [readBackResult, hVerify]
      | ok u =>
          simp only [readBackResult, hVerify, reduceCtorEq, false_and, false_or, Reply.bytes.injEq,
            exists_eq_left', true_and]
          split_ifs with hValue
          · simp only [hValue]
          · simp only [hValue]

theorem loadReadBack_ok_iff (slaveId : UInt8) (on : Bool) (second : Reply) (ack : Bool) :
    (loadReadBack second slaveId on ack).ok = true ↔
      (second = .timeout ∧ ack = true) ∨
        ∃ resp, second = .bytes resp ∧ verifyResponse resp slaveId 3 none = .ok () ∧
          loadValue (wordValue (resp.getD 3 0) (resp.getD 4 0) != 0) = loadValue on := by
  cases second with
  | timeout => cases ack <;> simp [loadReadBack]
  | failed message => simp [loadReadBack]
  | bytes resp =>
      cases hVerify : verifyResponse resp slaveId 3 none with
      | error message => simp [loadReadBack, hVerify]
      | ok u =>
          simp only [loadReadBack, hVerify, reduceCtorEq, false_and, false_or, Reply.bytes.injEq,
            exists_eq_left', true_and]
          split_ifs with hValue
          · simp only [hValue]
          · simp only [hValue]

theorem settingResult_ok_iff (slaveId : UInt8) (value : Int) (reply : Reply)
    (second : Option Reply) :
    (settingResult slaveId value reply second).ok = true ↔
      Confirms (fun word => (word : Int) = value) slaveId reply second := by
  cases reply with
  | failed message => simp [settingResult, Confirms]
  | timeout =>
      cases second with
      | none => simp [settingResult, Confirms, ackSeen_timeout]
      | some second => simp [settingResult, Confirms, readBackResult_ok_iff, and_comm]
  | bytes resp =>
      cases second with
      | none => simp [settingResult, Confirms]
      | some second => simp [settingResult, Confirms, readBackResult_ok_iff, and_comm]

theorem loadResult_ok_iff (slaveId : UInt8) (on : Bool) (reply : Reply) (second : Reply) :
    (loadResult slaveId on reply (some second)).ok = true ↔
      Confirms (fun word => loadValue (word != 0) = loadValue on) slaveId reply (some second) := by
  cases reply with
  | failed message => simp [loadResult, Confirms]
  | timeout => simp [loadResult, Confirms, loadReadBack_ok_iff, and_comm]
  | bytes resp => simp [loadResult, Confirms, loadReadBack_ok_iff, and_comm]

/-! ### The two passes -/

/-- The link to a writable device. -/
def link (id : String) (d : WritablePeripheral σ ε) : BleModbusTransport σ ε := ⟨id, d.toPeripheral⟩

variable {id : String} {d : WritablePeripheral σ ε} {slaveId : UInt8} {register value : ℕ}
  {exchange : Exchange ε} {s : State UInt8 σ}

/-- The line while the write waits, and when that wait is over. -/
def acked (d : WritablePeripheral σ ε) (slaveId : UInt8) (register value : ℕ)
    (events : List (Event ε)) (s : State UInt8 σ) : State UInt8 σ :=
  wait d.toServer (requestFrame slaveId 6 register value) events s

/-- The line when the read-back is sent. -/
def paused (d : WritablePeripheral σ ε) (slaveId : UInt8) (register value : ℕ)
    (events pause : List (Event ε)) (s : State UInt8 σ) : State UInt8 σ :=
  Runs.run (AnswerLine.step d.toServer) (acked d slaveId register value events s) pause

/-- The line when the wait for the read-back is over. -/
def readBackDone (d : WritablePeripheral σ ε) (slaveId : UInt8) (register value : ℕ)
    (events pause events' : List (Event ε)) (s : State UInt8 σ) : State UInt8 σ :=
  wait d.toServer (buildReadHolding slaveId register 1) events'
    (paused d slaveId register value events pause s)

/-- What the writers make of a wait for `n` bytes. -/
def waitReply (after : State UInt8 σ) (n : ℕ) : Reply :=
  if n ≤ after.buf.length then .bytes ((after.buf.take n).map Octet.byte) else .timeout

theorem waitReply_ne_failed (after : State UInt8 σ) (n : ℕ) (message : String) :
    waitReply after n ≠ .failed message := by
  rw [waitReply]
  split_ifs <;> exact nofun

theorem waitReply_eq_timeout_iff {after : State UInt8 σ} {n : ℕ} :
    waitReply after n = .timeout ↔ after.buf.length < n := by
  rw [waitReply]
  split_ifs with hEnough
  · simp [hEnough]
  · simp [Nat.lt_of_not_le hEnough]

theorem waitReply_eq_bytes_iff {after : State UInt8 σ} {n : ℕ} {resp : Bytes} :
    waitReply after n = .bytes resp ↔
      n ≤ after.buf.length ∧ (after.buf.take n).map Octet.byte = resp := by
  rw [waitReply]
  split_ifs with hEnough
  · simp [hEnough]
  · simp [hEnough]

theorem writeReply_waits (t : BleModbusTransport σ ε) (frame : Bytes) (n : ℕ)
    (events : List (Event ε)) (s : State UInt8 σ) :
    writeReply t (t.request frame n (.waits events) s).1 =
      waitReply (wait t.device.toServer frame events s) n := by
  rw [BleModbusTransport.request, waitReply]
  split_ifs
  · rfl
  · rfl

/-- The read-back, sent after the pause. -/
def requestReadBack (id : String) (d : WritablePeripheral σ ε) (slaveId : UInt8)
    (register : ℕ) (attempt : Attempt ε) (s : State UInt8 σ) : Outcome × State UInt8 σ :=
  (link id d).request (buildReadHolding slaveId register 1) (expectedReadResponseLen 1) attempt s

/-- After a write that was waited for, the read-back is sent if it is asked for. -/
theorem twoPass_of_waits {events : List (Event ε)} (h : exchange.write = .waits events)
    (readBack : Bool) :
    twoPass (link id d) slaveId register value readBack exchange s =
      if readBack = false then
        (waitReply (acked d slaveId register value events s) expectedWriteSingleResponseLen, none,
          acked d slaveId register value events s)
      else
        (waitReply (acked d slaveId register value events s) expectedWriteSingleResponseLen,
          some (writeReply (link id d) (requestReadBack id d slaveId register exchange.readBack
            (paused d slaveId register value events exchange.pause s)).1),
          (requestReadBack id d slaveId register exchange.readBack
            (paused d slaveId register value events exchange.pause s)).2) := by
  simp only [twoPass, h, writeReply_waits, request_waits_snd]
  cases hReply : waitReply (wait (link id d).device.toServer
      (requestFrame slaveId 6 register value) events s) expectedWriteSingleResponseLen with
  | failed message => exact absurd hReply (waitReply_ne_failed _ _ message)
  | timeout =>
      rw [acked, show waitReply (wait d.toServer (requestFrame slaveId 6 register value) events s)
        expectedWriteSingleResponseLen = _ from hReply]
      rfl
  | bytes resp =>
      rw [acked, show waitReply (wait d.toServer (requestFrame slaveId 6 register value) events s)
        expectedWriteSingleResponseLen = _ from hReply]
      rfl

theorem twoPass_ack {events : List (Event ε)} (h : exchange.write = .waits events) :
    twoPass (link id d) slaveId register value false exchange s =
      (waitReply (acked d slaveId register value events s) expectedWriteSingleResponseLen, none,
        acked d slaveId register value events s) := by
  rw [twoPass_of_waits h, if_pos rfl]

theorem twoPass_readBack {events : List (Event ε)} (h : exchange.write = .waits events) :
    twoPass (link id d) slaveId register value true exchange s =
      (waitReply (acked d slaveId register value events s) expectedWriteSingleResponseLen,
        some (writeReply (link id d) (requestReadBack id d slaveId register exchange.readBack
          (paused d slaveId register value events exchange.pause s)).1),
        (requestReadBack id d slaveId register exchange.readBack
          (paused d slaveId register value events exchange.pause s)).2) := by
  rw [twoPass_of_waits h, if_neg (by decide)]

theorem twoPass_waits {events events' : List (Event ε)} (h : exchange.write = .waits events)
    (h' : exchange.readBack = .waits events') :
    twoPass (link id d) slaveId register value true exchange s =
      (waitReply (acked d slaveId register value events s) expectedWriteSingleResponseLen,
        some (waitReply (readBackDone d slaveId register value events exchange.pause events' s)
          (expectedReadResponseLen 1)),
        readBackDone d slaveId register value events exchange.pause events' s) := by
  rw [twoPass_readBack h, h', requestReadBack, writeReply_waits, request_waits_snd]
  rfl

/-- A second request that raised confirms nothing. -/
theorem not_confirms_failed {shows : ℕ → Prop} {reply : Reply} (message : String) :
    ¬ Confirms shows slaveId reply (some (.failed message)) := by
  rintro ⟨_, ⟨_, hNone | hTimeout⟩ | ⟨resp, hBytes, _⟩⟩
  · cases hNone
  · cases hTimeout
  · cases hBytes

/-- Only requests that were waited for confirm a write. -/
theorem waits_of_confirms {shows : ℕ → Prop} {readBack : Bool}
    (h : Confirms shows slaveId
      (twoPass (link id d) slaveId register value readBack exchange s).1
      (twoPass (link id d) slaveId register value readBack exchange s).2.1) :
    ∃ events, exchange.write = .waits events ∧
      (readBack = true → ∃ events', exchange.readBack = .waits events') := by
  cases hWrite : exchange.write with
  | notOpen => exact absurd (by rw [twoPass, hWrite]; rfl) (h.1 _)
  | writeFails kind message written =>
      exact absurd (by rw [twoPass, hWrite]; rfl) (h.1 (kind ++ ": " ++ message))
  | waits events =>
      refine ⟨events, rfl, ?_⟩
      rintro rfl
      rw [twoPass_readBack hWrite] at h
      cases hReadBack : exchange.readBack with
      | notOpen =>
          rw [hReadBack] at h
          exact absurd h (not_confirms_failed _)
      | writeFails kind message written =>
          rw [hReadBack] at h
          exact absurd h (not_confirms_failed _)
      | waits events' => exact ⟨events', rfl⟩

end OverBle

end WattPost.Vendors
