import WattPost.Lib.AnswerLine
import WattPost.Transport.Modbus

/-! Requests over the Bluetooth link. One request is on at a time; its reply is the
first bytes that arrive after its frame was written, whichever frame they answer. -/
namespace WattPost.BleModbus

open AnswerLine Modbus

/-- A device on the link. A read is answered with the registers or with an exception,
so with no more bytes than are asked for. -/
structure Peripheral (σ ε : Type) extends Server UInt8 σ ε where
  fits : ∀ s slave fc register count answer, fc = 3 ∨ fc = 4 →
    (serve s (requestFrame slave fc register count)).1 = some answer →
      answer.length ≤ expectedReadResponseLen count

/-- `BleModbusTransport`, with the device it talks to. -/
structure BleModbusTransport (σ ε : Type) where
  id : String
  device : Peripheral σ ε

/-- How a request goes: the client is not connected, or writing the frame raises (and
the frame is on its way, or not), or that happens while it waits. -/
inductive Attempt (ε : Type) where
  | notOpen
  | writeFails (kind message : String) (written : Bool)
  | waits (events : List (Event ε))

/-- How `request` ends. -/
inductive Outcome where
  | reply (bytes : List (Octet UInt8))
  | timeout
  | notOpen
  | writeFailed (kind message : String)
deriving DecidableEq

variable {σ ε : Type}

/-- `BleModbusTransport.request`. The wait is over with the first `expected` bytes, or
with the timeout when there are fewer. -/
def BleModbusTransport.request (t : BleModbusTransport σ ε) (frame : List UInt8)
    (expected : ℕ) (attempt : Attempt ε) (s : State UInt8 σ) : Outcome × State UInt8 σ :=
  match attempt with
  | .notOpen => (.notOpen, s)
  | .writeFails kind message written =>
      (.writeFailed kind message, if written then send frame s else { s with buf := [] })
  | .waits events =>
      let after := wait t.device.toServer frame events s
      if expected ≤ after.buf.length then (.reply (after.buf.take expected), after)
      else (.timeout, after)

variable {t : BleModbusTransport σ ε} {s : State UInt8 σ}

theorem request_waits_snd (t : BleModbusTransport σ ε) (frame : List UInt8) (expected : ℕ)
    (events : List (Event ε)) (s : State UInt8 σ) :
    (t.request frame expected (.waits events) s).2 = wait t.device.toServer frame events s := by
  rw [BleModbusTransport.request]
  split_ifs
  · rfl
  · rfl

theorem numbered_request (h : Numbered s) (frame : List UInt8) (expected : ℕ)
    (attempt : Attempt ε) : Numbered (t.request frame expected attempt s).2 := by
  cases attempt with
  | notOpen => exact h
  | writeFails kind message written =>
      cases written with
      | true => exact h.send frame
      | false => exact ⟨⟨fun o ho => h.onLine.stream o (List.mem_append_right _ ho),
          h.onLine.inbox⟩, h.handled⟩
  | waits events =>
      rw [request_waits_snd]
      exact h.wait frame events

theorem request_eq_reply_iff {frame : List UInt8} {expected : ℕ} {attempt : Attempt ε}
    {bytes : List (Octet UInt8)} :
    (t.request frame expected attempt s).1 = .reply bytes ↔
      ∃ events, attempt = .waits events ∧
        expected ≤ (wait t.device.toServer frame events s).buf.length ∧
        (wait t.device.toServer frame events s).buf.take expected = bytes := by
  cases attempt with
  | notOpen => simp [BleModbusTransport.request]
  | writeFails kind message written => simp [BleModbusTransport.request]
  | waits events =>
      simp only [BleModbusTransport.request, Attempt.waits.injEq, exists_eq_left']
      split_ifs with hEnough
      · simp [hEnough]
      · simp [hEnough]

theorem request_eq_timeout_iff {frame : List UInt8} {expected : ℕ} {attempt : Attempt ε} :
    (t.request frame expected attempt s).1 = .timeout ↔
      ∃ events, attempt = .waits events ∧
        (wait t.device.toServer frame events s).buf.length < expected := by
  cases attempt with
  | notOpen => simp [BleModbusTransport.request]
  | writeFails kind message written => simp [BleModbusTransport.request]
  | waits events =>
      simp only [BleModbusTransport.request, Attempt.waits.injEq, exists_eq_left']
      split_ifs with hEnough
      · simp [hEnough]
      · simp [Nat.lt_of_not_le hEnough]

/-! ### A file of registers -/

theorem wordValue_wordBytes_le (n : ℕ) :
    wordValue (UInt8.ofNat (n / 256)) (UInt8.ofNat n) ≤ n := by
  simp only [wordValue, UInt8.toNat_ofNat']
  omega

/-- What the device makes of a request it did not refuse to hear. -/
theorem respond_requestFrame (device : Modbus.Device) (slave fc : UInt8) (register argument : ℕ) :
    device.respond (requestFrame slave fc register argument) =
      if slave ≠ device.slaveId then (none, device)
      else
        let first := wordValue (UInt8.ofNat (register / 256)) (UInt8.ofNat register)
        let second := wordValue (UInt8.ofNat (argument / 256)) (UInt8.ofNat argument)
        if fc = 3 then
          if 1 ≤ second ∧ second ≤ 125 then
            (some (readReply slave 3 (device.words first second)), device)
          else (some (withCrc [slave, 0x83, 3]), device)
        else if fc = 6 then
          (some (requestFrame slave 6 first second),
            device.write first (UInt16.ofNat second))
        else (some (withCrc [slave, fc ||| 0x80, 1]), device) := by
  simp [requestFrame, withCrc, wordBytes, crc16, Modbus.Device.respond]

theorem length_respond_read (device : Modbus.Device) {slave fc : UInt8} {register count : ℕ}
    {answer : List UInt8} (hFc : fc = 3 ∨ fc = 4)
    (h : (device.respond (requestFrame slave fc register count)).1 = some answer) :
    answer.length ≤ expectedReadResponseLen count := by
  have hException : ∀ code third : UInt8, (withCrc [slave, code, third]).length ≤
      expectedReadResponseLen count := by
    intro code third
    rw [withCrc, List.length_append, length_crc16, expectedReadResponseLen]
    simp only [List.length_cons, List.length_nil]
    omega
  have hCount := wordValue_wordBytes_le count
  have hWrite : fc ≠ 6 := by rcases hFc with rfl | rfl <;> decide
  rw [respond_requestFrame] at h
  by_cases hSlave : slave = device.slaveId
  · by_cases hRead : fc = 3
    · by_cases hFew : 1 ≤ wordValue (UInt8.ofNat (count / 256)) (UInt8.ofNat count) ∧
          wordValue (UInt8.ofNat (count / 256)) (UInt8.ofNat count) ≤ 125
      · simp only [hSlave, hRead, hFew, ne_eq, not_true_eq_false, if_false, if_true, and_self,
          Option.some.injEq] at h
        rw [← h, length_readReply, Modbus.Device.words, List.length_map, List.length_range,
          expectedReadResponseLen]
        omega
      · simp only [← hSlave, hRead, hFew, ne_eq, not_true_eq_false, if_false, if_true,
          Option.some.injEq] at h
        exact h ▸ hException _ _
    · simp only [← hSlave, hRead, hWrite, ne_eq, not_true_eq_false, if_false,
        Option.some.injEq] at h
      exact h ▸ hException _ _
  · simp [hSlave] at h

/-- A device that applies every write, and whose registers may change at any time. -/
def registerFile : Peripheral Modbus.Device (ℕ → UInt16) where
  serve := Modbus.Device.respond
  evolve registers device := { device with registers := registers }
  fits s _ _ _ _ _ hFc h := length_respond_read s hFc h

end WattPost.BleModbus
