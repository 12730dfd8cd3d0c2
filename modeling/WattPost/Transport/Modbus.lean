import Mathlib.Data.Nat.Notation
import Mathlib.Tactic.Ring
import Mathlib.Data.List.Basic

/-! Modbus RTU framing, and a device that answers frames from a file of holding
registers. The drivers and the settings page build their frames here. -/
namespace WattPost.Modbus

/-- `(n >> 8) & 0xFF, n & 0xFF`. -/
def wordBytes (n : Nat) : List UInt8 := [UInt8.ofNat (n / 256), UInt8.ofNat n]

/-- `(hi << 8) | lo`. -/
def wordValue (hi lo : UInt8) : Nat := hi.toNat * 256 + lo.toNat

theorem wordValue_wordBytes {n : Nat} (h : n < 65536) :
    wordValue (UInt8.ofNat (n / 256)) (UInt8.ofNat n) = n := by
  simp only [wordValue, UInt8.toNat_ofNat']
  omega

/-! ### Frames -/

/-- One shift of the checksum register. -/
def crcShift (crc : BitVec 16) : BitVec 16 :=
  if crc &&& 1 = 1 then crc >>> 1 ^^^ 0xA001 else crc >>> 1

/-- One byte: eight shifts. -/
def crcByte (crc : BitVec 16) (b : UInt8) : BitVec 16 :=
  crcShift^[8] (crc ^^^ b.toBitVec.setWidth 16)

/-- `crc16`: low byte first. -/
def crc16 (data : List UInt8) : List UInt8 :=
  let crc := (data.foldl crcByte 0xFFFF).toNat
  [UInt8.ofNat crc, UInt8.ofNat (crc / 256)]

@[simp] theorem length_crc16 (data : List UInt8) : (crc16 data).length = 2 := rfl

/-- `head + crc16(head)`. -/
def withCrc (head : List UInt8) : List UInt8 := head ++ crc16 head

/-- A request: slave, function code and two words. -/
def requestFrame (slaveId functionCode : UInt8) (register argument : Nat) : List UInt8 :=
  withCrc (slaveId :: functionCode :: wordBytes register ++ wordBytes argument)

def buildReadHolding (slaveId : UInt8) (register count : Nat) : List UInt8 :=
  requestFrame slaveId 3 register count

def buildReadInput (slaveId : UInt8) (register count : Nat) : List UInt8 :=
  requestFrame slaveId 4 register count

/-- `build_write_single`; the error is the `ValueError`. -/
def buildWriteSingle (slaveId : UInt8) (register : Nat) (value : Int) : Except String (List UInt8) :=
  if 0 ≤ value ∧ value ≤ 0xFFFF then .ok (requestFrame slaveId 6 register value.toNat)
  else .error ("value " ++ toString value ++ " out of range for FC06 (must fit in 16 bits)")

def expectedReadResponseLen (wordCount : Nat) : Nat := 1 + 1 + 1 + wordCount * 2 + 2

/-- `EXPECTED_WRITE_SINGLE_RESPONSE_LEN`. -/
def expectedWriteSingleResponseLen : Nat := 8

/-- `f"{b:02x}"`. -/
def hexByte (b : Nat) : String :=
  String.ofList [Nat.digitChar (b / 16), Nat.digitChar (b % 16)]

/-- `verify_response`; the error is the text of the `ValueError`. -/
def verifyResponse (resp : List UInt8) (slaveId : UInt8) (expectedFc : Nat)
    (expectedLen : Option Nat) : Except String Unit :=
  let at_ := fun i => (resp.getD i 0).toNat
  if resp.length < 5 then .error ("short response (" ++ toString resp.length ++ " bytes)")
  else if at_ 0 ≠ slaveId.toNat then
    .error ("wrong slave id: expected " ++ toString slaveId ++ ", got " ++ toString (at_ 0))
  else if at_ 1 = expectedFc ||| 0x80 then
    .error ("modbus error response, code=" ++ toString (at_ 2))
  else if at_ 1 ≠ expectedFc then
    .error ("unexpected function code 0x" ++ hexByte (at_ 1) ++ " (expected 0x" ++
      hexByte expectedFc ++ ")")
  else if crc16 (resp.take (resp.length - 2)) ≠ resp.drop (resp.length - 2) then
    .error "CRC mismatch"
  else
    match expectedLen with
    | none => .ok ()
    | some len =>
        if resp.length ≠ len then
          .error ("reply is " ++ toString resp.length ++ " bytes, expected " ++ toString len)
        else if at_ 2 ≠ len - 5 then
          .error ("byte count " ++ toString (at_ 2) ++ " disagrees with frame (" ++
            toString (len - 5) ++ " data bytes)")
        else .ok ()

/-- A frame with the asked slave, function code and byte count, and its own
checksum, is accepted. -/
theorem verifyResponse_withCrc (slaveId fc third : UInt8) {data : List UInt8}
    (hFc : fc.toNat < 0x80) (expectedLen : Option Nat)
    (hLen : ∀ len ∈ expectedLen, len = data.length + 5 ∧ third.toNat = data.length) :
    verifyResponse (withCrc (slaveId :: fc :: third :: data)) slaveId fc.toNat expectedLen =
      .ok () := by
  have hLength : (withCrc (slaveId :: fc :: third :: data)).length = data.length + 5 := by
    simp [withCrc]
  have hBody : (withCrc (slaveId :: fc :: third :: data)).length - 2 =
      (slaveId :: fc :: third :: data).length := by
    rw [hLength, List.length_cons, List.length_cons, List.length_cons]
    omega
  have hCode : fc.toNat ≠ fc.toNat ||| 0x80 := by
    have hLe := @Nat.right_le_or fc.toNat 0x80
    omega
  unfold verifyResponse
  rw [hBody, hLength, withCrc, List.take_left, List.drop_left]
  cases expectedLen with
  | none => simp [hCode]
  | some len =>
      obtain ⟨rfl, hThird⟩ := hLen len rfl
      simp [hCode, hThird]

/-! ### The device -/

/-- The holding registers, and the address the device answers to. -/
structure Device where
  slaveId : UInt8
  registers : Nat → UInt16

/-- `words` registers from `register` on. -/
def Device.words (device : Device) (register count : Nat) : List Nat :=
  (List.range count).map fun i => (device.registers (register + i)).toNat

def Device.write (device : Device) (register : Nat) (value : UInt16) : Device :=
  { device with registers := Function.update device.registers register value }

@[simp] theorem Device.write_slaveId (device : Device) (register : Nat) (value : UInt16) :
    (device.write register value).slaveId = device.slaveId := rfl

@[simp] theorem Device.write_registers (device : Device) (register : Nat) (value : UInt16)
    (r : Nat) : (device.write register value).registers r =
      if r = register then value else device.registers r := by
  simp [write, Function.update_apply]

/-- The reply to a read: the byte count and then the words. -/
def readReply (slaveId functionCode : UInt8) (words : List Nat) : List UInt8 :=
  withCrc (slaveId :: functionCode :: UInt8.ofNat (words.length * 2) :: words.flatMap wordBytes)

/-- What the device sends back, if anything, and the device afterwards. Frames
for other slaves and broken frames are ignored; an unknown function or an
impossible count is answered with an exception. -/
def Device.respond (device : Device) : List UInt8 → Option (List UInt8) × Device
  | [slave, fc, rh, rl, ah, al, c0, c1] =>
      if slave ≠ device.slaveId ∨ crc16 [slave, fc, rh, rl, ah, al] ≠ [c0, c1] then (none, device)
      else
        let register := wordValue rh rl
        let argument := wordValue ah al
        if fc = 3 then
          if 1 ≤ argument ∧ argument ≤ 125 then
            (some (readReply slave 3 (device.words register argument)), device)
          else (some (withCrc [slave, 0x83, 3]), device)
        else if fc = 6 then
          (some (requestFrame slave 6 register argument),
            device.write register (UInt16.ofNat argument))
        else (some (withCrc [slave, fc ||| 0x80, 1]), device)
  | _ => (none, device)

theorem respond_buildReadHolding (device : Device) {register count : Nat}
    (hRegister : register < 65536) (hPos : 1 ≤ count) (hCount : count ≤ 125) :
    device.respond (buildReadHolding device.slaveId register count) =
      (some (readReply device.slaveId 3 (device.words register count)), device) := by
  have hReg := wordValue_wordBytes hRegister
  have hArg : wordValue (UInt8.ofNat (count / 256)) (UInt8.ofNat count) = count :=
    wordValue_wordBytes (by omega)
  simp [buildReadHolding, requestFrame, withCrc, wordBytes, crc16, Device.respond, hReg, hArg,
    hPos, hCount]

/-- A single write is echoed, and changes that register only. -/
theorem respond_requestFrame_write (device : Device) {register value : Nat}
    (hRegister : register < 65536) (hValue : value < 65536) :
    device.respond (requestFrame device.slaveId 6 register value) =
      (some (requestFrame device.slaveId 6 register value),
        device.write register (UInt16.ofNat value)) := by
  have hReg := wordValue_wordBytes hRegister
  have hArg := wordValue_wordBytes hValue
  simp [requestFrame, withCrc, wordBytes, crc16, Device.respond, hReg, hArg]

theorem length_flatMap_wordBytes (words : List Nat) :
    (words.flatMap wordBytes).length = words.length * 2 := by
  simp [List.length_flatMap, wordBytes]

theorem verifyResponse_readReply (slaveId : UInt8) {words : List Nat} (h : words.length ≤ 125) :
    verifyResponse (readReply slaveId 3 words) slaveId 3
      (some (expectedReadResponseLen words.length)) = .ok () := by
  have hCount : (UInt8.ofNat (words.length * 2)).toNat = words.length * 2 := by
    rw [UInt8.toNat_ofNat']
    omega
  refine verifyResponse_withCrc slaveId 3 _ (by decide) _ ?_
  intro len hLen
  cases hLen
  rw [length_flatMap_wordBytes, hCount, expectedReadResponseLen]
  omega

/-- The echo of a write is accepted. -/
theorem verifyResponse_writeEcho (slaveId : UInt8) (register value : Nat) :
    verifyResponse (requestFrame slaveId 6 register value) slaveId 6 none = .ok () :=
  verifyResponse_withCrc slaveId 6 _ (by decide) none (fun _ h => nomatch h)

/-- The two bytes of the `i`-th word of a reply. -/
theorem take_drop_readReply (slaveId functionCode : UInt8) (words : List Nat) {i : Nat}
    (h : i < words.length) :
    ((readReply slaveId functionCode words).drop (3 + i * 2)).take 2 = wordBytes words[i] := by
  have hWords : ∀ (ws : List Nat) (tail : List UInt8) (j : Nat) (hj : j < ws.length),
      ((ws.flatMap wordBytes ++ tail).drop (j * 2)).take 2 = wordBytes ws[j] := by
    intro ws tail
    induction ws with
    | nil => intro j hj; cases hj
    | cons w ws ih =>
        intro j hj
        cases j with
        | zero => rfl
        | succ j =>
            have hTail := ih j (Nat.lt_of_succ_lt_succ hj)
            rw [show (j + 1) * 2 = j * 2 + 2 by ring]
            exact hTail
  rw [readReply, withCrc, Nat.add_comm]
  exact hWords words _ i h

theorem length_readReply (slaveId functionCode : UInt8) (words : List Nat) :
    (readReply slaveId functionCode words).length = words.length * 2 + 5 := by
  simp only [readReply, withCrc, List.length_append, List.length_cons, length_crc16,
    length_flatMap_wordBytes]

end WattPost.Modbus
