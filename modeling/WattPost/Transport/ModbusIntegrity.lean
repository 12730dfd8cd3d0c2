import WattPost.Lib.ShiftRegister
import WattPost.Transport.Modbus

/-! What the checksum and the length check of `verify_response` guarantee: no burst of
up to sixteen wrong bits passes, and only whole replies to the request do. -/
namespace WattPost.Modbus

open ShiftRegister

/-! ### The checksum as a shift register -/

/-- The bits of a byte in the order of the wire. -/
def byteBits (b : UInt8) : List Bool := List.ofFn fun i : Fin 8 => b.toNat.testBit i

def wireBits (bs : List UInt8) : List Bool := bs.flatMap byteBits

/-- The checksum register after the bytes. -/
def crcRegister (s : BitVec 16) (bs : List UInt8) : BitVec 16 := bs.foldl crcByte s

@[simp] theorem length_byteBits (b : UInt8) : (byteBits b).length = 8 := rfl

theorem length_wireBits (bs : List UInt8) : (wireBits bs).length = 8 * bs.length := by
  induction bs with
  | nil => rfl
  | cons b bs ih =>
      have hCons : wireBits (b :: bs) = byteBits b ++ wireBits bs := rfl
      rw [hCons, List.length_append, ih, length_byteBits, List.length_cons]
      ring

theorem getD_byteBits (b : UInt8) (i : Nat) :
    (byteBits b).getD i false = b.toNat.testBit i := by
  by_cases hi : i < 8
  · rw [List.getD_eq_getElem _ _ hi]
    exact List.getElem_ofFn ..
  · rw [List.getD_eq_default _ _ (by rw [length_byteBits]; omega)]
    have hByte : b.toNat < 2 ^ i :=
      Nat.lt_of_lt_of_le b.toNat_lt (Nat.pow_le_pow_right (by decide) (by omega : 8 ≤ i))
    exact (Nat.testBit_lt_two_pow hByte).symm

theorem crcShift_eq (s : BitVec 16) : crcShift s = shift 0xA001 s := by
  unfold crcShift shift
  congr 1
  rw [BitVec.ofNat_eq_ofNat, BitVec.and_one_eq_setWidth_ofBool_getLsbD]
  cases s.getLsbD 0 <;> decide

theorem crcByte_eq (s : BitVec 16) (b : UInt8) :
    crcByte s b = feedAll 0xA001 s (byteBits b) := by
  have hWord : ∀ i, (b.toBitVec.setWidth 16).getLsbD i = (byteBits b).getD i false := by
    intro i
    rw [getD_byteBits, BitVec.getLsbD_setWidth]
    by_cases hi : i < 16
    · rw [decide_eq_true hi, Bool.true_and]
      rfl
    · have hByte : b.toNat < 2 ^ i :=
        Nat.lt_of_lt_of_le b.toNat_lt (Nat.pow_le_pow_right (by decide) (by omega : 8 ≤ i))
      rw [decide_eq_false hi, Bool.false_and, Nat.testBit_lt_two_pow hByte]
  have hShift : crcShift = shift 0xA001 := funext crcShift_eq
  rw [← iterate_shift_xor _ _ hWord, crcByte, length_byteBits, hShift]

theorem crcRegister_eq (s : BitVec 16) (bs : List UInt8) :
    crcRegister s bs = feedAll 0xA001 s (wireBits bs) := by
  induction bs generalizing s with
  | nil => rfl
  | cons b bs ih =>
      have hCons : wireBits (b :: bs) = byteBits b ++ wireBits bs := rfl
      rw [hCons, feedAll_append, ← crcByte_eq]
      exact ih _

/-! ### The comparison -/

/-- `crc16(resp[:-2]) == resp[-2:]`. -/
def CrcAgrees (resp : List UInt8) : Prop :=
  crc16 (resp.take (resp.length - 2)) = resp.drop (resp.length - 2)
deriving Decidable

theorem crcAgrees_append (body : List UInt8) (lo hi : UInt8) :
    CrcAgrees (body ++ [lo, hi]) ↔ crc16 body = [lo, hi] := by
  have hLen : (body ++ [lo, hi]).length - 2 = body.length := by
    rw [List.length_append]
    exact Nat.add_sub_cancel ..
  rw [CrcAgrees, hLen, List.take_left, List.drop_left]

theorem getD_byteBits_append (lo hi : UInt8) (i : Nat) :
    (byteBits lo ++ byteBits hi).getD i false = (2 ^ 8 * hi.toNat + lo.toNat).testBit i := by
  rw [Nat.testBit_two_pow_mul_add _ lo.toNat_lt]
  by_cases h : i < 8
  · rw [if_pos h, List.getD_append _ _ _ _ h, getD_byteBits]
  · rw [if_neg h, List.getD_append_right _ _ _ _ (Nat.le_of_not_lt h), getD_byteBits]
    rfl

/-- Two bytes are a register's when their bits are. -/
theorem bytes_eq_iff (s : BitVec 16) (lo hi : UInt8) :
    [UInt8.ofNat s.toNat, UInt8.ofNat (s.toNat / 256)] = [lo, hi] ↔
      ∀ i, s.getLsbD i = (byteBits lo ++ byteBits hi).getD i false := by
  have hBits : (∀ i, s.getLsbD i = (byteBits lo ++ byteBits hi).getD i false) ↔
      s.toNat = 2 ^ 8 * hi.toNat + lo.toNat := by
    refine ⟨fun h => Nat.eq_of_testBit_eq fun i => ?_, fun h i => ?_⟩
    · rw [BitVec.testBit_toNat, h i, getD_byteBits_append]
    · rw [getD_byteBits_append, ← h, BitVec.testBit_toNat]
  have hs := s.isLt
  have hLo := lo.toNat_lt
  rw [hBits, List.cons_eq_cons, List.cons_eq_cons, ← UInt8.toNat_inj, ← UInt8.toNat_inj,
    UInt8.toNat_ofNat', UInt8.toNat_ofNat']
  have hHi := hi.toNat_lt
  refine ⟨fun ⟨hLow, hHigh, _⟩ => ?_, fun h => ⟨?_, ?_, rfl⟩⟩ <;> omega

/-- The comparison succeeds when the whole frame empties the register. -/
theorem crcAgrees_iff {resp : List UInt8} (h : 2 ≤ resp.length) :
    CrcAgrees resp ↔ crcRegister 0xFFFF resp = 0 := by
  obtain ⟨body, tail, rfl, hTail⟩ : ∃ body tail, resp = body ++ tail ∧ tail.length = 2 :=
    ⟨resp.take (resp.length - 2), resp.drop (resp.length - 2), (List.take_append_drop _ _).symm,
      by rw [List.length_drop]; omega⟩
  obtain ⟨lo, hi, rfl⟩ := List.length_eq_two.mp hTail
  have hBits : wireBits [lo, hi] = byteBits lo ++ byteBits hi := by
    simp [wireBits]
  have hWidth : (byteBits lo ++ byteBits hi).length ≤ 16 := Nat.le_refl 16
  have hSplit : crcRegister 0xFFFF (body ++ [lo, hi]) =
      crcRegister (crcRegister 0xFFFF body) [lo, hi] := List.foldl_append
  rw [crcAgrees_append, hSplit, crcRegister_eq _ [lo, hi], hBits,
    feedAll_eq_zero_iff (by decide) hWidth, ← bytes_eq_iff]
  rfl

/-! ### Bursts -/

/-- The frame with the bits of the pattern turned over. -/
def corrupt (frame pattern : List UInt8) : List UInt8 := List.zipWith (· ^^^ ·) frame pattern

/-- A nonzero pattern whose ones lie within sixteen bits of each other on the wire. -/
def IsBurst (pattern : List UInt8) : Prop :=
  (∃ b ∈ pattern, b ≠ 0) ∧
    ∃ start, ∀ i, (wireBits pattern)[i]? = some true → start ≤ i ∧ i < start + 16

theorem byteBits_xor (a b : UInt8) :
    byteBits (a ^^^ b) = List.zipWith xor (byteBits a) (byteBits b) := by
  refine List.ext_getElem (by simp) fun i h _ => ?_
  simp [byteBits, Nat.testBit_xor]

theorem wireBits_corrupt {frame pattern : List UInt8} (h : frame.length = pattern.length) :
    wireBits (corrupt frame pattern) = List.zipWith xor (wireBits frame) (wireBits pattern) := by
  induction frame generalizing pattern with
  | nil => rfl
  | cons a frame ih =>
      cases pattern with
      | nil => cases h
      | cons b pattern =>
          have hRest := ih (Nat.succ.inj h)
          have hBits : (byteBits a).length = (byteBits b).length := rfl
          simp only [corrupt, wireBits, List.zipWith_cons_cons, List.flatMap_cons] at hRest ⊢
          rw [hRest, byteBits_xor, List.zipWith_append hBits]

theorem eq_zero_of_byteBits {b : UInt8} (h : ∀ bit ∈ byteBits b, bit = false) : b = 0 := by
  refine UInt8.toNat_inj.mp (Nat.eq_of_testBit_eq fun i => ?_)
  rw [← getD_byteBits, UInt8.toNat_zero, Nat.zero_testBit, List.getD_eq_getElem?_getD]
  cases hBit : (byteBits b)[i]? with
  | none => rfl
  | some bit => exact h bit (List.mem_of_getElem? hBit)

/-- No burst is missed. -/
theorem not_crcAgrees_corrupt (m : List UInt8) {pattern : List UInt8}
    (hLen : pattern.length = (withCrc m).length) (hBurst : IsBurst pattern) :
    ¬CrcAgrees (corrupt (withCrc m) pattern) := by
  obtain ⟨⟨b, hb, hNonzero⟩, start, hWindow⟩ := hBurst
  intro hAgrees
  have hFrame : 2 ≤ (withCrc m).length := by simp [withCrc]
  have hSame : (withCrc m).length = pattern.length := hLen.symm
  have hCorrupt : 2 ≤ (corrupt (withCrc m) pattern).length := by
    rw [corrupt, List.length_zipWith, hLen, Nat.min_self]
    exact hFrame
  have hSent : crcRegister 0xFFFF (withCrc m) = 0 :=
    (crcAgrees_iff hFrame).mp ((crcAgrees_append m _ _).mpr rfl)
  have hGot := (crcAgrees_iff hCorrupt).mp hAgrees
  have hWire : (wireBits (withCrc m)).length = (wireBits pattern).length := by
    rw [length_wireBits, length_wireBits, hSame]
  rw [crcRegister_eq, wireBits_corrupt hSame, ← BitVec.xor_zero (x := 0xFFFF),
    feedAll_xor _ hWire, ← crcRegister_eq, hSent] at hGot
  have hLeft : feedAll 0xA001 0 (wireBits pattern) = (0 : BitVec 16) :=
    BitVec.zero_xor.symm.trans hGot
  have hZeros := eq_false_of_feedAll_eq_zero (by decide) (by decide) hWindow hLeft
  exact hNonzero (eq_zero_of_byteBits fun bit hBit =>
    hZeros bit (List.mem_flatMap.mpr ⟨b, hb, hBit⟩))

/-! ### What is accepted -/

/-- An accepted response has the asked slave and function code, its own checksum, and
the asked length, which its byte count repeats. -/
theorem verifyResponse_eq_ok {resp : List UInt8} {slaveId : UInt8} {fc : Nat}
    {expectedLen : Option Nat} (h : verifyResponse resp slaveId fc expectedLen = .ok ()) :
    5 ≤ resp.length ∧ resp.getD 0 0 = slaveId ∧ (resp.getD 1 0).toNat = fc ∧ CrcAgrees resp ∧
      ∀ len ∈ expectedLen, resp.length = len ∧ (resp.getD 2 0).toNat = len - 5 := by
  simp only [verifyResponse] at h
  split at h
  · cases h
  split at h
  · cases h
  split at h
  · cases h
  split at h
  · cases h
  split at h
  · cases h
  next hLong hSlave _ hCode hCrc =>
    refine ⟨Nat.le_of_not_lt hLong, UInt8.toNat_inj.mp (not_not.mp hSlave), not_not.mp hCode,
      not_not.mp hCrc, ?_⟩
    intro len hLen
    cases hLen
    dsimp only at h
    split at h
    · cases h
    split at h
    · cases h
    next hLength hCount => exact ⟨not_not.mp hLength, not_not.mp hCount⟩

/-- A read reply is accepted when it is whole: slave, function code, byte count, that
many data bytes, and the checksum of all of these. -/
theorem verifyResponse_read_iff (slaveId fc : UInt8) {count : Nat} (hFc : fc.toNat < 0x80)
    (hCount : count ≤ 125) (resp : List UInt8) :
    verifyResponse resp slaveId fc.toNat (some (expectedReadResponseLen count)) = .ok () ↔
      ∃ data, data.length = 2 * count ∧
        resp = withCrc (slaveId :: fc :: UInt8.ofNat (2 * count) :: data) := by
  have hByteCount : (UInt8.ofNat (2 * count)).toNat = 2 * count := by
    rw [UInt8.toNat_ofNat']
    omega
  constructor
  · intro h
    obtain ⟨hLong, hSlave, hCode, hCrc, hLen⟩ := verifyResponse_eq_ok h
    obtain ⟨hLength, hThird⟩ := hLen _ rfl
    match resp, hLong with
    | s :: f :: third :: rest, _ =>
        have hRest : rest.length = 2 * count + 2 := by
          simp only [List.length_cons, expectedReadResponseLen] at hLength
          omega
        have hThird : third = UInt8.ofNat (2 * count) := by
          refine UInt8.toNat_inj.mp (hThird.trans ?_)
          rw [hByteCount, expectedReadResponseLen]
          omega
        have hCut : (s :: f :: third :: rest).length - 2 = 3 + 2 * count := by
          simp only [List.length_cons]
          omega
        cases hSlave
        cases UInt8.toNat_inj.mp hCode
        cases hThird
        refine ⟨rest.take (2 * count), by rw [List.length_take]; omega, ?_⟩
        rw [CrcAgrees, hCut, Nat.add_comm] at hCrc
        rw [withCrc, ← List.take_append_drop (2 * count + 3) (_ :: _ :: _ :: rest), ← hCrc]
        rfl
  · rintro ⟨data, hData, rfl⟩
    refine verifyResponse_withCrc slaveId fc _ hFc _ ?_
    intro len hLen
    cases hLen
    rw [hData, hByteCount, expectedReadResponseLen]
    omega

/-- **Integrity of replies.** A burst of up to sixteen bits in a message and its
checksum is always noticed, and a read reply is accepted exactly when it is whole. -/
theorem replies_keep_integrity :
    (∀ m pattern : List UInt8, pattern.length = (withCrc m).length → IsBurst pattern →
      ¬CrcAgrees (corrupt (withCrc m) pattern) ∧
        ∀ slaveId fc expectedLen,
          verifyResponse (corrupt (withCrc m) pattern) slaveId fc expectedLen ≠ .ok ()) ∧
    ∀ (slaveId fc : UInt8) (count : Nat), fc = 3 ∨ fc = 4 → count ≤ 125 →
      ∀ resp : List UInt8,
        verifyResponse resp slaveId fc.toNat (some (expectedReadResponseLen count)) = .ok () ↔
          ∃ data, data.length = 2 * count ∧
            resp = withCrc (slaveId :: fc :: UInt8.ofNat (2 * count) :: data) := by
  refine ⟨fun m pattern hLen hBurst => ?_, fun slaveId fc count hFc hCount resp => ?_⟩
  · have hCrc := not_crcAgrees_corrupt m hLen hBurst
    exact ⟨hCrc, fun _ _ _ h => hCrc (verifyResponse_eq_ok h).2.2.2.1⟩
  · have hSmall : fc.toNat < 0x80 := by
      rcases hFc with rfl | rfl <;> decide
    exact verifyResponse_read_iff slaveId fc hSmall hCount resp

/-- A turned bit in a request, and a one-word reply. -/
theorem replies_keep_integrity_example :
    ¬CrcAgrees (corrupt (withCrc [1, 3]) [0, 0x80, 0, 0]) ∧
      verifyResponse (withCrc [1, 3, 2, 0, 7]) 1 3 (some (expectedReadResponseLen 1)) = .ok () := by
  constructor
  · refine (replies_keep_integrity.1 [1, 3] [0, 0x80, 0, 0] rfl ⟨⟨0x80, by decide⟩, 15, ?_⟩).1
    intro i hi
    have hOnly : ∀ j < 32, (wireBits [0, 0x80, 0, 0])[j]? = some true → j = 15 := by decide
    have hLt : i < 32 := (List.getElem?_eq_some_iff.mp hi).1
    have hPlace := hOnly i hLt hi
    omega
  · exact (replies_keep_integrity.2 1 3 1 (Or.inl rfl) (by decide) _).mpr ⟨[0, 7], rfl, rfl⟩

end WattPost.Modbus
