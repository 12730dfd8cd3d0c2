import WattPost.Vendors.BleWrites

/-! What a confirmation over the Bluetooth link is worth. The own echo means that the
device applied the write; a late echo of another write, a late read-back, and a register
that holds the value anyway confirm a write that the device never heard of. -/
namespace WattPost.Vendors

open AnswerLine BleModbus Modbus

namespace OverBle

variable {σ ε : Type} {id : String} {d : WritablePeripheral σ ε} {slaveId : UInt8}
  {register value : ℕ} {exchange : Exchange ε} {s : State UInt8 σ}

/-! ### Replies of the own requests -/

/-- The frame has room for 16 bits. -/
theorem requestFrame_mod (slaveId fc : UInt8) (register argument : ℕ) :
    requestFrame slaveId fc (register % 65536) argument =
      requestFrame slaveId fc register argument := by
  have hHigh : UInt8.ofNat (register % 65536 / 256) = UInt8.ofNat (register / 256) := by
    apply UInt8.toNat_inj.mp
    simp only [UInt8.toNat_ofNat']
    omega
  have hLow : UInt8.ofNat (register % 65536) = UInt8.ofNat register := by
    apply UInt8.toNat_inj.mp
    simp only [UInt8.toNat_ofNat']
    omega
  have hWord : wordBytes (register % 65536) = wordBytes register := by
    rw [wordBytes, wordBytes, hHigh, hLow]
  rw [requestFrame, requestFrame, hWord]

/-- The device has given no full answer to the write, which is request number `k`. -/
def Unanswered (d : WritablePeripheral σ ε) (slaveId : UInt8) (register value : ℕ)
    (after : State UInt8 σ) (k : ℕ) : Prop :=
  ∀ answer, Given d.toServer after k (requestFrame slaveId 6 register value) answer →
    answer.length ≠ expectedWriteSingleResponseLen

/-- What the device answered in full, it has applied. -/
theorem applied_of_answered {after : State UInt8 σ} {k : ℕ}
    (hRemembers : Remembers d.toServer after) (hValue : value < 65536)
    (h : ¬ Unanswered d slaveId register value after k) :
    d.applied after.server (register % 65536) value := by
  rw [Unanswered] at h
  push Not at h
  obtain ⟨answer, ⟨before, hMem, hAnswer⟩, hLength⟩ := h
  refine hRemembers _ hMem _ (d.applied_lasts (register % 65536) value) ?_
  have hFrame := requestFrame_mod slaveId 6 register value
  have hEcho := d.echo before slaveId (register % 65536) value answer
    (Nat.mod_lt _ (by decide)) hValue (hFrame ▸ hAnswer) hLength
  rw [hFrame] at hEcho
  exact hEcho.2

/-- An own echo is a full answer to the write. -/
theorem answered_of_own_echo (hNumbered : Numbered s) {events : List (Event ε)}
    {first : Octet UInt8}
    (hEnough : expectedWriteSingleResponseLen ≤
      (acked d slaveId register value events s).buf.length)
    (hHead : (acked d slaveId register value events s).buf.head? = some first)
    (hOwn : first.origin = s.sent) :
    ¬ Unanswered d slaveId register value (acked d slaveId register value events s) s.sent := by
  intro hUnanswered
  obtain ⟨others, before, answer, hHandled, _, hAnswer, hLength, _⟩ :=
    reply_of_head hNumbered (fun a answer h => d.write_fits a slaveId register value answer h)
      hHead hOwn hEnough
  refine hUnanswered answer ⟨before, ?_, hAnswer⟩ hLength
  rw [acked, hHandled]
  exact List.mem_append_right _ List.mem_cons_self

/-- A write that finds the line free is answered if its frame is handled at once. -/
theorem answered_of_served (hInbox : s.inbox = [])
    (hLength : (d.serve s.server (requestFrame slaveId 6 register value)).1.map List.length =
      some expectedWriteSingleResponseLen) (answered : Bool) (events : List (Event ε)) :
    ¬ Unanswered d slaveId register value
      (acked d slaveId register value (.serve answered :: events) s) s.sent := by
  obtain ⟨answer, hAnswer, hEight⟩ := Option.map_eq_some_iff.mp hLength
  exact fun h => h answer (given_wait_serve hInbox hAnswer answered events) hEight

/-- An own read-back shows what the register held when the device answered it. -/
theorem word_of_own_readBack (hNumbered : Numbered s) {events : List (Event ε)}
    {first : Octet UInt8}
    (hEnough : expectedReadResponseLen 1 ≤
      (wait d.toServer (buildReadHolding slaveId register 1) events s).buf.length)
    (hHead : (wait d.toServer (buildReadHolding slaveId register 1) events s).buf.head? =
      some first)
    (hOwn : first.origin = s.sent) :
    ∃ others before,
      (wait d.toServer (buildReadHolding slaveId register 1) events s).handled =
        others ++ [⟨s.sent, buildReadHolding slaveId register 1, before⟩] ∧
      (∀ e ∈ others, e.number ≠ s.sent) ∧
      (((wait d.toServer (buildReadHolding slaveId register 1) events s).buf.take
        (expectedReadResponseLen 1)).map Octet.byte) =
          readReply slaveId 3 [(d.contents before (register % 65536)).toNat] := by
  obtain ⟨others, before, answer, hHandled, hOthers, hAnswer, hLength, hTake⟩ :=
    reply_of_head hNumbered
      (fun a answer h => d.fits a slaveId 3 register 1 answer (Or.inl rfl) h) hHead hOwn hEnough
  refine ⟨others, before, hHandled, hOthers, ?_⟩
  have hFrame := requestFrame_mod slaveId 3 register 1
  rw [buildReadHolding, hTake, map_byte_octets]
  exact d.read_one before slaveId (register % 65536) answer (Nat.mod_lt _ (by decide))
    (hFrame ▸ hAnswer) hLength

/-! ### When a confirmation misleads -/

/-- The first `n` bytes that arrived are a clean frame of that function, and the first
one is of an answer to another request than number `k`. -/
def LateReply (after : State UInt8 σ) (k n : ℕ) (slaveId : UInt8) (fc : ℕ) : Prop :=
  n ≤ after.buf.length ∧ (∃ first, after.buf.head? = some first ∧ first.origin ≠ k) ∧
    verifyResponse ((after.buf.take n).map Octet.byte) slaveId fc none = .ok ()

/-- The register contents in the first bytes that arrived. -/
def arrivedWord (after : State UInt8 σ) : ℕ :=
  let resp := (after.buf.take (expectedReadResponseLen 1)).map Octet.byte
  wordValue (resp.getD 3 0) (resp.getD 4 0)

/-- The device has not answered the write by the time the call returns, and: a late
echo of another write arrives and there is no read-back, or nothing answers it; or a late
answer to another read arrives as the read-back and shows the value; or the register
holds the value anyway when the device answers the read-back. -/
inductive Misled (d : WritablePeripheral σ ε) (shows : ℕ → Prop) (slaveId : UInt8)
    (register value : ℕ) (readBack : Bool) (exchange : Exchange ε) (s : State UInt8 σ) : Prop where
  | ack (events : List (Event ε)) (hReadBack : readBack = false)
      (hWrite : exchange.write = .waits events)
      (hUnanswered : Unanswered d slaveId register value
        (acked d slaveId register value events s) s.sent)
      (hLate : LateReply (acked d slaveId register value events s) s.sent
        expectedWriteSingleResponseLen slaveId 6)
  | ackAlone (events events' : List (Event ε)) (hReadBack : readBack = true)
      (hWrite : exchange.write = .waits events) (hRead : exchange.readBack = .waits events')
      (hUnanswered : Unanswered d slaveId register value
        (readBackDone d slaveId register value events exchange.pause events' s) s.sent)
      (hLate : LateReply (acked d slaveId register value events s) s.sent
        expectedWriteSingleResponseLen slaveId 6)
      (hAlone : (readBackDone d slaveId register value events exchange.pause events'
        s).buf.length < expectedReadResponseLen 1)
  | lateReadBack (events events' : List (Event ε)) (hReadBack : readBack = true)
      (hWrite : exchange.write = .waits events) (hRead : exchange.readBack = .waits events')
      (hUnanswered : Unanswered d slaveId register value
        (readBackDone d slaveId register value events exchange.pause events' s) s.sent)
      (hLate : LateReply (readBackDone d slaveId register value events exchange.pause events' s)
        (paused d slaveId register value events exchange.pause s).sent (expectedReadResponseLen 1)
        slaveId 3)
      (hShows : shows (arrivedWord
        (readBackDone d slaveId register value events exchange.pause events' s)))
  | heldAnyway (events events' : List (Event ε)) (first : Octet UInt8) (before : σ)
      (hReadBack : readBack = true)
      (hWrite : exchange.write = .waits events) (hRead : exchange.readBack = .waits events')
      (hUnanswered : Unanswered d slaveId register value
        (readBackDone d slaveId register value events exchange.pause events' s) s.sent)
      (hEnough : expectedReadResponseLen 1 ≤
        (readBackDone d slaveId register value events exchange.pause events' s).buf.length)
      (hHead : (readBackDone d slaveId register value events exchange.pause events' s).buf.head? =
        some first)
      (hOwn : first.origin = (paused d slaveId register value events exchange.pause s).sent)
      (hHandled : ⟨(paused d slaveId register value events exchange.pause s).sent,
        buildReadHolding slaveId register 1, before⟩ ∈
          (readBackDone d slaveId register value events exchange.pause events' s).handled)
      (hShows : shows (d.contents before (register % 65536)).toNat)

theorem ackSeen_waitReply_iff (after : State UInt8 σ) (slaveId : UInt8) :
    ackSeen (waitReply after expectedWriteSingleResponseLen) slaveId = true ↔
      expectedWriteSingleResponseLen ≤ after.buf.length ∧
        verifyResponse ((after.buf.take expectedWriteSingleResponseLen).map Octet.byte) slaveId 6
          none = .ok () := by
  rw [waitReply]
  split_ifs with hEnough
  · cases hVerify : verifyResponse
        ((after.buf.take expectedWriteSingleResponseLen).map Octet.byte) slaveId 6 none with
    | error message => simp only [ackSeen, hVerify, Except.isOk, Except.toBool,
        Bool.false_eq_true, reduceCtorEq, and_false]
    | ok u => simp only [ackSeen, hVerify, hEnough, Except.isOk, Except.toBool, and_self]
  · simp [ackSeen, hEnough]

theorem numbered_paused (h : Numbered s) (events pause : List (Event ε)) :
    Numbered (paused d slaveId register value events pause s) := by
  have hAcked : Numbered (acked d slaveId register value events s) := h.wait _ events
  exact hAcked.run pause

/-- A write that was answered during the first wait is answered at the end. -/
theorem unanswered_acked {events pause events' : List (Event ε)}
    (h : Unanswered d slaveId register value
      (readBackDone d slaveId register value events pause events' s) s.sent) :
    Unanswered d slaveId register value (acked d slaveId register value events s) s.sent := by
  intro answer hGiven
  refine h answer ?_
  have hPaused : Given d.toServer (paused d slaveId register value events pause s) s.sent
      (requestFrame slaveId 6 register value) answer := hGiven.run pause
  have hSent : Given d.toServer (send (buildReadHolding slaveId register 1)
      (paused d slaveId register value events pause s)) s.sent
        (requestFrame slaveId 6 register value) answer := hPaused
  exact hSent.run events'

theorem exists_head {after : State UInt8 σ} {n : ℕ} (hPos : 0 < n) (h : n ≤ after.buf.length) :
    ∃ first, after.buf.head? = some first := by
  obtain ⟨first, rest, hBuf⟩ := List.exists_cons_of_length_pos (Nat.lt_of_lt_of_le hPos h)
  exact ⟨first, by rw [hBuf]; rfl⟩

/-- A clean echo is late, or it answers the write. -/
theorem late_of_unanswered (hNumbered : Numbered s) {events : List (Event ε)}
    (hAck : ackSeen (waitReply (acked d slaveId register value events s)
      expectedWriteSingleResponseLen) slaveId = true)
    (hUnanswered : Unanswered d slaveId register value
      (acked d slaveId register value events s) s.sent) :
    LateReply (acked d slaveId register value events s) s.sent expectedWriteSingleResponseLen
      slaveId 6 := by
  obtain ⟨hEnough, hVerify⟩ := (ackSeen_waitReply_iff _ _).mp hAck
  obtain ⟨first, hHead⟩ := exists_head (by decide) hEnough
  refine ⟨hEnough, ⟨first, hHead, fun hOwn => ?_⟩, hVerify⟩
  exact answered_of_own_echo hNumbered hEnough hHead hOwn hUnanswered

theorem wordValue_readReply_one (slaveId : UInt8) (word : UInt16) :
    wordValue ((readReply slaveId 3 [word.toNat]).getD 3 0)
      ((readReply slaveId 3 [word.toNat]).getD 4 0) = word.toNat :=
  wordValue_wordBytes word.toNat_lt

/-- A write that is confirmed and that the device has not answered is misled. -/
theorem misled_of_confirms {shows : ℕ → Prop} {readBack : Bool} (hNumbered : Numbered s)
    (hConfirms : Confirms shows slaveId
      (twoPass (link id d) slaveId register value readBack exchange s).1
      (twoPass (link id d) slaveId register value readBack exchange s).2.1)
    (hUnanswered : Unanswered d slaveId register value
      (twoPass (link id d) slaveId register value readBack exchange s).2.2 s.sent) :
    Misled d shows slaveId register value readBack exchange s := by
  obtain ⟨events, hWrite, hReads⟩ := waits_of_confirms hConfirms
  cases readBack with
  | false =>
      rw [twoPass_ack hWrite] at hConfirms hUnanswered
      obtain ⟨_, ⟨hAck, _⟩ | ⟨resp, hBytes, _⟩⟩ := hConfirms
      · exact .ack events rfl hWrite hUnanswered (late_of_unanswered hNumbered hAck hUnanswered)
      · cases hBytes
  | true =>
      obtain ⟨events', hRead⟩ := hReads rfl
      rw [twoPass_waits hWrite hRead] at hConfirms hUnanswered
      obtain ⟨_, ⟨hAck, hSecond⟩ | ⟨resp, hBytes, hVerify, hShows⟩⟩ := hConfirms
      · have hAlone := waitReply_eq_timeout_iff.mp
          (Option.some.inj (hSecond.resolve_left (Option.some_ne_none _)))
        exact .ackAlone events events' rfl hWrite hRead hUnanswered
          (late_of_unanswered hNumbered hAck (unanswered_acked hUnanswered)) hAlone
      · obtain ⟨hEnough, rfl⟩ := waitReply_eq_bytes_iff.mp (Option.some.inj hBytes)
        obtain ⟨first, hHead⟩ := exists_head (by decide) hEnough
        by_cases hOwn : first.origin =
            (paused d slaveId register value events exchange.pause s).sent
        · obtain ⟨others, before, hHandled, _, hWord⟩ :=
            word_of_own_readBack (numbered_paused hNumbered events exchange.pause) hEnough hHead
              hOwn
          refine .heldAnyway events events' first before rfl hWrite hRead hUnanswered hEnough hHead
            hOwn ?_ ?_
          · rw [readBackDone, hHandled]
            exact List.mem_append_right _ List.mem_cons_self
          · rw [readBackDone, hWord] at hShows
            rwa [wordValue_readReply_one] at hShows
        · exact .lateReadBack events events' rfl hWrite hRead hUnanswered
            ⟨hEnough, ⟨first, hHead, hOwn⟩, hVerify⟩ hShows

theorem confirms_of_misled {shows : ℕ → Prop} {readBack : Bool} (hNumbered : Numbered s)
    (h : Misled d shows slaveId register value readBack exchange s) :
    Confirms shows slaveId
        (twoPass (link id d) slaveId register value readBack exchange s).1
        (twoPass (link id d) slaveId register value readBack exchange s).2.1 ∧
      Unanswered d slaveId register value
        (twoPass (link id d) slaveId register value readBack exchange s).2.2 s.sent := by
  have hAck : ∀ events, LateReply (acked d slaveId register value events s) s.sent
      expectedWriteSingleResponseLen slaveId 6 →
      ackSeen (waitReply (acked d slaveId register value events s)
        expectedWriteSingleResponseLen) slaveId = true :=
    fun _ hLate => (ackSeen_waitReply_iff _ _).mpr ⟨hLate.1, hLate.2.2⟩
  cases h with
  | ack events hReadBack hWrite hUnanswered hLate =>
      subst hReadBack
      rw [twoPass_ack hWrite]
      exact ⟨⟨waitReply_ne_failed _ _, Or.inl ⟨hAck events hLate, Or.inl rfl⟩⟩, hUnanswered⟩
  | ackAlone events events' hReadBack hWrite hRead hUnanswered hLate hAlone =>
      subst hReadBack
      rw [twoPass_waits hWrite hRead]
      exact ⟨⟨waitReply_ne_failed _ _, Or.inl ⟨hAck events hLate,
        Or.inr (congrArg some (waitReply_eq_timeout_iff.mpr hAlone))⟩⟩, hUnanswered⟩
  | lateReadBack events events' hReadBack hWrite hRead hUnanswered hLate hShows =>
      subst hReadBack
      rw [twoPass_waits hWrite hRead]
      exact ⟨⟨waitReply_ne_failed _ _, Or.inr ⟨_,
        congrArg some (waitReply_eq_bytes_iff.mpr ⟨hLate.1, rfl⟩), hLate.2.2, hShows⟩⟩, hUnanswered⟩
  | heldAnyway events events' first before hReadBack hWrite hRead hUnanswered hEnough hHead hOwn
      hHandled hShows =>
      subst hReadBack
      rw [twoPass_waits hWrite hRead]
      obtain ⟨others, before', hAll, hOthers, hWord⟩ :=
        word_of_own_readBack (numbered_paused hNumbered events exchange.pause) hEnough hHead hOwn
      have hSame : before = before' := by
        rw [readBackDone, hAll] at hHandled
        rcases List.mem_append.mp hHandled with hMem | hMem
        · exact absurd rfl (hOthers _ hMem)
        · exact (Handled.mk.inj (List.mem_singleton.mp hMem)).2.2
      refine ⟨⟨waitReply_ne_failed _ _, Or.inr ⟨_,
        congrArg some (waitReply_eq_bytes_iff.mpr ⟨hEnough, hWord⟩), ?_, ?_⟩⟩, hUnanswered⟩
      · exact verifyResponse_withCrc slaveId 3 _ (by decide) none nofun
      · rw [wordValue_readReply_one, ← hSame]
        exact hShows

/-- A write is misled just when it is confirmed and the device has not answered it. -/
theorem misled_iff (shows : ℕ → Prop) {readBack : Bool} (hNumbered : Numbered s) :
    Misled d shows slaveId register value readBack exchange s ↔
      Confirms shows slaveId
          (twoPass (link id d) slaveId register value readBack exchange s).1
          (twoPass (link id d) slaveId register value readBack exchange s).2.1 ∧
        Unanswered d slaveId register value
          (twoPass (link id d) slaveId register value readBack exchange s).2.2 s.sent :=
  ⟨confirms_of_misled hNumbered, fun h => misled_of_confirms hNumbered h.1 h.2⟩

/-- An answer during the first wait spares a write. -/
theorem not_misled_of_answered {shows : ℕ → Prop} {readBack : Bool} {events : List (Event ε)}
    (hWrite : exchange.write = .waits events)
    (h : ¬ Unanswered d slaveId register value
      (acked d slaveId register value events s) s.sent) :
    ¬ Misled d shows slaveId register value readBack exchange s := by
  intro hMisled
  cases hMisled with
  | ack events' _ hWrite' hUnanswered =>
      obtain rfl := Attempt.waits.inj (hWrite.symm.trans hWrite')
      exact h hUnanswered
  | ackAlone events' _ _ hWrite' _ hUnanswered =>
      obtain rfl := Attempt.waits.inj (hWrite.symm.trans hWrite')
      exact h (unanswered_acked hUnanswered)
  | lateReadBack events' _ _ hWrite' _ hUnanswered =>
      obtain rfl := Attempt.waits.inj (hWrite.symm.trans hWrite')
      exact h (unanswered_acked hUnanswered)
  | heldAnyway events' _ _ _ _ hWrite' _ hUnanswered =>
      obtain rfl := Attempt.waits.inj (hWrite.symm.trans hWrite')
      exact h (unanswered_acked hUnanswered)

/-- A confirmed write that is not misled has been answered, and so applied. -/
theorem applied_of_confirms {shows : ℕ → Prop} {readBack : Bool} (hNumbered : Numbered s)
    (hRemembers : Remembers d.toServer
      (twoPass (link id d) slaveId register value readBack exchange s).2.2)
    (hValue : value < 65536)
    (hClear : ¬ Misled d shows slaveId register value readBack exchange s)
    (hConfirms : Confirms shows slaveId
      (twoPass (link id d) slaveId register value readBack exchange s).1
      (twoPass (link id d) slaveId register value readBack exchange s).2.1) :
    d.applied (twoPass (link id d) slaveId register value readBack exchange s).2.2.server
      (register % 65536) value :=
  applied_of_answered hRemembers hValue fun hUnanswered =>
    hClear ((misled_iff shows hNumbered).mpr ⟨hConfirms, hUnanswered⟩)

/-! ### Runs -/

/-- What requests and what happens on the line preserve, a write preserves. -/
theorem twoPass_preserves {t : BleModbusTransport σ ε} {P : State UInt8 σ → Prop}
    (hRequest : ∀ frame n attempt s, P s → P (t.request frame n attempt s).2)
    (hStep : ∀ s event, P s → P (AnswerLine.step t.device.toServer s event)) (readBack : Bool)
    (h : P s) : P (twoPass t slaveId register value readBack exchange s).2.2 := by
  have hFirst := hRequest (requestFrame slaveId 6 register value)
    expectedWriteSingleResponseLen exchange.write s h
  simp only [twoPass]
  split
  · exact hFirst
  · split_ifs
    · exact hFirst
    · exact hRequest _ _ _ _ (Runs.run_preserves hStep hFirst exchange.pause)

/-- A call that reads back has no second reply only if the write raised. -/
theorem failed_of_twoPass_none {t : BleModbusTransport σ ε}
    (h : (twoPass t slaveId register value true exchange s).2.1 = none) :
    ∃ message, (twoPass t slaveId register value true exchange s).1 = .failed message := by
  simp only [twoPass] at h ⊢
  split at h
  · next message hReply => exact ⟨message, rfl⟩
  · cases h

theorem roverLoadWrite_ok_iff (t : BleModbusTransport σ ε) (on : Bool) :
    (roverLoadWrite t slaveId on exchange s).1.ok = true ↔
      Confirms (fun word => loadValue (word != 0) = loadValue on) slaveId
        (twoPass t slaveId loadRegister (loadValue on) true exchange s).1
        (twoPass t slaveId loadRegister (loadValue on) true exchange s).2.1 := by
  rw [roverLoadWrite]
  cases hSecond : (twoPass t slaveId loadRegister (loadValue on) true exchange s).2.1 with
  | some second => exact loadResult_ok_iff slaveId on _ second
  | none =>
      obtain ⟨message, hFailed⟩ := failed_of_twoPass_none hSecond
      simp [hFailed, loadResult, Confirms]

/-- What happens on a transport: something while nobody asks, a setting or the load
output is written, or any other request. -/
inductive WriteCall (ε : Type) where
  | happen (event : Event ε)
  | request (frame : Bytes) (expected : ℕ) (attempt : Attempt ε)
  | setting (slaveId : UInt8) (register : ℕ) (value : Int) (readBack : Bool)
      (exchange : Exchange ε)
  | load (slaveId : UInt8) (on : Bool) (exchange : Exchange ε)

def writeStep (t : BleModbusTransport σ ε) (s : State UInt8 σ) : WriteCall ε → State UInt8 σ
  | .happen event => AnswerLine.step t.device.toServer s event
  | .request frame expected attempt => (t.request frame expected attempt s).2
  | .setting slaveId register value readBack exchange =>
      match writeSettingRegister t slaveId register value readBack exchange s with
      | .ok (_, after) => after
      | .error _ => s
  | .load slaveId on exchange => (roverLoadWrite t slaveId on exchange s).2

/-- A confirmed write was applied before the call returned. -/
def Happened (id : String) (d : WritablePeripheral σ ε) (s : State UInt8 σ) :
    WriteCall ε → Prop
  | .setting slaveId register value readBack exchange => ∀ result after,
      writeSettingRegister (link id d) slaveId register value readBack exchange s =
        .ok (result, after) →
      result.ok = true → d.applied after.server (register % 65536) value.toNat
  | .load slaveId on exchange =>
      (roverLoadWrite (link id d) slaveId on exchange s).1.ok = true →
        d.applied (roverLoadWrite (link id d) slaveId on exchange s).2.server loadRegister
          (loadValue on)
  | _ => True

/-- The writes that are misled. For the load output, every register content but 0 stands
for on. -/
def MisledCall (d : WritablePeripheral σ ε) (s : State UInt8 σ) : WriteCall ε → Prop
  | .setting slaveId register value readBack exchange => (0 ≤ value ∧ value ≤ 0xFFFF) ∧
      Misled d (fun word => (word : Int) = value) slaveId register value.toNat readBack exchange s
  | .load slaveId on exchange =>
      Misled d (fun word => loadValue (word != 0) = loadValue on) slaveId loadRegister
        (loadValue on) true exchange s
  | _ => False

/-- Numbers are in order, and what has been applied stays applied. -/
def Reached (d : WritablePeripheral σ ε) (s : State UInt8 σ) : Prop :=
  Numbered s ∧ Remembers d.toServer s

theorem Reached.step (h : Reached d s) (event : Event ε) :
    Reached d (AnswerLine.step d.toServer s event) := ⟨h.1.step event, h.2.step event⟩

theorem Reached.request (h : Reached d s) (frame : Bytes) (n : ℕ) (attempt : Attempt ε) :
    Reached d ((link id d).request frame n attempt s).2 := by
  refine ⟨numbered_request h.1 frame n attempt, ?_⟩
  cases attempt with
  | notOpen => exact h.2
  | writeFails kind message written =>
      cases written with
      | true => exact h.2
      | false => exact h.2
  | waits events =>
      rw [request_waits_snd]
      exact h.2.wait frame events

theorem Reached.twoPass (h : Reached d s) (readBack : Bool) :
    Reached d (twoPass (link id d) slaveId register value readBack exchange s).2.2 :=
  twoPass_preserves (fun frame n attempt _ hs => hs.request frame n attempt)
    (fun _ event hs => hs.step event) readBack h

theorem Reached.writeStep (h : Reached d s) (call : WriteCall ε) :
    Reached d (writeStep (link id d) s call) := by
  cases call with
  | happen event => exact h.step event
  | request frame expected attempt => exact h.request frame expected attempt
  | load slaveId on exchange => exact h.twoPass true
  | setting slaveId register value readBack exchange =>
      rw [OverBle.writeStep, writeSettingRegister]
      cases buildWriteSingle slaveId register value with
      | error message => exact h
      | ok frame => exact h.twoPass readBack

/-- A value that fits 16 bits is written, and the result is that of the two passes. -/
theorem happened_setting_iff {value : Int} (hValue : 0 ≤ value ∧ value ≤ 0xFFFF) {readBack : Bool} :
    Happened id d s (.setting slaveId register value readBack exchange) ↔
      ((settingResult slaveId value
          (twoPass (link id d) slaveId register value.toNat readBack exchange s).1
          (twoPass (link id d) slaveId register value.toNat readBack exchange s).2.1).ok = true →
        d.applied (twoPass (link id d) slaveId register value.toNat readBack exchange s).2.2.server
          (register % 65536) value.toNat) := by
  rw [Happened, writeSettingRegister, buildWriteSingle, if_pos hValue]
  constructor
  · intro hAll hOk
    exact hAll _ _ rfl hOk
  · intro hOne result after hResult hOk
    obtain ⟨rfl, rfl⟩ := Prod.mk.inj (Except.ok.inj hResult)
    exact hOne hOk

theorem happened_of_not_misled (h : Reached d s) {call : WriteCall ε}
    (hClear : ¬ MisledCall d s call) : Happened id d s call := by
  cases call with
  | happen event => trivial
  | request frame expected attempt => trivial
  | load slaveId on exchange =>
      intro hOk
      exact applied_of_confirms h.1 (h.twoPass true).2 (by cases on <;> decide) hClear
        ((roverLoadWrite_ok_iff _ on).mp hOk)
  | setting slaveId register value readBack exchange =>
      by_cases hValue : 0 ≤ value ∧ value ≤ 0xFFFF
      · rw [happened_setting_iff hValue, settingResult_ok_iff]
        exact applied_of_confirms h.1 (h.twoPass readBack).2 (show value.toNat < 65536 by omega)
          fun hMisled => hClear ⟨hValue, hMisled⟩
      · rw [Happened, writeSettingRegister, buildWriteSingle, if_neg hValue]
        simp

/-- In every run in which no write is misled, every confirmed write was applied before its
call returned. -/
theorem writes_happened (id : String) (d : WritablePeripheral σ ε) (start : σ)
    {calls : List (WriteCall ε)}
    (h : Runs.StepsOk (writeStep (link id d)) (fun _ s call => ¬ MisledCall d s call)
      (State.start start) calls) :
    Runs.StepsOk (writeStep (link id d)) (fun _ s call => Happened id d s call)
      (State.start start) calls := by
  have hStart : Reached d (State.start start : State UInt8 σ) :=
    ⟨numbered_start start, remembers_start d.toServer start⟩
  intro before call after hCalls
  have hReached : Reached d (Runs.run (writeStep (link id d)) (State.start start) before) :=
    Runs.run_preserves (fun _ call hs => hs.writeStep call) hStart before
  exact happened_of_not_misled hReached (h before call after hCalls)

end OverBle

/-! ### A device that keeps a log -/

/-- A file of registers, and the writes that were applied to it. -/
structure LoggedDevice where
  device : Modbus.Device
  log : List (ℕ × ℕ)

namespace LoggedDevice

/-- The write that an answer acknowledges. -/
def written : Option Bytes → List (ℕ × ℕ)
  | some (_ :: fc :: rh :: rl :: ah :: al :: _) =>
      if fc = 6 then [(wordValue rh rl, wordValue ah al)] else []
  | _ => []

def serve (s : LoggedDevice) (frame : Bytes) : Option Bytes × LoggedDevice :=
  ((s.device.respond frame).1,
    ⟨(s.device.respond frame).2, written (s.device.respond frame).1 ++ s.log⟩)

theorem written_echo (slave : UInt8) {register value : ℕ} (hRegister : register < 65536)
    (hValue : value < 65536) :
    written (some (requestFrame slave 6 register value)) = [(register, value)] := by
  have hFirst := wordValue_wordBytes hRegister
  have hSecond := wordValue_wordBytes hValue
  simp [written, requestFrame, withCrc, wordBytes, hFirst, hSecond]

/-- Only the device itself answers, and it answers a write with its echo. -/
theorem respond_write (s : LoggedDevice) {slave : UInt8} {register value : ℕ} {answer : Bytes}
    (h : (s.serve (requestFrame slave 6 register value)).1 = some answer) :
    ∃ first second, answer = requestFrame slave 6 first second ∧
      (register < 65536 → first = register) ∧ (value < 65536 → second = value) := by
  rw [serve, respond_requestFrame] at h
  by_cases hSlave : slave = s.device.slaveId
  · simp only [hSlave, ne_eq, not_true_eq_false, if_false, show ¬ (6 : UInt8) = 3 by decide,
      if_true, Option.some.injEq] at h
    exact ⟨_, _, hSlave ▸ h.symm, fun hRegister => wordValue_wordBytes hRegister,
      fun hValue => wordValue_wordBytes hValue⟩
  · simp [hSlave] at h

theorem respond_read_one (s : LoggedDevice) {slave : UInt8} {register : ℕ} {answer : Bytes}
    (hRegister : register < 65536)
    (h : (s.serve (requestFrame slave 3 register 1)).1 = some answer) :
    answer = readReply slave 3 [(s.device.registers register).toNat] := by
  rw [serve, respond_requestFrame] at h
  by_cases hSlave : slave = s.device.slaveId
  · have hFirst := wordValue_wordBytes hRegister
    have hOne : wordValue (UInt8.ofNat (1 / 256)) (UInt8.ofNat 1) = 1 := by decide
    simp only [hSlave, ne_eq, not_true_eq_false, if_false, if_true, hFirst, hOne, le_refl,
      show 1 ≤ 125 by decide, and_self, Option.some.injEq] at h
    rw [← h, hSlave]
    rfl
  · simp [hSlave] at h

end LoggedDevice

/-- The logged device on the link. Its registers may change at any time. -/
def loggedPeripheral : WritablePeripheral LoggedDevice (ℕ → UInt16) where
  serve := LoggedDevice.serve
  evolve registers s := { s with device := { s.device with registers := registers } }
  fits s _ _ _ _ _ hFc h := length_respond_read s.device hFc h
  applied s register value := (register, value) ∈ s.log
  contents s register := s.device.registers register
  write_fits s _ _ _ answer h := by
    obtain ⟨first, second, rfl, _⟩ := s.respond_write h
    exact le_refl 8
  echo s slave register value answer hRegister hValue h _ := by
    obtain ⟨first, second, rfl, hFirst, hSecond⟩ := s.respond_write h
    obtain rfl := hFirst hRegister
    obtain rfl := hSecond hValue
    refine ⟨rfl, ?_⟩
    have hAnswer : (s.device.respond (requestFrame slave 6 first second)).1 =
        some (requestFrame slave 6 first second) := h
    rw [LoggedDevice.serve, hAnswer, LoggedDevice.written_echo slave hRegister hValue]
    exact List.mem_cons_self
  read_one s _ _ _ hRegister h _ := s.respond_read_one hRegister h
  applied_lasts _ _ := ⟨fun _ _ h => List.mem_append_right _ h, fun _ _ h => h⟩

namespace OverBle

/-- A load controller whose load is off. -/
def rover : LoggedDevice := ⟨⟨1, fun _ => 0⟩, []⟩

/-- The load is switched on, and neither reply comes in time; the echo of that write
comes later, and the read-back's frame is lost. -/
def switchedOn : List (WriteCall (ℕ → UInt16)) :=
  [.load 1 true ⟨.waits [], [], .waits []⟩, .happen (.serve true), .happen .lose]

/-- The load is switched off, and both frames are lost. -/
def switchOff : WriteCall (ℕ → UInt16) :=
  .load 1 false ⟨.waits [.arrive 8, .lose], [], .waits [.lose]⟩

/-- The load is switched on, read back, and switched off; the second read-back is lost. -/
def echoed : List (WriteCall (ℕ → UInt16)) :=
  [.load 1 true ⟨.waits [.serve true, .arrive 8], [], .waits [.serve true, .arrive 7]⟩,
    .load 1 false ⟨.waits [.serve true, .arrive 8], [], .waits [.lose]⟩]

theorem writes_happened_echoed :
    Runs.StepsOk (writeStep (link "bt2" loggedPeripheral))
      (fun _ s call => Happened "bt2" loggedPeripheral s call) (State.start rover) echoed := by
  refine writes_happened "bt2" loggedPeripheral rover (Runs.stepsOk_cons.mpr ⟨?_,
    Runs.stepsOk_cons.mpr ⟨?_, Runs.stepsOk_nil⟩⟩)
  · exact not_misled_of_answered rfl (answered_of_served rfl (by decide +kernel) true _)
  · exact not_misled_of_answered rfl (answered_of_served (by decide +kernel)
      (by decide +kernel) true _)

/-- The late echo of the switching on confirms the switching off, which the device never
heard of. -/
theorem late_echo_confirms_lost_write :
    ¬ ∀ (id : String) (d : WritablePeripheral LoggedDevice (ℕ → UInt16)) (start : LoggedDevice)
        (calls : List (WriteCall (ℕ → UInt16))),
      Runs.StepsOk (writeStep (link id d)) (fun _ s call => Happened id d s call)
        (State.start start) calls := by
  intro h
  have hHappened := h "bt2" loggedPeripheral rover (switchedOn ++ [switchOff]) switchedOn
    switchOff [] rfl
  have hOk : (roverLoadWrite (link "bt2" loggedPeripheral) 1 false
      ⟨.waits [.arrive 8, .lose], [], .waits [.lose]⟩
      (Runs.run (writeStep (link "bt2" loggedPeripheral)) (State.start rover) switchedOn)).1.ok =
        true := by
    decide +kernel
  have hApplied : (loadRegister, loadValue false) ∈
      (roverLoadWrite (link "bt2" loggedPeripheral) 1 false
        ⟨.waits [.arrive 8, .lose], [], .waits [.lose]⟩
        (Runs.run (writeStep (link "bt2" loggedPeripheral)) (State.start rover)
          switchedOn)).2.server.log := hHappened hOk
  exact absurd hApplied (by decide +kernel)

end OverBle

end WattPost.Vendors
