import Mathlib.Data.List.TakeWhile
import WattPost.Vendors.Base

/-! Voltronic inverters over USB-HID: a request, and the reply, which comes in reports of
eight bytes. Padding, parenthesis and carriage return are all told by byte value; the
checksum of a payload can have a zero among its bytes, a wrong checksum any of them. -/
namespace WattPost.UsbHidVoltronic

open Vendors (Bytes)

def cr : UInt8 := 0x0d

def paren : UInt8 := 0x28

/-! ### The checksum -/

/-- One bit of the loop. -/
def shiftBit (crc : UInt16) : UInt16 :=
  if crc &&& 0x8000 ≠ 0 then (crc <<< 1) ^^^ 0x1021 else crc <<< 1

/-- One byte of the loop. -/
def shiftByte (crc : UInt16) (byte : UInt8) : UInt16 :=
  shiftBit^[8] (crc ^^^ (byte.toUInt16 <<< 8))

/-- `crc16_xmodem`. -/
def crc16Xmodem (data : Bytes) : UInt16 := data.foldl shiftByte 0

/-- `_FRAMING_BYTES`. -/
def framingBytes : Bytes := [0x28, 0x0d, 0x0a]

/-- `_bump_framing`. -/
def bumpFraming (b : UInt8) : UInt8 := if b ∈ framingBytes then b + 1 else b

/-- `voltronic_crc`. -/
def voltronicCrc (data : Bytes) : Bytes :=
  let crc := crc16Xmodem data
  [bumpFraming (crc >>> 8).toUInt8, bumpFraming crc.toUInt8]

/-- `frame_command`. -/
def frameCommand (cmd : Bytes) : Bytes := cmd ++ voltronicCrc cmd ++ [cr]

/-- How a query fails. -/
inductive QueryError where
  | timeout
  | overlong
  | noParenthesis (start : Bytes)
  | tooShort (length : Nat)
  | crcMismatch (payload expected supplied : Bytes)
deriving DecidableEq

/-- `verify_and_strip`. An empty frame is too short as well. -/
def verifyAndStrip (frame : Bytes) : Except QueryError Bytes :=
  let frame := if frame.getLast? = some cr then frame.dropLast else frame
  if frame.length < 3 then .error (.tooShort frame.length)
  else
    let payload := frame.take (frame.length - 2)
    let supplied := frame.drop (frame.length - 2)
    if supplied ≠ voltronicCrc payload then
      .error (.crcMismatch payload (voltronicCrc payload) supplied)
    else .ok payload

/-! ### The transport -/

def reportSize : Nat := 8

def maxResponse : Nat := 256

/-- Bytes cut into reports, the last one padded. -/
def reports (wire : Bytes) : List Bytes :=
  if wire.isEmpty then []
  else (wire.take reportSize).rightpad reportSize 0 :: reports (wire.drop reportSize)
termination_by wire.length
decreasing_by
  rw [List.isEmpty_iff] at *
  have := List.length_pos_iff.mpr (by assumption : wire ≠ [])
  simp only [List.length_drop, reportSize]
  omega

/-- What is written for a command: each report behind a zero for its id. -/
def writes (cmd : Bytes) : List Bytes := (reports (frameCommand cmd)).map (0 :: ·)

/-- The reading loop, from a buffer on: what `dev.read` gives, one result after another,
until the deadline. An empty result is a pause. -/
def readReply (buf : Bytes) : List Bytes → Except QueryError Bytes
  | [] => .error .timeout
  | [] :: rest => readReply buf rest
  | (b :: chunk) :: rest =>
      let buf := buf ++ b :: chunk
      if cr ∈ buf then .ok buf
      else if maxResponse < buf.length then .error .overlong
      else readReply buf rest

/-- What is made of the buffer. -/
def unframe (buf : Bytes) : Except QueryError Bytes :=
  let frame := buf.takeWhile (· ≠ cr) ++ [cr]
  if frame.head? ≠ some paren then .error (.noParenthesis (frame.take 8))
  else verifyAndStrip ((frame.dropWhile (· = paren)).filter (· ≠ 0))

/-- `_query_locked` after the writes. -/
def queryLocked (reads : List Bytes) : Except QueryError Bytes := do
  let buf ← readReply [] reads
  unframe buf

/-! ### Replies -/

/-- A reply with these two checksum bytes. -/
def reply (payload : Bytes) (hi lo : UInt8) : Bytes := paren :: payload ++ [hi, lo] ++ [cr]

def Printable (payload : Bytes) : Prop := ∀ b ∈ payload, 0x20 ≤ b.toNat ∧ b.toNat ≤ 0x7e

/-- The reply comes in before the deadline, report by report, with pauses anywhere. -/
def Answers (reads : List Bytes) (payload : Bytes) (hi lo : UInt8) : Prop :=
  reports (reply payload hi lo) <+: reads.filter fun chunk => !chunk.isEmpty

/-- A reply with the checksum of its payload is decoded to the payload, and another one
is rejected. -/
structure RepliesDecode (payload : Bytes) (hi lo : UInt8) (reads : List Bytes) : Prop where
  accepts : [hi, lo] = voltronicCrc payload → queryLocked reads = .ok payload
  rejects : [hi, lo] ≠ voltronicCrc payload → ∃ e, queryLocked reads = .error e

/-- What is left of payload and checksum: what comes before a carriage return, without
the parentheses in front and without zeros. -/
def residue (payload : Bytes) (hi lo : UInt8) : Bytes :=
  (((payload ++ [hi, lo]).takeWhile (· ≠ cr)).dropWhile (· = paren)).filter (· ≠ 0)

/-- A byte that the stripping takes, or that ends the reply. -/
def Special (b : UInt8) : Prop := b = 0 ∨ b = cr

instance : DecidablePred Special := fun b => inferInstanceAs (Decidable (b = 0 ∨ b = cr))

/-- How a reply with a wrong checksum passes for another one. With a parenthesis in front of
the payload, the checksum may be that of the payload without any. With a special byte in the
checksum, the end of the payload stands in for the checksum byte that is lost, or for both,
and may by chance be the checksum of what comes before. -/
inductive Mistaken (payload : Bytes) (hi lo : UInt8) : Prop where
  | parenthesis (hHead : payload.head? = some paren)
      (hNonempty : payload.dropWhile (· = paren) ≠ [])
      (hCrc : [hi, lo] = voltronicCrc (payload.dropWhile (· = paren)))
      (hZero : (0 : UInt8) ∉ [hi, lo])
  | oneByte (rest : Bytes) (last kept : UInt8) (hNonempty : rest ≠ [])
      (hPayload : payload.dropWhile (· = paren) = rest ++ [last])
      (hKept : hi = kept ∧ Special lo ∨ hi = 0 ∧ lo = kept) (hPlain : ¬ Special kept)
      (hCrc : [last, kept] = voltronicCrc rest)
  | bothBytes (rest : Bytes) (hNonempty : rest ≠ [])
      (hPayload : payload.dropWhile (· = paren) = rest ++ voltronicCrc rest)
      (hLost : hi = cr ∨ hi = 0 ∧ Special lo)

/-- The stripping spares this reply: where the checksum is right, the payload begins with
no parenthesis and the checksum has no zero; where it is wrong, it is not mistaken. -/
structure Spared (payload : Bytes) (hi lo : UInt8) : Prop where
  right : [hi, lo] = voltronicCrc payload → payload.head? ≠ some paren ∧ (0 : UInt8) ∉ [hi, lo]
  wrong : [hi, lo] ≠ voltronicCrc payload → ¬ Mistaken payload hi lo

/-! ### The checksum bytes -/

theorem bumpFraming_ne {b : UInt8} : bumpFraming b ≠ cr ∧ bumpFraming b ≠ paren := by
  unfold bumpFraming framingBytes cr paren
  constructor
  all_goals
    split_ifs with hFraming
    · simp only [List.mem_cons, List.not_mem_nil, or_false] at hFraming
      rcases hFraming with rfl | rfl | rfl <;> decide
    · rintro rfl
      simp at hFraming

theorem notMem_voltronicCrc (payload : Bytes) :
    cr ∉ voltronicCrc payload ∧ paren ∉ voltronicCrc payload := by
  simp only [voltronicCrc, List.mem_cons, List.not_mem_nil, or_false, not_or]
  exact ⟨⟨bumpFraming_ne.1.symm, bumpFraming_ne.1.symm⟩,
    ⟨bumpFraming_ne.2.symm, bumpFraming_ne.2.symm⟩⟩

theorem length_voltronicCrc (payload : Bytes) : (voltronicCrc payload).length = 2 := rfl

/-- What is accepted is a payload in front of its checksum. -/
theorem verifyAndStrip_concat_iff {clean payload : Bytes} :
    verifyAndStrip (clean ++ [cr]) = .ok payload ↔
      payload ≠ [] ∧ clean = payload ++ voltronicCrc payload := by
  unfold verifyAndStrip
  rw [List.getLast?_concat, if_pos rfl, List.dropLast_concat]
  dsimp only
  constructor
  · intro h
    split_ifs at h with hShort hCrc
    obtain rfl := Except.ok.inj h
    rw [not_ne_iff] at hCrc
    refine ⟨?_, ?_⟩
    · rw [← List.length_pos_iff, List.length_take]
      omega
    · rw [← hCrc, List.take_append_drop]
  · rintro ⟨hNonempty, rfl⟩
    have hPos := List.length_pos_iff.mpr hNonempty
    have hLength : (payload ++ voltronicCrc payload).length - 2 = payload.length := by
      rw [List.length_append, length_voltronicCrc, Nat.add_sub_cancel]
    rw [if_neg, hLength, List.take_left, List.drop_left, if_neg (by simp)]
    rw [List.length_append, length_voltronicCrc]
    omega

/-! ### The buffer -/

/-- The reports carry the bytes, and zeros after them. -/
theorem flatten_reports (wire : Bytes) :
    ∃ padding, (reports wire).flatten = wire ++ padding := by
  fun_induction reports wire with
  | case1 wire hEmpty =>
      rw [List.isEmpty_iff] at hEmpty
      exact ⟨[], by rw [hEmpty]; rfl⟩
  | case2 wire hNonempty ih =>
      obtain ⟨padding, hRest⟩ := ih
      by_cases hLong : reportSize ≤ wire.length
      · refine ⟨padding, ?_⟩
        rw [List.flatten_cons, hRest, List.rightpad, List.length_take, Nat.min_eq_left hLong,
          Nat.sub_self, List.replicate_zero, List.append_nil, ← List.append_assoc,
          List.take_append_drop]
      · have hDrop : wire.drop reportSize = [] := List.drop_eq_nil_of_le (by omega)
        have hTake : wire.take reportSize = wire := List.take_of_length_le (by omega)
        refine ⟨List.replicate (reportSize - wire.length) 0, ?_⟩
        rw [List.flatten_cons, hDrop, hTake, List.rightpad, reports, if_pos (by rfl),
          List.flatten_nil, List.append_nil]

/-- Reading stops with the first report that brings a carriage return, if that comes
within the limit. -/
theorem readReply_eq {reads : List Bytes} {buf front back : Bytes}
    (hReads : reads.flatten = front ++ cr :: back) (hBuf : cr ∉ buf) (hFront : cr ∉ front)
    (hLength : buf.length + front.length ≤ maxResponse) :
    ∃ more, readReply buf reads = .ok (buf ++ front ++ cr :: more) := by
  induction reads generalizing buf front with
  | nil => simp at hReads
  | cons chunk rest ih =>
      rw [List.flatten_cons] at hReads
      cases chunk with
      | nil => exact ih hReads hBuf hFront hLength
      | cons b chunk =>
          unfold readReply
          dsimp only
          rcases List.append_eq_append_iff.mp hReads with ⟨todo, rfl, hRest⟩ | ⟨more, hChunk, hBack⟩
          · -- the report ends before the carriage return
            rw [List.mem_append, not_or] at hFront
            have hNone : cr ∉ buf ++ b :: chunk := by
              rw [List.mem_append, not_or]
              exact ⟨hBuf, hFront.1⟩
            have hTotal : (buf ++ b :: chunk).length + todo.length ≤ maxResponse := by
              rw [List.length_append] at *
              omega
            obtain ⟨more, hMore⟩ := ih hRest hNone hFront.2 hTotal
            refine ⟨more, ?_⟩
            rw [if_neg hNone, if_neg (by omega), hMore]
            simp
          · cases more with
            | nil =>
                -- it ends just before it
                rw [List.append_nil] at hChunk
                have hNone : cr ∉ buf ++ b :: chunk := by
                  rw [List.mem_append, not_or, hChunk]
                  exact ⟨hBuf, hFront⟩
                have hTotal : (buf ++ b :: chunk).length + ([] : Bytes).length ≤ maxResponse := by
                  rw [List.length_append, hChunk, List.length_nil]
                  omega
                have hRest : rest.flatten = ([] : Bytes) ++ cr :: back := hBack.symm
                obtain ⟨more, hMore⟩ := ih hRest hNone List.not_mem_nil hTotal
                refine ⟨more, ?_⟩
                rw [if_neg hNone, if_neg (by simpa using hTotal), hMore, hChunk]
                simp
            | cons c more =>
                obtain ⟨rfl, hBack⟩ := List.cons.inj hBack
                refine ⟨more, ?_⟩
                rw [hChunk, if_pos (by simp), List.append_assoc]

/-! ### The reply -/

section Reply

variable {payload : Bytes} {hi lo : UInt8} {reads : List Bytes}

/-- Up to the first carriage return. -/
theorem exists_back (body : Bytes) :
    ∃ back, body ++ [cr] = body.takeWhile (· ≠ cr) ++ cr :: back := by
  induction body with
  | nil => exact ⟨[], rfl⟩
  | cons b body ih =>
      by_cases hStop : b = cr
      · refine ⟨body ++ [cr], ?_⟩
        rw [List.takeWhile_cons_of_neg (by simpa using hStop), hStop]
        rfl
      · obtain ⟨back, hBack⟩ := ih
        refine ⟨back, ?_⟩
        rw [List.takeWhile_cons_of_pos (by simpa using hStop), List.cons_append, hBack]
        rfl

/-- What the reply gives is told by what the stripping leaves of it. -/
theorem queryLocked_eq (hLength : (reply payload hi lo).length ≤ maxResponse)
    (hAnswers : Answers reads payload hi lo) :
    queryLocked reads = verifyAndStrip (residue payload hi lo ++ [cr]) := by
  obtain ⟨later, hLater⟩ := hAnswers
  obtain ⟨padding, hPadding⟩ := flatten_reports (reply payload hi lo)
  have hBytes : reads.flatten = reply payload hi lo ++ padding ++ later.flatten := by
    rw [← hPadding, ← List.flatten_append, hLater, List.flatten_filter_not_isEmpty]
  let front := (payload ++ [hi, lo]).takeWhile (· ≠ cr)
  obtain ⟨back, hBack⟩ := exists_back (payload ++ [hi, lo])
  have hFront : cr ∉ front := by
    intro hMem
    simpa using List.mem_takeWhile_imp hMem
  have hReply : reply payload hi lo = (paren :: front) ++ cr :: back := by
    rw [reply, List.cons_append, List.cons_append, hBack]
    rfl
  have hWire : reads.flatten = (paren :: front) ++ cr :: (back ++ padding ++ later.flatten) := by
    rw [hBytes, hReply]
    simp
  have hRoom : ([] : Bytes).length + (paren :: front).length ≤ maxResponse := by
    rw [hReply, List.length_append] at hLength
    simp only [List.length_nil]
    omega
  have hNone : cr ∉ paren :: front := by
    rw [List.mem_cons, not_or]
    exact ⟨by decide, hFront⟩
  obtain ⟨more, hMore⟩ := readReply_eq hWire List.not_mem_nil hNone hRoom
  have hTake : ([] ++ (paren :: front) ++ cr :: more).takeWhile (· ≠ cr) = paren :: front := by
    rw [List.nil_append, List.takeWhile_append_of_pos, List.takeWhile_cons_of_neg (by simp),
      List.append_nil]
    intro b hb
    rw [decide_eq_true_eq]
    rintro rfl
    exact hNone hb
  have hStrip : (((paren :: front) ++ [cr]).dropWhile (· = paren)).filter (· ≠ 0) =
      residue payload hi lo ++ [cr] := by
    rw [List.cons_append, List.dropWhile_cons_of_pos (by simp), List.dropWhile_append]
    split
    case isTrue hEmpty =>
      rw [List.isEmpty_iff] at hEmpty
      rw [residue, hEmpty]
      rfl
    case isFalse =>
      rw [List.filter_append]
      rfl
  rw [queryLocked, hMore]
  change unframe ([] ++ (paren :: front) ++ cr :: more) = _
  rw [unframe, hTake, if_neg (by simp), hStrip]

/-- A payload in front of its own checksum is what is left of a reply just when it is the
payload of the reply and the stripping took nothing. -/
theorem residue_eq_iff (hPrintable : Printable payload)
    (hCrc : [hi, lo] = voltronicCrc payload) :
    payload ≠ [] ∧ residue payload hi lo = payload ++ voltronicCrc payload ↔
      payload.head? ≠ some paren ∧ (0 : UInt8) ∉ [hi, lo] := by
  have hBody : (payload ++ [hi, lo]).takeWhile (· ≠ cr) = payload ++ [hi, lo] := by
    rw [List.takeWhile_eq_self_iff]
    intro b hb
    rw [decide_eq_true_eq]
    rintro rfl
    rcases List.mem_append.mp hb with hPayload | hSum
    · have hRange := (hPrintable cr hPayload).1
      exact absurd hRange (by decide)
    · rw [hCrc] at hSum
      exact (notMem_voltronicCrc payload).1 hSum
  have hNoZero : (0 : UInt8) ∉ payload := by
    intro hZero
    have hRange := (hPrintable 0 hZero).1
    exact absurd hRange (by decide)
  rw [residue, hBody, ← hCrc]
  constructor
  · rintro ⟨hNonempty, hSame⟩
    have hSub := (List.filter_sublist (p := (· ≠ 0))
      (l := (payload ++ [hi, lo]).dropWhile (· = paren)))
    have hDrop := List.dropWhile_sublist (· = paren) (l := payload ++ [hi, lo])
    rw [hSame] at hSub
    have hWhole := hDrop.antisymm hSub
    rw [hWhole] at hSame
    constructor
    · intro hHead
      obtain ⟨rest, rfl⟩ := List.head?_eq_some_iff.mp hHead
      rw [List.cons_append, List.dropWhile_cons_of_pos (by simp)] at hWhole
      have hLength := congrArg List.length hWhole
      have hShort := (List.dropWhile_sublist (· = paren) (l := rest ++ [hi, lo])).length_le
      rw [List.length_cons] at hLength
      omega
    · intro hZero
      have hKept : (0 : UInt8) ∈ (payload ++ [hi, lo]).filter (· ≠ 0) := by
        rw [hSame]
        exact List.mem_append_right _ hZero
      simpa using (List.mem_filter.mp hKept).2
  · rintro ⟨hHead, hZero⟩
    have hNonempty : payload ≠ [] := by
      rintro rfl
      rw [hCrc] at hZero
      exact absurd hZero (by decide)
    obtain ⟨b, rest, rfl⟩ := List.exists_cons_of_ne_nil hNonempty
    have hFirst : b ≠ paren := by simpa using hHead
    refine ⟨hNonempty, ?_⟩
    rw [List.cons_append, List.dropWhile_cons_of_neg (by simpa using hFirst),
      List.filter_eq_self.mpr]
    intro x hx
    rw [decide_eq_true_eq]
    rintro rfl
    rcases List.mem_append.mp (List.cons_append ▸ hx) with hPayload | hSum
    · exact hNoZero hPayload
    · exact hZero hSum

/-- What is left of the checksum bytes. -/
def leftOver (hi lo : UInt8) : Bytes := ([hi, lo].takeWhile (· ≠ cr)).filter (· ≠ 0)

/-- The stripping leaves the payload without its parentheses and what is left of the
checksum. Nothing but parentheses goes on into the checksum, and leaves two bytes at most. -/
theorem residue_eq (hPrintable : Printable payload) (hi lo : UInt8) :
    residue payload hi lo = payload.dropWhile (· = paren) ++ leftOver hi lo ∧
        payload.dropWhile (· = paren) ≠ [] ∨
      (residue payload hi lo).length ≤ 2 ∧ payload.dropWhile (· = paren) = [] := by
  have hPlain : ∀ b ∈ payload, b ≠ cr ∧ b ≠ 0 := by
    intro b hb
    have hRange := (hPrintable b hb).1
    constructor
    · rintro rfl
      exact absurd hRange (by decide)
    · rintro rfl
      exact absurd hRange (by decide)
  have hTake : (payload ++ [hi, lo]).takeWhile (· ≠ cr) =
      payload ++ [hi, lo].takeWhile (· ≠ cr) :=
    List.takeWhile_append_of_pos fun b hb => decide_eq_true (hPlain b hb).1
  rw [residue, hTake, List.dropWhile_append]
  split
  case isTrue hEmpty =>
    refine .inr ⟨?_, List.isEmpty_iff.mp hEmpty⟩
    exact (List.length_filter_le _ _).trans
      (((List.dropWhile_sublist _).trans (List.takeWhile_prefix _).sublist).length_le)
  case isFalse hNonempty =>
    refine .inl ⟨?_, fun hNil => hNonempty (List.isEmpty_iff.mpr hNil)⟩
    rw [List.filter_append, leftOver, List.filter_eq_self.mpr]
    intro b hb
    exact decide_eq_true (hPlain b ((List.dropWhile_sublist _).subset hb)).2

/-- What is left of the checksum, by the special bytes in it. -/
theorem leftOver_eq (hi lo : UInt8) :
    leftOver hi lo = [hi, lo] ∧ ¬ Special hi ∧ ¬ Special lo ∨
      (∃ kept, leftOver hi lo = [kept] ∧ ¬ Special kept ∧
        (hi = kept ∧ Special lo ∨ hi = 0 ∧ lo = kept)) ∨
      leftOver hi lo = [] ∧ (hi = cr ∨ hi = 0 ∧ Special lo) := by
  by_cases hCr : hi = cr
  · exact .inr (.inr ⟨by simp [leftOver, hCr], .inl hCr⟩)
  by_cases hZero : hi = 0
  · by_cases hLo : Special lo
    · refine .inr (.inr ⟨?_, .inr ⟨hZero, hLo⟩⟩)
      rcases hLo with rfl | rfl <;> subst hZero <;> rfl
    · refine .inr (.inl ⟨lo, ?_, hLo, .inr ⟨hZero, rfl⟩⟩)
      rw [Special, not_or] at hLo
      simp [leftOver, hZero, hLo.1, hLo.2, show (0 : UInt8) ≠ cr by decide]
  have hHi : ¬ Special hi := not_or.mpr ⟨hZero, hCr⟩
  by_cases hLo : Special lo
  · refine .inr (.inl ⟨hi, ?_, hHi, .inl ⟨rfl, hLo⟩⟩)
    rcases hLo with rfl | rfl
    · simp [leftOver, hZero, hCr, show (0 : UInt8) ≠ cr by decide]
    · simp [leftOver, hZero, hCr]
  · refine .inl ⟨?_, hHi, hLo⟩
    rw [Special, not_or] at hLo
    simp [leftOver, hZero, hCr, hLo.1, hLo.2]

/-- A reply with a wrong checksum is mistaken just when what is left of it is something in
front of its own checksum. -/
theorem exists_residue_iff (hPrintable : Printable payload)
    (hWrong : [hi, lo] ≠ voltronicCrc payload) :
    (∃ rest, rest ≠ [] ∧ residue payload hi lo = rest ++ voltronicCrc rest) ↔
      Mistaken payload hi lo := by
  constructor
  · rintro ⟨rest, hRest, hEq⟩
    have hLong : 3 ≤ (residue payload hi lo).length := by
      have hPos := List.length_pos_iff.mpr hRest
      rw [hEq, List.length_append, length_voltronicCrc]
      omega
    rcases residue_eq hPrintable hi lo with ⟨hLeft, hBody⟩ | ⟨hShort, -⟩
    swap
    · omega
    rw [hLeft] at hEq
    rcases leftOver_eq hi lo with ⟨hAll, hHi, hLo⟩ | ⟨kept, hOne, hPlain, hKept⟩ | ⟨hNone, hLost⟩
    · rw [hAll] at hEq
      obtain ⟨rfl, hCrc⟩ := List.append_inj' hEq rfl
      refine .parenthesis ?_ hBody hCrc ?_
      · by_contra hHead
        refine hWrong (hCrc.trans (congrArg voltronicCrc ?_))
        cases payload with
        | nil => rfl
        | cons b payload => exact List.dropWhile_cons_of_neg (by simpa using hHead)
      · rw [List.mem_cons, List.mem_singleton, not_or]
        exact ⟨fun h => hHi (.inl h.symm), fun h => hLo (.inl h.symm)⟩
    · rw [hOne] at hEq
      obtain ⟨last, sum, hSum⟩ := List.length_eq_two.mp (length_voltronicCrc rest)
      rw [hSum, List.append_cons rest] at hEq
      obtain ⟨hPayload, hLast⟩ := List.append_inj' hEq rfl
      rw [← hLast] at hSum
      exact .oneByte rest last kept hRest hPayload hKept hPlain hSum.symm
    · rw [hNone, List.append_nil] at hEq
      exact .bothBytes rest hRest hEq hLost
  · intro hMistaken
    have hLeft (hBody : payload.dropWhile (· = paren) ≠ []) :
        residue payload hi lo = payload.dropWhile (· = paren) ++ leftOver hi lo := by
      rcases residue_eq hPrintable hi lo with hLeft | hNil
      · exact hLeft.1
      · exact absurd hNil.2 hBody
    cases hMistaken with
    | parenthesis hHead hNonempty hCrc hZero =>
        refine ⟨_, hNonempty, ?_⟩
        have hCr : cr ∉ [hi, lo] := hCrc ▸ (notMem_voltronicCrc _).1
        have hAll : leftOver hi lo = [hi, lo] := by
          simp only [List.mem_cons, List.not_mem_nil, or_false, not_or] at hCr hZero
          simp [leftOver, Ne.symm hCr.1, Ne.symm hCr.2, Ne.symm hZero.1, Ne.symm hZero.2]
        rw [hLeft hNonempty, ← hCrc, hAll]
    | oneByte rest last kept hNonempty hPayload hKept hPlain hCrc =>
        refine ⟨rest, hNonempty, ?_⟩
        have hOne : leftOver hi lo = [kept] := by
          rw [Special, not_or] at hPlain
          rcases hKept with ⟨rfl, rfl | rfl⟩ | ⟨rfl, rfl⟩ <;>
            simp [leftOver, hPlain, show (0 : UInt8) ≠ cr by decide]
        rw [hLeft (by simp [hPayload]), hOne, hPayload, ← hCrc, List.append_assoc,
          List.singleton_append]
    | bothBytes rest hNonempty hPayload hLost =>
        refine ⟨rest, hNonempty, ?_⟩
        have hNone : leftOver hi lo = [] := by
          rcases hLost with rfl | ⟨rfl, rfl | rfl⟩
          · simp [leftOver]
          · rfl
          · rfl
        rw [hLeft (by simp [hPayload, hNonempty]), hNone, hPayload, List.append_nil]

/-- A reply is decoded, or rejected, as it should be, just when the stripping spares it. -/
theorem replies_decode_iff (hPrintable : Printable payload)
    (hLength : (reply payload hi lo).length ≤ maxResponse)
    (hAnswers : Answers reads payload hi lo) :
    RepliesDecode payload hi lo reads ↔ Spared payload hi lo := by
  have hQuery := queryLocked_eq hLength hAnswers
  have hRejects : (∃ e, queryLocked reads = .error e) ↔
      ¬ ∃ rest, rest ≠ [] ∧ residue payload hi lo = rest ++ voltronicCrc rest := by
    rw [hQuery]
    constructor
    · rintro ⟨e, hError⟩ ⟨rest, hRest⟩
      rw [verifyAndStrip_concat_iff.mpr hRest] at hError
      cases hError
    · intro hNone
      cases hResult : verifyAndStrip (residue payload hi lo ++ [cr]) with
      | error e => exact ⟨e, rfl⟩
      | ok rest => exact absurd ⟨rest, verifyAndStrip_concat_iff.mp hResult⟩ hNone
  have hAccepts : [hi, lo] = voltronicCrc payload → (queryLocked reads = .ok payload ↔
      payload.head? ≠ some paren ∧ (0 : UInt8) ∉ [hi, lo]) := by
    intro hCrc
    rw [hQuery, verifyAndStrip_concat_iff]
    exact residue_eq_iff hPrintable hCrc
  constructor
  · intro h
    refine ⟨fun hCrc => (hAccepts hCrc).mp (h.accepts hCrc), fun hCrc => ?_⟩
    exact mt (exists_residue_iff hPrintable hCrc).mpr (hRejects.mp (h.rejects hCrc))
  · intro h
    refine ⟨fun hCrc => (hAccepts hCrc).mpr (h.right hCrc), fun hCrc => ?_⟩
    exact hRejects.mpr (mt (exists_residue_iff hPrintable hCrc).mp (h.wrong hCrc))

/-- A reply is spared where its payload begins with no parenthesis and the checksum bytes,
right or wrong, are neither zero nor a carriage return. -/
theorem spared_of_plain (hHead : payload.head? ≠ some paren)
    (hHi : ¬ Special hi) (hLo : ¬ Special lo) : Spared payload hi lo := by
  have hZero : hi ≠ 0 ∧ lo ≠ 0 := ⟨fun h => hHi (.inl h), fun h => hLo (.inl h)⟩
  refine ⟨fun _ => ⟨hHead, ?_⟩, fun _ hMistaken => ?_⟩
  · simpa [eq_comm] using hZero
  cases hMistaken with
  | parenthesis hParen => exact hHead hParen
  | oneByte _ _ _ _ _ hKept => exact hKept.elim (fun h => hLo h.2) (fun h => hZero.1 h.1)
  | bothBytes _ _ _ hLost => exact hLost.elim (fun h => hHi (.inr h)) (fun h => hZero.1 h.1)

/-- Reports without pauses. -/
theorem answers_reports (payload : Bytes) (hi lo : UInt8) :
    Answers (reports (reply payload hi lo)) payload hi lo := by
  have hNonempty : ∀ wire, ∀ chunk ∈ reports wire, (!chunk.isEmpty) = true := by
    intro wire
    fun_induction reports wire with
    | case1 => exact fun _ hMem => absurd hMem List.not_mem_nil
    | case2 wire hWire ih =>
        intro chunk hMem
        rcases List.mem_cons.mp hMem with rfl | hMem
        · cases wire with
          | nil => exact absurd rfl hWire
          | cons b rest => rfl
        · exact ih chunk hMem
  rw [Answers, List.filter_eq_self.mpr (hNonempty _)]

end Reply

/-! ### Two replies -/

/-- "PI30". -/
def protocolId : Bytes := [0x50, 0x49, 0x33, 0x30]

/-- "227.3", whose checksum is EA 00. -/
def gridVoltage : Bytes := [0x32, 0x32, 0x37, 0x2e, 0x33]

theorem printable_of_all {payload : Bytes}
    (h : payload.all (fun b => decide (0x20 ≤ b.toNat ∧ b.toNat ≤ 0x7e)) = true) :
    Printable payload := by
  intro b hb
  exact of_decide_eq_true (List.all_eq_true.mp h b hb)

theorem replies_decode_protocolId :
    RepliesDecode protocolId 0x90 0x92 (reports (reply protocolId 0x90 0x92)) := by
  have hPrintable : Printable protocolId := printable_of_all (by decide)
  refine (replies_decode_iff hPrintable (by decide) (answers_reports _ _ _)).mpr ?_
  exact spared_of_plain (by decide) (by decide) (by decide)

/-- The zero of the checksum is taken for padding, and "227." is in front of what is left,
33 EA, which is its checksum: the reply is accepted without its last digit. -/
theorem zero_checksum_not_decoded :
    ¬ ∀ (payload : Bytes) (hi lo : UInt8) (reads : List Bytes), Printable payload →
      (reply payload hi lo).length ≤ maxResponse → Answers reads payload hi lo →
        RepliesDecode payload hi lo reads := by
  intro h
  have hPrintable : Printable gridVoltage := printable_of_all (by decide)
  have hAnswers := answers_reports gridVoltage 0xea 0
  have hDecoded := (h gridVoltage 0xea 0 _ hPrintable (by decide) hAnswers).accepts
    (by decide +kernel)
  have hShortened :
      queryLocked (reports (reply gridVoltage 0xea 0)) = .ok gridVoltage.dropLast := by
    rw [queryLocked_eq (by decide) hAnswers]
    decide +kernel
  rw [hShortened] at hDecoded
  exact absurd (Except.ok.inj hDecoded) (by decide)

end WattPost.UsbHidVoltronic
