import Mathlib.Algebra.BigOperators.Group.List.Basic
import Mathlib.Data.List.Forall2
import WattPost.Lib.FrameStream
import WattPost.Lib.StampedCache
import WattPost.Vendors.Base

/-! The JBD stream. A frame is cut at the first end byte after a start byte, and a
notification cuts at most eight times. So the frames of a stream are decoded exactly when
none has the end byte in it, and no notification is left with more than it can cut. -/
namespace WattPost.BleJbd

open FrameStream StampedCache
open Vendors (Bytes)

def frameStart : UInt8 := 0xdd

def frameEnd : UInt8 := 0x77

def staleAfterSeconds : ℚ := 60

/-! ### Frames -/

/-- `_checksum`: the two's complement of the sum, big-endian. -/
def checksum (data : Bytes) : Bytes :=
  let s := (0x10000 - (data.map UInt8.toNat).sum % 0x10000) % 0x10000
  [UInt8.ofNat (s / 256), UInt8.ofNat (s % 256)]

/-- `parse_frame`: the command and the payload. -/
def parseFrame (buf : Bytes) : Option (UInt8 × Bytes) :=
  if buf.length < 7 then none
  else if buf.head? ≠ some frameStart ∨ buf.getLast? ≠ some frameEnd then none
  else
    let cmd := buf.getD 1 0
    let status := buf.getD 2 0
    let dlen := buf.getD 3 0
    if buf.length ≠ 4 + dlen.toNat + 2 + 1 then none
    else
      let payload := (buf.drop 4).take dlen.toNat
      let expected := checksum ([cmd, status] ++ [dlen] ++ payload)
      if (buf.drop (4 + dlen.toNat)).take 2 ≠ expected then none else some (cmd, payload)

/-- A response with status 0. -/
structure Response where
  command : UInt8
  payload : Bytes
  fits : payload.length ≤ 255

namespace Response

/-- What the checksum is about. -/
def body (r : Response) : Bytes :=
  [r.command, 0] ++ [UInt8.ofNat r.payload.length] ++ r.payload

/-- The frame of a response. -/
def frame (r : Response) : Bytes := frameStart :: (r.body ++ checksum r.body) ++ [frameEnd]

/-- What the transport is to store of it. -/
def entry (r : Response) : UInt8 × Bytes := (r.command, r.payload)

theorem length_frame (r : Response) : r.frame.length = r.payload.length + 7 := by
  simp [frame, body, checksum]

theorem toNat_length (r : Response) : (UInt8.ofNat r.payload.length).toNat = r.payload.length :=
  UInt8.toNat_ofNat_of_lt' (Nat.lt_succ_of_le r.fits)

/-- The frame of a response is valid. -/
theorem parse_frame (r : Response) : parseFrame r.frame = some r.entry := by
  have hLength := r.length_frame
  have hFrame : r.frame = frameStart :: r.command :: 0 :: UInt8.ofNat r.payload.length ::
      (r.payload ++ (checksum r.body ++ [frameEnd])) := by
    simp [frame, body]
  have hLast : r.frame.getLast? = some frameEnd := by rw [frame, List.getLast?_concat]
  have hEnds : ¬(r.frame.head? ≠ some frameStart ∨ r.frame.getLast? ≠ some frameEnd) := by
    rw [hLast, hFrame]
    simp
  have hPayload : (r.frame.drop 4).take r.payload.length = r.payload := by
    rw [hFrame]
    exact List.take_left' rfl
  have hChecksum : (r.frame.drop (4 + r.payload.length)).take 2 = checksum r.body := by
    rw [← List.drop_drop, hFrame]
    show ((r.payload ++ (checksum r.body ++ [frameEnd])).drop r.payload.length).take 2 = _
    rw [List.drop_left' rfl]
    exact List.take_left' rfl
  have hCommand : r.frame.getD 1 0 = r.command := by rw [hFrame]; rfl
  have hStatus : r.frame.getD 2 0 = 0 := by rw [hFrame]; rfl
  have hDlen : r.frame.getD 3 0 = UInt8.ofNat r.payload.length := by rw [hFrame]; rfl
  unfold parseFrame
  rw [if_neg (by omega), if_neg hEnds, hCommand, hStatus, hDlen]
  dsimp only
  rw [toNat_length, if_neg (by omega), hPayload, hChecksum, if_neg (by simp [body])]
  rfl

end Response

/-- A valid frame is as long as its payload says. -/
theorem parseFrame_length {buf : Bytes} {entry : UInt8 × Bytes} (h : parseFrame buf = some entry) :
    buf.length = entry.2.length + 7 := by
  unfold parseFrame at h
  split_ifs at h with hShort hEnds
  dsimp only at h
  split_ifs at h with hLength hSum
  obtain rfl := Option.some.inj h
  rw [ne_eq, not_not] at hLength
  dsimp only
  rw [List.length_take, List.length_drop]
  omega

/-! ### The transport -/

/-- The rounds of `_on_notify`: the stored frames, and what is left in the buffer. -/
def rounds : Nat → Bytes → List (UInt8 × Bytes) × Bytes
  | 0, buf => ([], buf)
  | n + 1, buf =>
      match find [frameStart] buf with
      | none => ([], [])
      | some start =>
          match find [frameEnd] (buf.drop start) with
          | none => ([], buf.drop start)
          | some last =>
              match parseFrame ((buf.drop start).take (last + 1)) with
              | none => rounds n ((buf.drop start).drop 1)
              | some entry =>
                  let rest := rounds n ((buf.drop start).drop (last + 1))
                  (entry :: rest.1, rest.2)

/-- `_on_notify` on the buffer. -/
def scan (buf data : Bytes) : List (UInt8 × Bytes) × Bytes := rounds 8 (buf ++ data)

/-- The transport: its buffer, the latest frames by command, and their one time. -/
abbrev BleJbdTransport := Link UInt8 UInt8 Bytes

/-- `_on_notify`. -/
def onNotify (s : BleJbdTransport) (notification : ℚ × Bytes) : BleJbdTransport :=
  s.notify scan notification

/-- `get_latest_frame`. -/
def getLatestFrame (now : ℚ) (s : BleJbdTransport) (command : UInt8) : Option Bytes :=
  s.cache.get staleAfterSeconds now command

/-- The transport after some notifications. -/
def received (notifications : List (ℚ × Bytes)) : BleJbdTransport :=
  Link.after scan notifications

/-- What was stored, in order. -/
def stored (notifications : List (ℚ × Bytes)) : List (UInt8 × Bytes) :=
  (log scan notifications).map Prod.snd

/-- The bytes that the notifications carry. -/
def bytesOf (notifications : List (ℚ × Bytes)) : Bytes := (notifications.map Prod.snd).flatten

/-- The stream of some responses. -/
def stream (responses : List Response) : Bytes := (responses.map Response.frame).flatten

/-! ### Cutting -/

/-- The end byte stands only at the end of the frame. -/
def EndsOnce (frame : Bytes) : Prop := frameEnd ∉ frame.dropLast

instance (frame : Bytes) : Decidable (EndsOnce frame) := by
  unfold EndsOnce
  infer_instance

/-- The bytes that some entries came in. -/
def weight (entries : List (UInt8 × Bytes)) : Nat := (entries.map fun e => e.2.length + 7).sum

/-- The entries are those of valid frames, one after the other, from the start of the
bytes on. -/
def Tiles (entries : List (UInt8 × Bytes)) (buf rest : Bytes) : Prop :=
  ∃ frames : List Bytes, List.Forall₂ (fun f e => parseFrame f = some e) frames entries ∧
    (∀ f ∈ frames, EndsOnce f) ∧ buf = frames.flatten ++ rest

theorem Tiles.nil (rest : Bytes) : Tiles [] rest rest := ⟨[], .nil, by simp, rfl⟩

theorem Tiles.cons {entry : UInt8 × Bytes} {entries : List (UInt8 × Bytes)}
    {frame buf rest : Bytes} (hParse : parseFrame frame = some entry) (hOnce : EndsOnce frame)
    (h : Tiles entries buf rest) : Tiles (entry :: entries) (frame ++ buf) rest := by
  obtain ⟨frames, hFrames, hAll, rfl⟩ := h
  refine ⟨frame :: frames, .cons hParse hFrames, ?_, ?_⟩
  · exact List.forall_mem_cons.mpr ⟨hOnce, hAll⟩
  · rw [List.flatten_cons, List.append_assoc]

theorem Tiles.append {first second : List (UInt8 × Bytes)} {buf mid rest more : Bytes}
    (hFirst : Tiles first buf mid) (hSecond : Tiles second (mid ++ more) rest) :
    Tiles (first ++ second) (buf ++ more) rest := by
  obtain ⟨frames, hFrames, hAll, rfl⟩ := hFirst
  obtain ⟨frames', hFrames', hAll', hBytes⟩ := hSecond
  refine ⟨frames ++ frames', List.rel_append hFrames hFrames', ?_, ?_⟩
  · exact List.forall_mem_append.mpr ⟨hAll, hAll'⟩
  · rw [List.append_assoc, hBytes, List.flatten_append, List.append_assoc]

/-- The rounds take no more than there is, and take it frame by frame unless a byte is
dropped. -/
theorem rounds_spec (n : Nat) (buf : Bytes) :
    weight (rounds n buf).1 + (rounds n buf).2.length ≤ buf.length ∧
      (weight (rounds n buf).1 + (rounds n buf).2.length = buf.length →
        Tiles (rounds n buf).1 buf (rounds n buf).2) := by
  fun_induction rounds n buf with
  | case1 buf => exact ⟨by simp [weight], fun _ => Tiles.nil buf⟩
  | case2 n buf hNone =>
      refine ⟨Nat.zero_le _, fun hAll => ?_⟩
      obtain rfl := List.eq_nil_of_length_eq_zero hAll.symm
      exact Tiles.nil []
  | case3 n buf start hStart hNone =>
      simp only [weight, List.map_nil, List.sum_nil, List.length_drop]
      refine ⟨by omega, fun hAll => ?_⟩
      obtain rfl : start = 0 := by
        have hLength := find_item_lt hStart
        omega
      exact Tiles.nil buf
  | case4 n buf start hStart last hLast hBad ih =>
      have hLength := find_item_lt hStart
      have hRest := ih.1
      rw [List.length_drop, List.length_drop] at hRest
      exact ⟨by omega, fun hAll => by omega⟩
  | case5 n buf start hStart last hLast entry hParse rest ih =>
      have hStartLength := find_item_lt hStart
      have hLastLength := find_item_lt hLast
      have hFrame := parseFrame_length hParse
      rw [List.length_take, min_eq_left hLastLength] at hFrame
      have hWeight : weight (entry :: rest.1) = entry.2.length + 7 + weight rest.1 := by
        rw [weight, List.map_cons, List.sum_cons]
        rfl
      have hRest : weight rest.1 + rest.2.length ≤ ((buf.drop start).drop (last + 1)).length :=
        ih.1
      have hTiles : weight rest.1 + rest.2.length = ((buf.drop start).drop (last + 1)).length →
          Tiles rest.1 ((buf.drop start).drop (last + 1)) rest.2 := ih.2
      simp only [List.length_drop] at hLastLength hRest hTiles
      dsimp only
      refine ⟨by omega, fun hAll => ?_⟩
      obtain rfl : start = 0 := by omega
      have hOnce : EndsOnce ((buf.drop 0).take (last + 1)) := by
        have hInside : last + 1 ≤ (buf.drop 0).length := find_item_lt hLast
        rw [EndsOnce, List.dropLast_eq_take, List.take_take, List.length_take,
          min_eq_left hInside, Nat.add_sub_cancel, min_eq_left (Nat.le_succ last)]
        exact notMem_of_find_item hLast
      have hCut := Tiles.cons hParse hOnce (hTiles (by omega))
      rwa [List.take_append_drop] at hCut

theorem weight_append (first second : List (UInt8 × Bytes)) :
    weight (first ++ second) = weight first + weight second := by
  rw [weight, List.map_append, List.sum_append]
  rfl

theorem bytesOf_cons (notification : ℚ × Bytes) (rest : List (ℚ × Bytes)) :
    bytesOf (notification :: rest) = notification.2 ++ bytesOf rest := by
  rw [bytesOf, List.map_cons, List.flatten_cons]
  rfl

theorem bytesOf_append (first second : List (ℚ × Bytes)) :
    bytesOf (first ++ second) = bytesOf first ++ bytesOf second := by
  rw [bytesOf, List.map_append, List.flatten_append]
  rfl

/-- So do the notifications. -/
theorem run_spec (buf : Bytes) (notifications : List (ℚ × Bytes)) :
    weight ((logFrom scan buf notifications).map Prod.snd) +
        (bufFrom scan buf notifications).length ≤ buf.length + (bytesOf notifications).length ∧
      (weight ((logFrom scan buf notifications).map Prod.snd) +
          (bufFrom scan buf notifications).length = buf.length + (bytesOf notifications).length →
        Tiles ((logFrom scan buf notifications).map Prod.snd) (buf ++ bytesOf notifications)
          (bufFrom scan buf notifications)) := by
  induction notifications generalizing buf with
  | nil =>
      refine ⟨by simp [logFrom, bufFrom, weight, bytesOf], fun _ => ?_⟩
      rw [bytesOf, List.map_nil, List.flatten_nil, List.append_nil]
      exact Tiles.nil buf
  | cons notification rest ih =>
      obtain ⟨hFirst, hFirstTiles⟩ := rounds_spec 8 (buf ++ notification.2)
      obtain ⟨hRest, hRestTiles⟩ := ih (scan buf notification.2).2
      have hEntries : (logFrom scan buf (notification :: rest)).map Prod.snd =
          (scan buf notification.2).1 ++
            (logFrom scan (scan buf notification.2).2 rest).map Prod.snd := by
        simp [logFrom, Function.comp_def]
      rw [hEntries, weight_append, bufFrom, bytesOf_cons, List.length_append]
      rw [List.length_append] at hFirst hFirstTiles
      simp only [scan] at hRest hRestTiles ⊢
      refine ⟨by omega, fun hAll => ?_⟩
      rw [← List.append_assoc]
      exact Tiles.append (hFirstTiles (by omega)) (hRestTiles (by omega))

/-- Frames of known lengths can be read off their stream. -/
theorem frames_eq_of_flatten {frames : List Bytes} {responses : List Response}
    (hFrames : List.Forall₂ (fun f e => parseFrame f = some e) frames
      (responses.map Response.entry)) (h : frames.flatten = stream responses) :
    frames = responses.map Response.frame := by
  induction responses generalizing frames with
  | nil =>
      cases hFrames
      rfl
  | cons r rest ih =>
      obtain ⟨f, more, hParse, hMore, rfl⟩ := List.forall₂_cons_right_iff.mp hFrames
      have hLength : f.length = r.frame.length := by
        rw [parseFrame_length hParse, r.length_frame]
        rfl
      rw [stream, List.flatten_cons, List.map_cons, List.flatten_cons] at h
      obtain ⟨rfl, hTail⟩ := List.append_inj h hLength
      rw [List.map_cons, ih hMore hTail]

/-! ### Whole frames -/

/-- The number of frames that are whole in the first bytes of the stream. -/
def wholeFrames : List Response → Nat → Nat
  | [], _ => 0
  | r :: rest, n => if r.frame.length ≤ n then wholeFrames rest (n - r.frame.length) + 1 else 0

theorem wholeFrames_le (responses : List Response) (n : Nat) :
    wholeFrames responses n ≤ responses.length := by
  induction responses generalizing n with
  | nil => exact le_rfl
  | cons r rest ih =>
      rw [wholeFrames]
      split_ifs
      · exact Nat.succ_le_succ (ih _)
      · exact Nat.zero_le _

theorem wholeFrames_zero (responses : List Response) : wholeFrames responses 0 = 0 := by
  cases responses with
  | nil => rfl
  | cons r rest =>
      rw [wholeFrames, if_neg]
      rw [r.length_frame]
      omega

/-- Without its last byte the stream has one whole frame less. -/
theorem wholeFrames_lt {responses : List Response} {n : Nat} (h : n < (stream responses).length) :
    wholeFrames responses n < responses.length := by
  induction responses generalizing n with
  | nil => exact absurd h (Nat.not_lt_zero n)
  | cons r rest ih =>
      rw [stream, List.map_cons, List.flatten_cons, List.length_append] at h
      rw [wholeFrames]
      split_ifs with hWhole
      · refine Nat.succ_lt_succ (ih ?_)
        rw [stream]
        omega
      · exact Nat.succ_pos _

/-- The whole frames beyond the first ones. -/
theorem wholeFrames_add {responses : List Response} {c : Nat} (hc : c ≤ responses.length)
    (n : Nat) :
    wholeFrames responses ((stream (responses.take c)).length + n) =
      c + wholeFrames (responses.drop c) n := by
  induction responses generalizing c with
  | nil =>
      obtain rfl := Nat.le_zero.mp hc
      rfl
  | cons r rest ih =>
      cases c with
      | zero => simp [stream]
      | succ c =>
          have hTake : (stream ((r :: rest).take (c + 1))).length =
              r.frame.length + (stream (rest.take c)).length := by
            rw [List.take_succ_cons, stream, List.map_cons, List.flatten_cons, List.length_append]
            rfl
          rw [hTake, wholeFrames, if_pos (by omega), List.drop_succ_cons, Nat.add_assoc,
            Nat.add_sub_cancel_left, ih (Nat.le_of_succ_le_succ hc)]
          omega

/-! ### Streams of responses -/

/-- Every frame begins with the start byte and ends with the end byte. -/
theorem frame_eq (r : Response) :
    ∃ middle, r.frame = frameStart :: middle ++ [frameEnd] ∧
      r.frame.dropLast = frameStart :: middle :=
  ⟨r.body ++ checksum r.body, rfl, List.dropLast_concat⟩

/-- A frame at the start of the buffer is cut off whole. -/
theorem rounds_frame (n : Nat) (r : Response) (hOnce : EndsOnce r.frame) (more : Bytes) :
    rounds (n + 1) (r.frame ++ more) = (r.entry :: (rounds n more).1, (rounds n more).2) := by
  obtain ⟨middle, hFrame, hLast⟩ := frame_eq r
  rw [EndsOnce, hLast] at hOnce
  have hStart : find [frameStart] (r.frame ++ more) = some 0 :=
    find_at_start ⟨middle ++ frameEnd :: more, by rw [hFrame]; simp⟩
  have hEnd : find [frameEnd] (r.frame ++ more) = some (frameStart :: middle).length := by
    rw [hFrame, List.append_assoc]
    exact find_item hOnce more
  have hLength : (frameStart :: middle).length + 1 = r.frame.length := by
    rw [hFrame, List.length_append]
    rfl
  rw [rounds, hStart]
  simp only [List.drop_zero, hEnd, hLength, List.take_left' rfl, List.drop_left' rfl,
    r.parse_frame]

/-- A part of a frame is left in the buffer. -/
theorem rounds_part (n : Nat) {r : Response} (hOnce : EndsOnce r.frame) {buf : Bytes}
    (hPrefix : buf <+: r.frame) (hPart : buf.length < r.frame.length) :
    rounds n buf = ([], buf) := by
  obtain ⟨middle, hFrame, hLast⟩ := frame_eq r
  have hBuf : buf <+: frameStart :: middle := by
    rw [← hLast]
    refine List.prefix_of_prefix_length_le hPrefix (List.dropLast_prefix r.frame) ?_
    rw [List.length_dropLast]
    exact Nat.le_sub_one_of_lt hPart
  have hNoEnd : find [frameEnd] buf = none := by
    refine find_item_of_notMem fun hMem => hOnce ?_
    rw [hLast]
    exact hBuf.subset hMem
  cases n with
  | zero => rfl
  | succ n =>
      cases buf with
      | nil => rfl
      | cons b rest =>
          obtain rfl := (List.cons_prefix_cons.mp hBuf).1
          have hStart : find [frameStart] (frameStart :: rest) = some 0 :=
            find_at_start ⟨rest, rfl⟩
          rw [rounds, hStart]
          simp only [List.drop_zero, hNoEnd]

/-- On the start of a stream the rounds cut off the whole frames, as many as they may. -/
theorem rounds_stream (n : Nat) {responses : List Response}
    (hOnce : ∀ r ∈ responses, EndsOnce r.frame) {buf future : Bytes}
    (h : buf ++ future = stream responses) :
    (rounds n buf).1 =
        (responses.take (min n (wholeFrames responses buf.length))).map Response.entry ∧
      (rounds n buf).2 ++ future =
        stream (responses.drop (min n (wholeFrames responses buf.length))) := by
  induction responses generalizing buf n with
  | nil =>
      obtain ⟨rfl, rfl⟩ := List.append_eq_nil_iff.mp h
      cases n with
      | zero => exact ⟨rfl, rfl⟩
      | succ n => exact ⟨rfl, rfl⟩
  | cons r rest ih =>
      have hFirst := hOnce r List.mem_cons_self
      have hStream : stream (r :: rest) = r.frame ++ stream rest := by
        rw [stream, List.map_cons, List.flatten_cons]
        rfl
      by_cases hWhole : r.frame.length ≤ buf.length
      · obtain ⟨more, rfl⟩ := prefix_of_append_eq (h.trans hStream).symm hWhole
        rw [hStream, List.append_assoc, List.append_cancel_left_eq] at h
        rw [wholeFrames, if_pos hWhole, List.length_append, Nat.add_sub_cancel_left]
        cases n with
        | zero => simp [rounds, hStream, h]
        | succ n =>
            obtain ⟨hTaken, hLeft⟩ :=
              ih n (fun other hOther => hOnce other (List.mem_cons_of_mem r hOther)) h
            rw [rounds_frame n r hFirst, Nat.succ_min_succ]
            exact ⟨by rw [hTaken]; rfl, hLeft⟩
      · have hPrefix := prefix_of_append_eq (h.trans hStream) (Nat.le_of_not_le hWhole)
        rw [rounds_part n hFirst hPrefix (Nat.lt_of_not_le hWhole), wholeFrames, if_neg hWhole,
          Nat.min_zero]
        exact ⟨rfl, h⟩

/-! ### Runs -/

/-- The condition on the notifications: after every point, at most eight of the frames
that were not whole there come for each further notification. -/
def NoBacklog (responses : List Response) (notifications : List (ℚ × Bytes)) : Prop :=
  ∀ earlier later, notifications = earlier ++ later →
    responses.length ≤ wholeFrames responses (bytesOf earlier).length + 8 * later.length

/-- How far the notifications have come: the first `count` responses are stored, no more
than are whole and than the rounds allow, and the rest is still to be cut. -/
structure Progress (responses : List Response) (notifications : List (ℚ × Bytes))
    (future : Bytes) (count : Nat) : Prop where
  count_le : count ≤ responses.length
  taken : stored notifications = (responses.take count).map Response.entry
  left : bufFrom scan [] notifications ++ future = stream (responses.drop count)
  most : ∀ earlier later, notifications = earlier ++ later →
    count ≤ wholeFrames responses (bytesOf earlier).length + 8 * later.length
  least : ∃ earlier later, notifications = earlier ++ later ∧
    wholeFrames responses (bytesOf earlier).length + 8 * later.length ≤ count

theorem stored_concat (notifications : List (ℚ × Bytes)) (last : ℚ × Bytes) :
    stored (notifications ++ [last]) =
      stored notifications ++ (scan (bufFrom scan [] notifications) last.2).1 := by
  simp [stored, log, logFrom_append, logFrom, Function.comp_def]

theorem stream_append (first second : List Response) :
    stream (first ++ second) = stream first ++ stream second := by
  rw [stream, List.map_append, List.flatten_append]
  rfl

/-- One notification more stores what is whole, eight frames at most. -/
theorem Progress.step {responses : List Response} (hOnce : ∀ r ∈ responses, EndsOnce r.frame)
    {notifications : List (ℚ × Bytes)} {last : ℚ × Bytes} {future : Bytes} {count : Nat}
    (h : Progress responses notifications (last.2 ++ future) count)
    (hStream : bytesOf (notifications ++ [last]) ++ future = stream responses) :
    Progress responses (notifications ++ [last]) future
      (min (count + 8) (wholeFrames responses (bytesOf (notifications ++ [last])).length)) := by
  have hLeft := h.left
  rw [← List.append_assoc] at hLeft
  have hRest : ∀ r ∈ responses.drop count, EndsOnce r.frame := fun r hr =>
    hOnce r (List.mem_of_mem_drop hr)
  obtain ⟨hTaken, hBuf⟩ := rounds_stream 8 hRest hLeft
  have hBytes : (bytesOf (notifications ++ [last])).length =
      (stream (responses.take count)).length +
        (bufFrom scan [] notifications ++ last.2).length := by
    have hSplit := stream_append (responses.take count) (responses.drop count)
    rw [List.take_append_drop, ← hStream, ← hLeft, ← List.append_assoc,
      List.append_cancel_right_eq] at hSplit
    rw [hSplit, List.length_append]
  have hCount : min (count + 8) (wholeFrames responses (bytesOf (notifications ++ [last])).length) =
      count + min 8 (wholeFrames (responses.drop count)
        (bufFrom scan [] notifications ++ last.2).length) := by
    rw [hBytes, wholeFrames_add h.count_le, Nat.add_min_add_left]
  refine ⟨?_, ?_, ?_, ?_, ?_⟩
  · exact (min_le_right _ _).trans (wholeFrames_le _ _)
  · rw [hCount, stored_concat, h.taken, scan, hTaken, ← List.map_append, ← List.take_add]
  · rw [hCount, bufFrom_append, ← List.drop_drop, ← hBuf]
    rfl
  · intro earlier later hSplit
    rcases List.eq_nil_or_concat later with rfl | ⟨init, x, rfl⟩
    · rw [List.append_nil] at hSplit
      rw [← hSplit]
      exact Nat.le_add_right_of_le (min_le_right _ _)
    · rw [List.concat_eq_append, ← List.append_assoc] at hSplit
      obtain ⟨hInit, -⟩ := List.append_inj' hSplit rfl
      have hMost := h.most earlier init hInit
      rw [List.concat_eq_append, List.length_append, List.length_singleton]
      omega
  · obtain ⟨earlier, later, hSplit, hLeast⟩ := h.least
    rcases min_choice (count + 8)
        (wholeFrames responses (bytesOf (notifications ++ [last])).length) with hMin | hMin
    · refine ⟨earlier, later ++ [last], by rw [hSplit, List.append_assoc], ?_⟩
      rw [hMin, List.length_append, List.length_singleton]
      omega
    · refine ⟨notifications ++ [last], [], (List.append_nil _).symm, ?_⟩
      rw [hMin, List.length_nil]
      omega

/-- Every run over the start of a stream makes its progress. -/
theorem exists_progress {responses : List Response} (hOnce : ∀ r ∈ responses, EndsOnce r.frame)
    {notifications : List (ℚ × Bytes)} {future : Bytes}
    (h : bytesOf notifications ++ future = stream responses) :
    ∃ count, Progress responses notifications future count := by
  induction notifications using List.reverseRecOn generalizing future with
  | nil =>
      refine ⟨0, Nat.zero_le _, rfl, h, fun _ _ _ => Nat.zero_le _, [], [], rfl, ?_⟩
      exact (wholeFrames_zero responses).le
  | append_singleton notifications last ih =>
      have hStream := h
      rw [bytesOf_append, List.append_assoc] at h
      obtain ⟨count, hProgress⟩ := ih h
      have hLast : bytesOf [last] = last.2 := List.append_nil last.2
      rw [hLast] at hProgress
      exact ⟨_, hProgress.step hOnce hStream⟩

/-- When all that was sent is stored, no frame has the end byte in it. -/
theorem endsOnce_of_stored {responses : List Response} {notifications : List (ℚ × Bytes)}
    (hStream : bytesOf notifications = stream responses)
    (h : stored notifications = responses.map Response.entry) :
    ∀ r ∈ responses, EndsOnce r.frame := by
  have hWeight : weight (responses.map Response.entry) = (stream responses).length := by
    rw [weight, stream, List.length_flatten, List.map_map, List.map_map]
    congr 1
    exact List.map_congr_left fun r _ => r.length_frame.symm
  obtain ⟨hAtMost, hTiles⟩ := run_spec [] notifications
  have hStored : (logFrom scan [] notifications).map Prod.snd = responses.map Response.entry := h
  rw [hStored, hWeight, hStream, List.length_nil, Nat.zero_add] at hAtMost hTiles
  have hEmpty : bufFrom scan [] notifications = [] := by
    refine List.eq_nil_of_length_eq_zero ?_
    omega
  rw [hEmpty] at hTiles
  obtain ⟨frames, hFrames, hAll, hBytes⟩ := hTiles rfl
  rw [List.nil_append, List.append_nil] at hBytes
  intro r hr
  refine hAll _ ?_
  rw [frames_eq_of_flatten hFrames hBytes.symm]
  exact List.mem_map_of_mem hr

/-- When everything is stored, the last frame has come with the last notification. -/
theorem latestAt_of_stored {responses : List Response}
    {earlier : List (ℚ × Bytes)} {now : ℚ} {piece : Bytes} (hPiece : piece ≠ [])
    (hStream : bytesOf (earlier ++ [(now, piece)]) = stream responses)
    (hOnce : ∀ r ∈ responses, EndsOnce r.frame)
    (h : stored (earlier ++ [(now, piece)]) = responses.map Response.entry) :
    (received (earlier ++ [(now, piece)])).cache.latestAt = now := by
  have hBefore : bytesOf earlier ++ piece = stream responses := by
    rw [← hStream, bytesOf_append]
    exact congrArg _ (List.append_nil piece).symm
  obtain ⟨count, hProgress⟩ := exists_progress hOnce hBefore
  have hFewer : count < responses.length := by
    have hMost := hProgress.most earlier [] (List.append_nil _).symm
    have hShort : (bytesOf earlier).length < (stream responses).length := by
      rw [← hBefore, List.length_append]
      exact Nat.lt_add_of_pos_right (List.length_pos_iff.mpr hPiece)
    have hWhole := wholeFrames_lt hShort
    rw [List.length_nil] at hMost
    omega
  have hNew : (scan (bufFrom scan [] earlier) piece).1 ≠ [] := by
    intro hNone
    rw [stored_concat, hNone, List.append_nil, hProgress.taken] at h
    have hLength := congrArg List.length h
    rw [List.length_map, List.length_map, List.length_take] at hLength
    omega
  obtain ⟨init, entry, hScan⟩ := (List.eq_nil_or_concat _).resolve_left hNew
  rw [received, cache_after, latestAt_putAll, log, logFrom_append, logFrom, logFrom,
    List.append_nil, hScan, List.concat_eq_append, List.map_append, ← List.append_assoc,
    List.map_singleton, List.getLast?_concat]
  rfl

/-- All frames of a stream are stored, and the latest of each command can be read, exactly
when no frame has the end byte in it and no backlog is left. -/
theorem jbd_decodes_iff (responses : List Response) (earlier : List (ℚ × Bytes)) (now : ℚ)
    (piece : Bytes) (hPiece : piece ≠ [])
    (hStream : bytesOf (earlier ++ [(now, piece)]) = stream responses) :
    (stored (earlier ++ [(now, piece)]) = responses.map Response.entry ∧
        ∀ command, getLatestFrame now (received (earlier ++ [(now, piece)])) command =
          lastOf (responses.map Response.entry) command) ↔
      (∀ r ∈ responses, EndsOnce r.frame) ∧ NoBacklog responses (earlier ++ [(now, piece)]) := by
  constructor
  · rintro ⟨hStored, -⟩
    have hOnce := endsOnce_of_stored hStream hStored
    refine ⟨hOnce, fun first later hSplit => ?_⟩
    obtain ⟨count, hProgress⟩ := exists_progress hOnce
      (show bytesOf (earlier ++ [(now, piece)]) ++ [] = stream responses by
        rw [List.append_nil, hStream])
    have hCount := congrArg List.length (hProgress.taken.symm.trans hStored)
    rw [List.length_map, List.length_map, List.length_take] at hCount
    have hMost := hProgress.most first later hSplit
    omega
  · rintro ⟨hOnce, hBacklog⟩
    obtain ⟨count, hProgress⟩ := exists_progress hOnce
      (show bytesOf (earlier ++ [(now, piece)]) ++ [] = stream responses by
        rw [List.append_nil, hStream])
    obtain ⟨first, later, hSplit, hLeast⟩ := hProgress.least
    have hAll : responses.length ≤ count := (hBacklog first later hSplit).trans hLeast
    have hStored : stored (earlier ++ [(now, piece)]) = responses.map Response.entry := by
      rw [hProgress.taken, List.take_of_length_le hAll]
    refine ⟨hStored, fun command => ?_⟩
    have hFresh := latestAt_of_stored hPiece hStream hOnce hStored
    have hLatest : (received (earlier ++ [(now, piece)])).cache.latest command =
        lastOf (responses.map Response.entry) command := by
      rw [received, cache_after, latest_putAll]
      exact congrArg (lastOf · command) hStored
    rw [getLatestFrame, Cache.get, hFresh, hLatest, sub_self, if_neg (by decide)]

/-- Eight frames are never too many. -/
theorem noBacklog_of_few {responses : List Response} {notifications : List (ℚ × Bytes)}
    (hFew : responses.length ≤ 8) (hStream : bytesOf notifications = stream responses) :
    NoBacklog responses notifications := by
  intro earlier later hSplit
  cases later with
  | nil =>
      have hWhole := wholeFrames_add (Nat.le_refl responses.length) 0
      rw [List.append_nil] at hSplit
      rw [List.take_length, List.drop_length, Nat.add_zero, wholeFrames_zero] at hWhole
      rw [← hSplit, hStream, hWhole]
      exact Nat.le_add_right _ _
  | cons last more =>
      rw [List.length_cons]
      omega

def basicInfo : Response := ⟨0x03, [0x0c, 0xdd], by decide⟩

def cellInfo : Response := ⟨0x04, [0x0d, 0x05], by decide⟩

/-- Two responses, the first with a start byte in its payload, and a cut inside it. -/
def twoPieces : List (ℚ × Bytes) :=
  [(0, (stream [basicInfo, cellInfo]).take 5), (1, (stream [basicInfo, cellInfo]).drop 5)]

theorem jbd_decodes_two :
    stored twoPieces = [basicInfo.entry, cellInfo.entry] ∧
      ∀ command, getLatestFrame 1 (received twoPieces) command =
        lastOf [basicInfo.entry, cellInfo.entry] command := by
  have hStream : bytesOf twoPieces = stream [basicInfo, cellInfo] := by decide
  exact (jbd_decodes_iff [basicInfo, cellInfo] [(0, (stream [basicInfo, cellInfo]).take 5)] 1
    ((stream [basicInfo, cellInfo]).drop 5) (by decide) hStream).mpr
    ⟨by decide, noBacklog_of_few (by decide) hStream⟩

/-- A pack with the end byte in its voltage. -/
def busyInfo : Response := ⟨0x03, [0x05, 0x77], by decide⟩

/-- Its frame is taken for two pieces, and neither is valid. -/
theorem busyInfo_lost :
    bytesOf [(0, busyInfo.frame)] = stream [busyInfo] ∧ stored [(0, busyInfo.frame)] = [] ∧
      getLatestFrame 0 (received [(0, busyInfo.frame)]) 0x03 = none ∧
      lastOf [busyInfo.entry] 0x03 = some busyInfo.payload := by
  decide +kernel

end WattPost.BleJbd
