import WattPost.Lib.FrameStream
import WattPost.Lib.Runs
import WattPost.Vendors.Shunts

/-! The AiLi stream: frames of 20 bytes are cut out of whatever the notifications bring.
Frames are found wherever the stream is cut, except that a buffer without a header is
thrown away whole, with the first half of a header at its end. -/
namespace WattPost.BleAili

open FrameStream
open Vendors (Bytes byte)
open Vendors.Aili (Frame verifyFrame parseFrame)

def frameLen : Nat := 20

def header : Bytes := [0xff, 0x55]

def staleAfterSeconds : ℚ := 60

/-! ### The scan -/

/-- How the scan of a buffer ends: it waits for more, or it has thrown the rest away. -/
inductive Ending where
  | waits (buf : Bytes)
  | clears (lost : Bytes)

/-- What is left in the buffer. -/
def Ending.kept : Ending → Bytes
  | .waits buf => buf
  | .clears _ => []

/-- The loop of `_on_notify`: the accepted frames, and how it ends. -/
def scan (buf : Bytes) : List Bytes × Ending :=
  if buf.length < frameLen then ([], .waits buf)
  else
    match find header buf with
    | none => ([], .clears buf)
    | some i =>
        if (buf.drop i).length < frameLen then ([], .waits (buf.drop i))
        else if !verifyFrame ((buf.drop i).take frameLen) then scan ((buf.drop i).drop 1)
        else
          let rest := scan ((buf.drop i).drop frameLen)
          ((buf.drop i).take frameLen :: rest.1, rest.2)
termination_by buf.length
decreasing_by
  · simp only [List.length_drop, frameLen] at *
    omega
  · simp only [List.length_drop, frameLen] at *
    omega

/-- The transport: its buffer, and the frames it has accepted with their times. The last
of them is `_latest`, at `_latest_at`. -/
structure State where
  buf : Bytes
  accepted : List (ℚ × Bytes)

/-- Before the first notification. -/
def State.empty : State := ⟨[], []⟩

/-- `_on_notify`. -/
def onNotify (s : State) (notification : ℚ × Bytes) : State :=
  let r := scan (s.buf ++ notification.2)
  { buf := r.2.kept
    accepted := s.accepted ++ r.1.map fun frame => (notification.1, frame) }

/-- `get_latest`. -/
def getLatest (now : ℚ) (s : State) : Option Frame :=
  match s.accepted.getLast? with
  | none => none
  | some (latestAt, frame) => if now - latestAt > staleAfterSeconds then none else parseFrame frame

/-- The bytes that the notifications carry. -/
def bytesOf (notifications : List (ℚ × Bytes)) : Bytes := (notifications.map Prod.snd).flatten

/-- The sequence of the accepted frames. -/
def acceptedFrames (notifications : List (ℚ × Bytes)) : List Bytes :=
  (Runs.run onNotify .empty notifications).accepted.map Prod.snd

/-! ### The frames of a stream -/

/-- The frames in a stream, however it arrives. -/
def framesOf (stream : Bytes) : List Bytes := decode verifyFrame 19 stream

theorem verifyFrame_length {frame : Bytes} (h : verifyFrame frame = true) :
    frame.length = 20 := by
  simp only [verifyFrame, Bool.and_eq_true, decide_eq_true_eq] at h
  exact h.1.1.1

theorem verifyFrame_header {frame : Bytes} (h : verifyFrame frame = true) :
    header <+: frame := by
  have hLength := verifyFrame_length h
  simp only [verifyFrame, Bool.and_eq_true, decide_eq_true_eq] at h
  match frame, hLength with
  | a :: b :: rest, _ =>
      have hFirst : a = 0xff := UInt8.toNat_inj.mp h.1.1.2
      have hSecond : b = 0x55 := UInt8.toNat_inj.mp h.1.2
      exact ⟨rest, by rw [hFirst, hSecond]; rfl⟩

/-- A frame begins with its header, so where there is none there is no frame. -/
theorem verifyFrame_take {buf : Bytes} (hLong : 2 ≤ buf.length) (h : ¬header <+: buf)
    (future : Bytes) : verifyFrame ((buf ++ future).take 20) = false := by
  rw [Bool.eq_false_iff]
  intro hValid
  have hPrefix := (verifyFrame_header hValid).trans (List.take_prefix 20 (buf ++ future))
  exact h (List.prefix_of_prefix_length_le hPrefix (List.prefix_append buf future) hLong)

/-- Bytes before the first header are in no frame. -/
theorem framesOf_drop {buf : Bytes} {i : Nat} (h : find header buf = some i) (future : Bytes) :
    framesOf (buf ++ future) = framesOf (buf.drop i ++ future) := by
  have hBefore := (find_some h).2
  have hRoom : i + 2 ≤ buf.length := find_length h
  have hSkip : ∀ j < i, verifyFrame (((buf ++ future).drop j).take 20) = false := by
    intro j hj
    rw [List.drop_append_of_le_length (by omega)]
    refine verifyFrame_take ?_ (hBefore j hj) future
    rw [List.length_drop]
    omega
  rw [framesOf, decode_drop hSkip, List.drop_append_of_le_length (by omega)]
  rfl

/-- A buffer without a header has a frame in it only where its last byte begins one. -/
theorem framesOf_headerless {buf : Bytes} (h : ∀ j, ¬header <+: buf.drop j) {future : Bytes}
    (hEnd : buf.getLast? = some 0xff → verifyFrame (0xff :: future.take 19) = false) :
    framesOf (buf ++ future) = framesOf future := by
  induction buf with
  | nil => rfl
  | cons b rest ih =>
      have hHere : verifyFrame ((b :: (rest ++ future)).take 20) = false := by
        cases rest with
        | cons c more => exact verifyFrame_take (by simp) (h 0) future
        | nil =>
            rw [Bool.eq_false_iff]
            intro hValid
            have hFirst : b = 0xff := by
              have hPrefix := verifyFrame_header hValid
              rw [List.take_succ_cons] at hPrefix
              exact (List.cons_prefix_cons.mp hPrefix).1.symm
            subst hFirst
            rw [List.nil_append, List.take_succ_cons, hEnd rfl] at hValid
            cases hValid
      rw [List.cons_append, framesOf, decode_cons_of_not hHere]
      refine ih (fun j => h (j + 1)) fun hLast => hEnd ?_
      cases rest with
      | nil => cases hLast
      | cons c more => rwa [List.getLast?_cons_cons]

/-- A candidate that is no frame costs one byte. -/
theorem framesOf_reject {buf : Bytes} (hRoom : ¬buf.length < frameLen)
    (hBad : (!verifyFrame (buf.take frameLen)) = true) (future : Bytes) :
    framesOf (buf ++ future) = framesOf (buf.drop 1 ++ future) := by
  rw [frameLen, Nat.not_lt] at hRoom
  rw [Bool.not_eq_true'] at hBad
  have hSkip : ∀ j < 1, verifyFrame (((buf ++ future).drop j).take 20) = false := by
    intro j hj
    obtain rfl : j = 0 := Nat.lt_one_iff.mp hj
    rw [List.drop_zero, List.take_append_of_le_length hRoom]
    exact hBad
  rw [framesOf, decode_drop hSkip, List.drop_append_of_le_length (by omega)]
  rfl

theorem framesOf_accept {buf : Bytes} (hGood : ¬(!verifyFrame (buf.take frameLen)) = true)
    (future : Bytes) :
    framesOf (buf ++ future) = buf.take frameLen :: framesOf (buf.drop frameLen ++ future) := by
  rw [Bool.not_eq_true', Bool.not_eq_false] at hGood
  have hSplit := decode_append (verifyFrame_length hGood) hGood (buf.drop frameLen ++ future)
  rwa [← List.append_assoc, List.take_append_drop] at hSplit

/-! ### What the scan keeps -/

/-- The scan throws away the first byte of a frame. -/
def LosesFrame (buf future : Bytes) : Prop :=
  ∃ lost, (scan buf).2 = .clears lost ∧ lost.getLast? = some 0xff ∧
    verifyFrame (0xff :: future.take 19) = true

/-- Unless it loses one, the scan takes the frames of the stream one after the other. -/
theorem framesOf_scan {buf future : Bytes} (h : ¬LosesFrame buf future) :
    framesOf (buf ++ future) = (scan buf).1 ++ framesOf ((scan buf).2.kept ++ future) := by
  unfold LosesFrame at h
  fun_induction scan buf with
  | case1 buf hShort => rfl
  | case2 buf hLong hNone =>
      refine framesOf_headerless (find_none hNone) fun hLast => ?_
      rw [Bool.eq_false_iff]
      intro hValid
      exact h ⟨buf, rfl, hLast, hValid⟩
  | case3 buf hLong i hFound hShort => exact framesOf_drop hFound future
  | case4 buf hLong i hFound hRoom hBad ih =>
      rw [framesOf_drop hFound, framesOf_reject hRoom hBad]
      exact ih h
  | case5 buf hLong i hFound hRoom hGood rest ih =>
      rw [framesOf_drop hFound, framesOf_accept hGood, List.cons_append]
      exact congrArg _ (ih h)

/-- What the scan waits with is shorter than a frame. -/
theorem scan_kept_length (buf : Bytes) : (scan buf).2.kept.length < 20 := by
  fun_induction scan buf with
  | case1 buf hShort => exact hShort
  | case2 buf hLong hNone => exact Nat.succ_pos 19
  | case3 buf hLong i hFound hShort => exact hShort
  | case4 buf hLong i hFound hRoom hBad ih => exact ih
  | case5 buf hLong i hFound hRoom hGood rest ih => exact ih

/-- A loss is real: the frame is in the stream, and its first byte is gone. -/
theorem framesOf_loss {buf future : Bytes} (h : LosesFrame buf future) :
    (scan buf).2.kept = [] ∧ framesOf (buf ++ future) =
      (scan buf).1 ++ (0xff :: future.take 19) :: framesOf (future.drop 19) := by
  obtain ⟨lost, hCleared, hLast, hValid⟩ := h
  fun_induction scan buf with
  | case1 buf hShort => cases hCleared
  | case2 buf hLong hNone =>
      obtain rfl := Ending.clears.inj hCleared
      obtain ⟨front, rfl⟩ := List.getLast?_eq_some_iff.mp hLast
      have hFront : ∀ j, ¬header <+: front.drop j := by
        intro j hPrefix
        exact find_none hNone j (hPrefix.trans ((List.prefix_append front [0xff]).drop j))
      have hTwice : front.getLast? = some 0xff →
          verifyFrame (0xff :: (0xff :: future).take 19) = false := by
        intro _
        rw [Bool.eq_false_iff]
        intro hFrame
        exact absurd (List.cons_prefix_cons.mp (verifyFrame_header hFrame)).2 (by simp)
      have hSplit := decode_append (verifyFrame_length hValid) hValid (future.drop 19)
      rw [List.cons_append, List.take_append_drop] at hSplit
      rw [List.append_assoc, List.singleton_append, framesOf_headerless hFront hTwice]
      exact ⟨rfl, hSplit⟩
  | case3 buf hLong i hFound hShort => cases hCleared
  | case4 buf hLong i hFound hRoom hBad ih =>
      rw [framesOf_drop hFound, framesOf_reject hRoom hBad]
      exact ih hCleared
  | case5 buf hLong i hFound hRoom hGood rest ih =>
      obtain ⟨hKept, hFrames⟩ := ih hCleared
      rw [framesOf_drop hFound, framesOf_accept hGood, hFrames]
      exact ⟨hKept, rfl⟩

/-! ### Runs -/

theorem bytesOf_cons (notification : ℚ × Bytes) (rest : List (ℚ × Bytes)) :
    bytesOf (notification :: rest) = notification.2 ++ bytesOf rest := by
  rw [bytesOf, List.map_cons, List.flatten_cons]
  rfl

/-- No notification of the run makes the scan lose a frame of the stream. -/
def Intact : Bytes → List (ℚ × Bytes) → Prop
  | _, [] => True
  | buf, notification :: rest =>
      ¬LosesFrame (buf ++ notification.2) (bytesOf rest) ∧
        Intact (scan (buf ++ notification.2)).2.kept rest

/-- A run without a loss accepts the frames of the stream. -/
theorem accepted_run {s : State} (hShort : s.buf.length < 20) {notifications : List (ℚ × Bytes)}
    (h : Intact s.buf notifications) :
    (Runs.run onNotify s notifications).accepted.map Prod.snd =
      s.accepted.map Prod.snd ++ framesOf (s.buf ++ bytesOf notifications) := by
  induction notifications generalizing s with
  | nil =>
      rw [bytesOf, List.map_nil, List.flatten_nil, List.append_nil, framesOf,
        decode_of_short (fun frame hFrame => verifyFrame_length hFrame) hShort, List.append_nil]
      rfl
  | cons notification rest ih =>
      obtain ⟨hKeeps, hRest⟩ := h
      have hNext := ih (s := onNotify s notification) (scan_kept_length _) hRest
      rw [bytesOf_cons, ← List.append_assoc, framesOf_scan hKeeps]
      show (Runs.run onNotify (onNotify s notification) rest).accepted.map Prod.snd = _
      rw [hNext]
      simp [onNotify, Function.comp_def]

/-- On the start of a stream of frames the scan takes the whole ones and waits. -/
theorem scan_frames {frames : List Bytes} (hFrames : ∀ frame ∈ frames, verifyFrame frame = true)
    {buf future : Bytes} (h : buf ++ future = frames.flatten) :
    ∃ (kept : Bytes) (todo : List Bytes), (scan buf).2 = .waits kept ∧
      (∀ frame ∈ todo, frame ∈ frames) ∧ kept ++ future = todo.flatten := by
  induction frames generalizing buf with
  | nil =>
      obtain ⟨rfl, rfl⟩ := List.append_eq_nil_iff.mp h
      exact ⟨[], [], by rw [scan]; rfl, fun frame hFrame => hFrame, rfl⟩
  | cons frame frames ih =>
      have hFrame := hFrames frame List.mem_cons_self
      have hLength : frame.length = frameLen := verifyFrame_length hFrame
      by_cases hShort : buf.length < frameLen
      · exact ⟨buf, frame :: frames, by rw [scan, if_pos hShort], fun other hOther => hOther, h⟩
      · have hLong : frame.length ≤ buf.length := by
          rw [hLength]
          exact Nat.not_lt.mp hShort
        rw [List.flatten_cons] at h
        obtain ⟨more, rfl⟩ := prefix_of_append_eq h.symm hLong
        rw [List.append_assoc, List.append_cancel_left_eq] at h
        have hRest := fun other hOther => hFrames other (List.mem_cons_of_mem frame hOther)
        obtain ⟨kept, todo, hWaits, hTodo, hLeft⟩ := ih hRest h
        have hMore := List.prefix_append frame more
        have hFind := find_at_start ((verifyFrame_header hFrame).trans hMore)
        refine ⟨kept, todo, ?_, fun other hOther => ?_, hLeft⟩
        swap
        · exact List.mem_cons_of_mem _ (hTodo other hOther)
        rw [scan, if_neg hShort, hFind]
        simp only [List.drop_zero, List.take_left' hLength, List.drop_left' hLength]
        rw [if_neg hShort, hFrame]
        exact hWaits

/-- A stream of frames loses none, wherever it is cut. -/
theorem intact_frames {frames : List Bytes} (hFrames : ∀ frame ∈ frames, verifyFrame frame = true)
    {buf : Bytes} {notifications : List (ℚ × Bytes)}
    (h : buf ++ bytesOf notifications = frames.flatten) : Intact buf notifications := by
  induction notifications generalizing buf frames with
  | nil => exact True.intro
  | cons notification rest ih =>
      have hBytes : buf ++ notification.2 ++ bytesOf rest = frames.flatten := by
        rw [← h, bytesOf_cons, List.append_assoc]
      obtain ⟨kept, todo, hWaits, hTodo, hLeft⟩ := scan_frames hFrames hBytes
      refine ⟨?_, ?_⟩
      · rintro ⟨lost, hCleared, -⟩
        rw [hWaits] at hCleared
        cases hCleared
      · rw [hWaits]
        exact ih (fun frame hFrame => hFrames frame (hTodo frame hFrame)) hLeft

theorem acceptedFrames_eq {notifications : List (ℚ × Bytes)} (h : Intact [] notifications) :
    acceptedFrames notifications = framesOf (bytesOf notifications) :=
  accepted_run (s := .empty) (Nat.succ_pos 19) h

/-- Two runs over one stream accept the same frames when neither throws away the first byte
of one, and a stream of frames is accepted as it is, however it is cut. -/
theorem aili_fragmentation (first second : List (ℚ × Bytes)) (frames : List Bytes) :
    (bytesOf first = bytesOf second → Intact [] first → Intact [] second →
      acceptedFrames first = acceptedFrames second) ∧
    ((∀ frame ∈ frames, verifyFrame frame = true) → bytesOf first = frames.flatten →
      acceptedFrames first = frames) := by
  constructor
  · intro hStream hFirst hSecond
    rw [acceptedFrames_eq hFirst, acceptedFrames_eq hSecond, hStream]
  · intro hFrames hStream
    have hFound := decode_flatten (n := 19)
      (fun frame hFrame => ⟨verifyFrame_length (hFrames frame hFrame), hFrames frame hFrame⟩) []
    rw [acceptedFrames_eq (intact_frames hFrames hStream), hStream, framesOf]
    rwa [decode_nil, List.append_nil, List.append_nil] at hFound

/-- A frame of an idle shunt. -/
def idleFrame : Bytes := [0xff, 0x55] ++ List.replicate 17 0 ++ [0x54]

/-- Two frames, whole and cut, and a cut between the two bytes of a header. -/
theorem aili_fragmentation_idle :
    acceptedFrames [(0, idleFrame)] =
        acceptedFrames [(0, idleFrame.take 7), (1, idleFrame.drop 7)] ∧
      acceptedFrames [(0, idleFrame ++ idleFrame.take 1), (1, idleFrame.drop 1)] =
        [idleFrame, idleFrame] := by
  have hFrames : ∀ frame ∈ [idleFrame], verifyFrame frame = true := by decide
  have hBoth : ∀ frame ∈ [idleFrame, idleFrame], verifyFrame frame = true := by decide
  constructor
  · exact (aili_fragmentation [(0, idleFrame)] [(0, idleFrame.take 7), (1, idleFrame.drop 7)] []).1
      (by decide) (intact_frames hFrames (by decide)) (intact_frames hFrames (by decide))
  · exact (aili_fragmentation [(0, idleFrame ++ idleFrame.take 1), (1, idleFrame.drop 1)] []
      [idleFrame, idleFrame]).2 hBoth (by decide)

/-- Noise and a frame: in one notification, and cut inside the header. -/
def noiseThenFrame : List (ℚ × Bytes) := [(0, List.replicate 20 0 ++ idleFrame)]

def cutInHeader : List (ℚ × Bytes) :=
  [(0, List.replicate 20 0 ++ [0xff]), (1, idleFrame.drop 1)]

theorem cutInHeader_loses :
    bytesOf noiseThenFrame = bytesOf cutInHeader ∧
      acceptedFrames noiseThenFrame = [idleFrame] ∧ acceptedFrames cutInHeader = [] := by
  decide +kernel

end WattPost.BleAili
