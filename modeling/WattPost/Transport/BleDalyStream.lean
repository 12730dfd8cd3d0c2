import WattPost.Transport.BleDaly

/-! The Daly stream however it is cut into notifications: what `_on_notify` accepts
and keeps is a matter of the bytes alone. -/
namespace WattPost.BleDaly

open StampedCache
open Vendors (Bytes)

/-- `_on_notify` over some notifications: the frames that it accepts, in order, and the
transport afterwards. -/
def onNotifyAll (s : BleDalyTransport) :
    List (ℚ × Bytes) → List (UInt8 × Bytes) × BleDalyTransport
  | [] => ([], s)
  | notification :: rest =>
      let later := onNotifyAll (onNotify s notification) rest
      ((scan s.link.buf notification.2).1 ++ later.1, later.2)

/-- The transport before the first notification. -/
def BleDalyTransport.start : BleDalyTransport := ⟨.empty, []⟩

/-- The frames and the buffer are those of the link; the cells are the frames'. -/
theorem onNotifyAll_eq (s : BleDalyTransport) (notifications : List (ℚ × Bytes)) :
    (onNotifyAll s notifications).1 =
        (logFrom scan s.link.buf notifications).map Prod.snd ∧
      (onNotifyAll s notifications).2.link.buf = bufFrom scan s.link.buf notifications ∧
      (onNotifyAll s notifications).2.cells =
        s.cells ++ (onNotifyAll s notifications).1.flatMap cellsOfEntry := by
  induction notifications generalizing s with
  | nil => exact ⟨rfl, rfl, (List.append_nil _).symm⟩
  | cons notification rest ih =>
      obtain ⟨hFrames, hBuf, hCells⟩ := ih (onNotify s notification)
      refine ⟨?_, hBuf, ?_⟩
      · rw [onNotifyAll, logFrom, List.map_append, List.map_map, hFrames]
        exact congrArg (· ++ _) (List.map_id _).symm
      · rw [onNotifyAll, hCells, List.flatMap_append, ← List.append_assoc]
        rfl

/-! ### One decision at a time -/

/-- The first thirteen bytes decide, whatever comes after them. -/
theorem frames_long {buf : Bytes} (h : frameLen ≤ buf.length) :
    frames buf =
      match parseFrame (buf.take frameLen) with
      | none => frames (buf.drop 1)
      | some entry =>
          (entry :: (frames (buf.drop frameLen)).1, (frames (buf.drop frameLen)).2) := by
  rw [frames, if_neg (Nat.not_lt.mpr h)]
  split
  next hHead =>
    have hInvalid : parseFrame (buf.take frameLen) = none := by
      unfold parseFrame
      split
      · rfl
      · rw [if_pos]
        intro hHeader
        apply hHead
        cases buf with
        | nil => cases h
        | cons b rest => exact congrArg some hHeader
    rw [hInvalid]
  next => rfl

theorem frames_short {buf : Bytes} (h : buf.length < frameLen) : frames buf = ([], buf) := by
  rw [frames, if_pos h]

/-- The loop can stop at any byte and go on from what it has left. -/
theorem incremental_frames : Incremental frames := by
  intro xs ys
  induction hn : xs.length using Nat.strong_induction_on generalizing xs with
  | _ n ih =>
      by_cases hShort : xs.length < frameLen
      · rw [frames_short hShort]
        rfl
      · have hLong : frameLen ≤ xs.length := Nat.not_lt.mp hShort
        have hBoth : frameLen ≤ (xs ++ ys).length := by
          rw [List.length_append]
          omega
        have hOne : 1 ≤ xs.length := Nat.le_trans (by decide) hLong
        have hDrop : ∀ k, 1 ≤ k → (xs.drop k).length < n := by
          intro k hk
          rw [List.length_drop]
          omega
        rw [frames_long hBoth, frames_long hLong, List.take_append_of_le_length hLong,
          List.drop_append_of_le_length hLong, List.drop_append_of_le_length hOne]
        cases parseFrame (xs.take frameLen) with
        | none => exact ih _ (hDrop 1 (Nat.le_refl 1)) (xs.drop 1) rfl
        | some entry =>
            have hRest := ih _ (hDrop frameLen (by decide)) (xs.drop frameLen) rfl
            simp only [hRest, List.cons_append]

/-- What is accepted of a stream, and what is left of it, however it arrives. -/
theorem onNotifyAll_stream {s : BleDalyTransport} (h : s.link.buf.length < frameLen)
    (notifications : List (ℚ × Bytes)) :
    (onNotifyAll s notifications).1 =
        (frames (s.link.buf ++ notifications.flatMap Prod.snd)).1 ∧
      (onNotifyAll s notifications).2.link.buf =
        (frames (s.link.buf ++ notifications.flatMap Prod.snd)).2 := by
  obtain ⟨hFrames, hBuf, -⟩ := onNotifyAll_eq s notifications
  have hStream := incremental_frames.from_eq (frames_short h) notifications
  rw [hFrames, hBuf, ← hStream]
  exact ⟨rfl, rfl⟩

/-- Less than a frame is ever left. -/
theorem length_frames (buf : Bytes) : (frames buf).2.length < frameLen := by
  fun_induction frames buf with
  | case1 buf hShort => exact hShort
  | case2 buf hLong hHead ih => exact ih
  | case3 buf hLong hHead hParse ih => exact ih
  | case4 buf hLong hHead entry hParse rest ih => exact ih

theorem length_buf (before : List (ℚ × Bytes)) :
    (onNotifyAll .start before).2.link.buf.length < frameLen := by
  rw [(onNotifyAll_stream (s := .start) (by decide) before).2]
  exact length_frames _

/-! ### Garbage -/

theorem map_some_filterMap {α β : Type} {f : α → Option β} {xs : List α}
    (h : ∀ x ∈ xs, (f x).isSome) : (xs.filterMap f).map some = xs.map f := by
  induction xs with
  | nil => rfl
  | cons x xs ih =>
      obtain ⟨y, hy⟩ := Option.isSome_iff_exists.mp (h x (List.mem_cons_self ..))
      rw [List.filterMap_cons, hy, List.map_cons, List.map_cons, hy,
        ih fun z hz => h z (List.mem_cons_of_mem _ hz)]

theorem length_of_parseFrame {buf : Bytes} (h : (parseFrame buf).isSome) :
    buf.length = frameLen ∧ buf.head? = some frameHeader := by
  unfold parseFrame at h
  split at h
  · cases h
  next hLength =>
    split at h
    · cases h
    next hHeader =>
      refine ⟨not_not.mp hLength, ?_⟩
      cases buf with
      | nil => exact absurd (not_not.mp hLength) (by decide)
      | cons b rest => exact congrArg some (not_not.mp hHeader)

/-- Valid frames at the start are all accepted. -/
theorem frames_valid {valid : List Bytes} (h : ∀ frame ∈ valid, (parseFrame frame).isSome) :
    frames valid.flatten = (valid.filterMap parseFrame, []) := by
  induction valid with
  | nil => exact frames_nil
  | cons frame rest ih =>
      have hFrame := h frame (List.mem_cons_self ..)
      have hLength := (length_of_parseFrame hFrame).1
      obtain ⟨entry, hEntry⟩ := Option.isSome_iff_exists.mp hFrame
      have hLong : frameLen ≤ (frame ++ rest.flatten).length := by
        rw [List.length_append]
        omega
      rw [List.flatten_cons, frames_long hLong, List.take_left' hLength, hEntry,
        List.drop_left' hLength, List.filterMap_cons, hEntry,
        ih fun other hOther => h other (List.mem_cons_of_mem _ hOther)]

/-- Bytes without the header are passed over, as long as a frame's length is there. -/
theorem frames_garbage {garbage : Bytes} (h : frameHeader ∉ garbage) {more : Bytes}
    (hMore : frameLen ≤ more.length) : frames (garbage ++ more) = frames more := by
  induction garbage with
  | nil => rfl
  | cons b garbage ih =>
      rw [List.mem_cons, not_or] at h
      have hLong : frameLen ≤ (b :: (garbage ++ more)).length := by
        rw [List.length_cons, List.length_append]
        omega
      have hInvalid : parseFrame ((b :: (garbage ++ more)).take frameLen) = none := by
        by_contra hSome
        have hHead := (length_of_parseFrame (Option.isSome_iff_ne_none.mpr hSome)).2
        exact h.1 (Option.some.inj hHead).symm
      rw [List.cons_append, frames_long hLong, hInvalid]
      exact ih h.2

/-- Garbage alone gives nothing. -/
theorem frames_garbage_alone {garbage : Bytes} (h : frameHeader ∉ garbage) :
    (frames garbage).1 = [] := by
  induction garbage with
  | nil => rw [frames_nil]
  | cons b rest ih =>
      rw [List.mem_cons, not_or] at h
      by_cases hShort : (b :: rest).length < frameLen
      · rw [frames_short hShort]
      · have hHead : (b :: rest).head? ≠ some frameHeader := fun hEq =>
          h.1 (Option.some.inj hEq).symm
        rw [frames, if_neg hShort, if_pos hHead]
        exact ih h.2

/-! ### Reassembly -/

/-- **Reassembly is independent of fragmentation.** After any notifications, two ways of
cutting the same bytes are accepted as the same frames, and leave the same buffer and
the same cells; and valid frames after garbage without a header are all accepted, in
order. -/
theorem reassembly_independent :
    (∀ before first second : List (ℚ × Bytes),
      first.flatMap Prod.snd = second.flatMap Prod.snd →
      let s := (onNotifyAll .start before).2
      (onNotifyAll s first).1 = (onNotifyAll s second).1 ∧
        (onNotifyAll s first).2.link.buf = (onNotifyAll s second).2.link.buf ∧
        (onNotifyAll s first).2.cells = (onNotifyAll s second).2.cells) ∧
    ∀ (garbage : Bytes) (valid : List Bytes) (notifications : List (ℚ × Bytes)),
      frameHeader ∉ garbage → (∀ frame ∈ valid, (parseFrame frame).isSome) →
      notifications.flatMap Prod.snd = garbage ++ valid.flatten →
      (onNotifyAll .start notifications).1.map some = valid.map parseFrame := by
  refine ⟨fun before first second hBytes => ?_, fun garbage valid notifications hGarbage hValid
    hBytes => ?_⟩
  · have hBuf := length_buf before
    obtain ⟨hFrames, hLeft⟩ := onNotifyAll_stream hBuf first
    obtain ⟨hFrames', hLeft'⟩ := onNotifyAll_stream hBuf second
    rw [hBytes, ← hFrames'] at hFrames
    rw [hBytes, ← hLeft'] at hLeft
    refine ⟨hFrames, hLeft, ?_⟩
    rw [(onNotifyAll_eq _ first).2.2, (onNotifyAll_eq _ second).2.2, hFrames]
  · have hFound : (onNotifyAll .start notifications).1 = valid.filterMap parseFrame := by
      rw [(onNotifyAll_stream (s := .start) (by decide) notifications).1, hBytes]
      show (frames (garbage ++ valid.flatten)).1 = _
      cases valid with
      | nil =>
          rw [List.flatten_nil, List.append_nil]
          exact frames_garbage_alone hGarbage
      | cons frame rest =>
          have hLength := (length_of_parseFrame (hValid frame (List.mem_cons_self ..))).1
          rw [frames_garbage hGarbage, frames_valid hValid]
          rw [List.flatten_cons, List.length_append]
          omega
    rw [hFound]
    exact map_some_filterMap hValid

/-- A frame in two pieces after a stray byte, and the same bytes at once. -/
theorem reassembly_independent_example :
    (onNotifyAll .start [(0, [0x00]), (1, (replyFrame 0x90 (.replicate 8 1)).take 5),
        (2, (replyFrame 0x90 (.replicate 8 1)).drop 5)]).1.map some =
      [parseFrame (replyFrame 0x90 (.replicate 8 1))] := by
  refine reassembly_independent.2 [0x00] [replyFrame 0x90 (.replicate 8 1)] _ (by decide) ?_ ?_
  · simp [parse_replyFrame]
  · decide

end WattPost.BleDaly
