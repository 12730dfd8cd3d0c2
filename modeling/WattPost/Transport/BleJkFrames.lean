import WattPost.Transport.BleJkBms

/-! JK frames over a lossy link. The transport cuts the delivered bytes at every header and
looks at nothing else; so it caches frames of the BMS as long as the bytes between two
headers are one. -/
namespace WattPost.BleJkBms

open FrameStream StampedCache
open Vendors (Bytes)

/-! ### Frames and losses -/

/-- A header of either kind stands at the start. -/
def StartsHeader (bytes : Bytes) : Prop :=
  jkFrameHeader <+: bytes ∨ jkFrameHeaderAlt <+: bytes

instance (bytes : Bytes) : Decidable (StartsHeader bytes) := by
  unfold StartsHeader
  infer_instance

/-- A frame as the BMS sends it. -/
structure IsFrame (frame : Bytes) : Prop where
  header : StartsHeader frame
  long : completeFrameMin ≤ frame.length
  short : frame.length ≤ completeFrameMax
  checksum : frame.getLast? = some ((frame.dropLast.foldl (· + ·) 0 : UInt8))

/-- The bytes of notifications. -/
def bytesOf (notifications : List (ℚ × Bytes)) : Bytes := (notifications.map Prod.snd).flatten

/-- What the BMS sends, cut into notifications anywhere, and those that arrive. -/
structure Delivery where
  frames : List Bytes
  notifications : List (ℚ × Bytes)
  delivered : List (ℚ × Bytes)
  isFrame : ∀ frame ∈ frames, IsFrame frame
  cut : bytesOf notifications = frames.flatten
  lossy : List.Sublist delivered notifications

/-- Every frame that is ever cached is one that was sent. -/
structure Delivery.CachesSent (d : Delivery) : Prop where
  logged : ∀ e ∈ log scan d.delivered, e.2.2 ∈ d.frames
  cached : ∀ before, before <+: d.delivered → ∀ frameType frame,
    (Link.after scan before).cache.latest frameType = some frame → frame ∈ d.frames

/-- A stretch of a stream from one header to the next. -/
def Stretch (stream x : Bytes) : Prop :=
  ∃ front back, stream = front ++ (x ++ back) ∧ StartsHeader x ∧ StartsHeader back ∧
    ∀ i, 0 < i → i < x.length → ¬ StartsHeader ((x ++ back).drop i)

/-- In what is delivered, a frame that was sent stands from each header to the next. What
is too short to have a type is passed over. -/
def Delivery.HeadersEnclose (d : Delivery) : Prop :=
  ∀ x, Stretch (bytesOf d.delivered) x → 6 ≤ x.length → x ∈ d.frames

/-! ### Headers -/

theorem StartsHeader.length {bytes : Bytes} (h : StartsHeader bytes) : 4 ≤ bytes.length := by
  rcases h with h | h
  · exact h.length_le
  · exact h.length_le

theorem StartsHeader.append {bytes : Bytes} (h : StartsHeader bytes) (more : Bytes) :
    StartsHeader (bytes ++ more) :=
  h.imp (fun h => h.trans (List.prefix_append _ _)) fun h => h.trans (List.prefix_append _ _)

/-- Four bytes decide. -/
theorem startsHeader_take {bytes : Bytes} {n : Nat} (hn : 4 ≤ n) :
    StartsHeader (bytes.take n) ↔ StartsHeader bytes := by
  constructor
  · intro h
    rw [← List.take_append_drop n bytes]
    exact h.append _
  · intro h
    have hPrefix : ∀ header : Bytes, header.length = 4 → header <+: bytes →
        header <+: bytes.take n := by
      intro header hLength hHeader
      rw [List.prefix_take_iff]
      exact ⟨hHeader, by omega⟩
    exact h.imp (hPrefix _ rfl) (hPrefix _ rfl)

/-- Headers do not overlap. -/
theorem not_startsHeader_drop {bytes : Bytes} (h : StartsHeader bytes) {i : Nat} (hPos : 0 < i)
    (hi : i < 4) : ¬ StartsHeader (bytes.drop i) := by
  obtain rfl | rfl | rfl : i = 1 ∨ i = 2 ∨ i = 3 := by omega
  all_goals
    rcases h with ⟨rest, rfl⟩ | ⟨rest, rfl⟩ <;>
      simp [StartsHeader, jkFrameHeader, jkFrameHeaderAlt, List.cons_prefix_cons]

/-- Where a pattern first stands from a place on. -/
theorem find_drop_some {pattern buf : Bytes} {start i : Nat}
    (h : find pattern (buf.drop start) = some i) :
    pattern <+: buf.drop (start + i) ∧
      ∀ j, start ≤ j → j < start + i → ¬pattern <+: buf.drop j := by
  obtain ⟨hThere, hBefore⟩ := find_some h
  rw [List.drop_drop] at hThere
  refine ⟨hThere, fun j hStart hj => ?_⟩
  have hNot := hBefore (j - start) (by omega)
  rwa [List.drop_drop, Nat.add_sub_cancel' hStart] at hNot

theorem find_drop_none {pattern buf : Bytes} {start : Nat}
    (h : find pattern (buf.drop start) = none) (j : Nat) (hStart : start ≤ j) :
    ¬pattern <+: buf.drop j := by
  have hNot := find_none h (j - start)
  rwa [List.drop_drop, Nat.add_sub_cancel' hStart] at hNot

/-- The first header from a place on. -/
theorem findHeader_some {buf : Bytes} {start i : Nat} (h : findHeader buf start = some i) :
    StartsHeader (buf.drop i) ∧ ∀ j, start ≤ j → j < i → ¬ StartsHeader (buf.drop j) := by
  unfold findHeader at h
  split at h
  · next i₁ i₂ h₁ h₂ =>
      obtain rfl := Option.some.inj h
      obtain ⟨hThere₁, hBefore₁⟩ := find_drop_some h₁
      obtain ⟨hThere₂, hBefore₂⟩ := find_drop_some h₂
      constructor
      · rcases Nat.le_total i₁ i₂ with hLe | hLe
        · exact Or.inl (by rwa [Nat.min_eq_left hLe])
        · exact Or.inr (by rwa [Nat.min_eq_right hLe])
      · intro j hStart hj
        exact not_or_intro (hBefore₁ j hStart (by omega)) (hBefore₂ j hStart (by omega))
  · next i₁ h₁ h₂ =>
      obtain rfl := Option.some.inj h
      obtain ⟨hThere, hBefore⟩ := find_drop_some h₁
      exact ⟨Or.inl hThere, fun j hStart hj =>
        not_or_intro (hBefore j hStart hj) (find_drop_none h₂ j hStart)⟩
  · next i₂ h₁ h₂ =>
      obtain rfl := Option.some.inj h
      obtain ⟨hThere, hBefore⟩ := find_drop_some h₂
      exact ⟨Or.inr hThere, fun j hStart hj =>
        not_or_intro (find_drop_none h₁ j hStart) (hBefore j hStart hj)⟩
  · cases h

/-! ### What is cut -/

theorem stretch_append {stream x : Bytes} (h : Stretch stream x) (before after : Bytes) :
    Stretch (before ++ stream ++ after) x := by
  obtain ⟨front, back, rfl, hHeader, hNext, hBetween⟩ := h
  refine ⟨before ++ front, back ++ after, by simp, hHeader, hNext.append after, ?_⟩
  intro i hPos hi hThere
  apply hBetween i hPos hi
  have hRoom : 4 ≤ ((x ++ back).drop i).length := by
    have := hNext.length
    rw [List.length_drop, List.length_append]
    omega
  rw [← List.append_assoc,
    List.drop_append_of_le_length (by rw [List.length_append]; omega)] at hThere
  rw [← startsHeader_take hRoom, List.take_left' rfl] at hThere
  exact hThere

/-- Up to the next header. -/
theorem stretch_take {buf : Bytes} (hHeader : StartsHeader buf) {next : Nat}
    (hNext : findHeader buf 4 = some next) : Stretch buf (buf.take next) := by
  have hGe := findHeader_ge hNext
  obtain ⟨hThere, hBefore⟩ := findHeader_some hNext
  have hRoom := hThere.length
  rw [List.length_drop] at hRoom
  refine ⟨[], buf.drop next, by rw [List.take_append_drop]; rfl,
    (startsHeader_take hGe).mpr hHeader, hThere, fun i hPos hi => ?_⟩
  rw [List.take_append_drop]
  rw [List.length_take, Nat.min_eq_left (by omega)] at hi
  by_cases hNear : i < 4
  · exact not_startsHeader_drop hHeader hPos hNear
  · exact hBefore i (by omega) hi

/-- Behind a header the loop cuts stretches, and leaves an end of the buffer. -/
theorem split_stretches {buf : Bytes} (hHeader : StartsHeader buf) :
    (∀ e ∈ (split buf).1, Stretch buf e.2 ∧ 6 ≤ e.2.length) ∧ (split buf).2 <:+ buf := by
  have hLater : ∀ (buf : Bytes) (next : Nat) (e : UInt8 × Bytes), Stretch (buf.drop next) e.2 →
      Stretch buf e.2 := by
    intro buf next e hStretch
    have hWhole := stretch_append hStretch (buf.take next) []
    rwa [List.take_append_drop, List.append_nil] at hWhole
  fun_induction split buf with
  | case1 buf hShort => exact ⟨fun _ hMem => absurd hMem List.not_mem_nil, List.suffix_rfl⟩
  | case2 buf hLong hNone =>
      refine ⟨fun _ hMem => absurd hMem List.not_mem_nil, ?_⟩
      split
      · exact List.nil_suffix
      · exact List.suffix_rfl
  | case3 buf hLong next hNext rest hTiny ih =>
      obtain ⟨hRest, hLeft⟩ := ih (findHeader_some hNext).1
      exact ⟨fun e he => ⟨hLater _ _ _ (hRest e he).1, (hRest e he).2⟩,
        hLeft.trans (List.drop_suffix _ _)⟩
  | case4 buf hLong next hNext rest hWhole ih =>
      obtain ⟨hRest, hLeft⟩ := ih (findHeader_some hNext).1
      refine ⟨fun e he => ?_, hLeft.trans (List.drop_suffix _ _)⟩
      rcases List.mem_cons.mp he with rfl | he
      · exact ⟨stretch_take hHeader hNext, not_lt.mp hWhole⟩
      · exact ⟨hLater _ _ _ (hRest e he).1, (hRest e he).2⟩

/-- A notification cuts stretches of what waits and what arrives, and leaves an end of it. -/
theorem scan_stretches (buf data : Bytes) :
    (∀ e ∈ (scan buf data).1, Stretch (buf ++ data) e.2 ∧ 6 ≤ e.2.length) ∧
      (scan buf data).2 <:+ buf ++ data := by
  unfold scan
  split
  case isTrue hEmpty =>
    rw [List.isEmpty_iff] at hEmpty
    rw [hEmpty, List.append_nil]
    exact ⟨fun _ hMem => absurd hMem List.not_mem_nil, List.suffix_rfl⟩
  case isFalse =>
    split
    case h_1 =>
      refine ⟨fun _ hMem => absurd hMem List.not_mem_nil, ?_⟩
      split
      · exact List.nil_suffix
      · exact List.suffix_rfl
    case h_2 start hStart =>
      obtain ⟨hCut, hLeft⟩ := split_stretches (findHeader_some hStart).1
      refine ⟨fun e he => ⟨?_, (hCut e he).2⟩, hLeft.trans (List.drop_suffix _ _)⟩
      have hWhole := stretch_append (hCut e he).1 ((buf ++ data).take start) []
      rwa [List.take_append_drop, List.append_nil] at hWhole

/-- Over a run: every frame in the log is a stretch of the delivered bytes. -/
theorem log_stretches (seen buf : Bytes) (hBuf : buf <:+ seen) (notifications : List (ℚ × Bytes)) :
    ∀ e ∈ logFrom scan buf notifications,
      Stretch (seen ++ bytesOf notifications) e.2.2 ∧ 6 ≤ e.2.2.length := by
  induction notifications generalizing seen buf with
  | nil => exact fun _ hMem => absurd hMem List.not_mem_nil
  | cons notification rest ih =>
      obtain ⟨hCut, hLeft⟩ := scan_stretches buf notification.2
      obtain ⟨front, rfl⟩ := hBuf
      have hBytes : front ++ buf ++ bytesOf (notification :: rest) =
          front ++ (buf ++ notification.2) ++ bytesOf rest := by
        simp [bytesOf]
      intro e he
      rw [hBytes]
      rcases List.mem_append.mp he with hNow | hLater
      · obtain ⟨entry, hEntry, rfl⟩ := List.mem_map.mp hNow
        exact ⟨stretch_append (hCut entry hEntry).1 front (bytesOf rest), (hCut entry hEntry).2⟩
      · exact ih _ _ (hLeft.trans (List.suffix_append _ _)) e hLater

/-! ### Whole frames -/

/-- A stretch that begins with the first frame and ends with one of the frames is the first
frame: a longer one would reach over the start of the second. -/
theorem first_of_stretch {frame : Bytes} {kept : List Bytes} {part x back : Bytes}
    (hKept : ∀ f ∈ frame :: kept, StartsHeader f)
    (hBody : (frame :: kept).flatten ++ part = x ++ back) (hPos : 0 < x.length)
    (hBetween : ∀ i, 0 < i → i < x.length → ¬ StartsHeader ((x ++ back).drop i))
    {l : ℕ} (hl : l ≤ (frame :: kept).length)
    (hEnd : x.length = ((frame :: kept).take l).flatten.length) : x = frame := by
  obtain ⟨hFrame, hRest⟩ := List.forall_mem_cons.mp hKept
  have hFramePos := hFrame.length
  rw [List.flatten_cons, List.append_assoc] at hBody
  cases l with
  | zero =>
      rw [List.take_zero, List.flatten_nil, List.length_nil] at hEnd
      omega
  | succ l =>
      cases l with
      | zero =>
          have hLength : frame.length = x.length := by simpa using hEnd.symm
          exact (List.append_inj hBody hLength).1.symm
      | succ l =>
          cases kept with
          | nil => simp at hl
          | cons second kept =>
              have hSecond := hRest second List.mem_cons_self
              have hSecondPos := hSecond.length
              have hInside : frame.length < x.length := by
                simp only [List.take_succ_cons, List.flatten_cons, List.length_append] at hEnd
                omega
              refine absurd ?_ (hBetween frame.length (by omega) hInside)
              rw [← hBody, List.drop_left, List.flatten_cons, List.append_assoc]
              exact hSecond.append _

/-- Where whole frames come one after another, with headers nowhere else, a frame stands
from each header to the next. -/
theorem mem_of_stretch {kept : List Bytes} {junk part x : Bytes}
    (hKept : ∀ frame ∈ kept, StartsHeader frame)
    (hOnly : ∀ i, junk.length ≤ i → StartsHeader ((junk ++ (kept.flatten ++ part)).drop i) →
      ∃ k ≤ kept.length, i = junk.length + (kept.take k).flatten.length)
    {front back : Bytes} (hStream : junk ++ (kept.flatten ++ part) = front ++ (x ++ back))
    (hHeader : StartsHeader x) (hNext : StartsHeader back)
    (hBetween : ∀ i, 0 < i → i < x.length → ¬ StartsHeader ((x ++ back).drop i))
    (hFront : junk.length ≤ front.length) : x ∈ kept := by
  have hPos := hHeader.length
  -- both ends of the stretch are places of a header
  have hStart : StartsHeader ((junk ++ (kept.flatten ++ part)).drop front.length) := by
    rw [hStream, List.drop_left]
    exact hHeader.append back
  have hEnd : StartsHeader ((junk ++ (kept.flatten ++ part)).drop (front.length + x.length)) := by
    rw [hStream, ← List.append_assoc, ← List.length_append, List.drop_left]
    exact hNext
  obtain ⟨k, hk, hkEq⟩ := hOnly _ hFront hStart
  obtain ⟨l, hl, hlEq⟩ := hOnly _ (by omega) hEnd
  induction kept generalizing junk k l with
  | nil =>
      rw [List.take_nil, List.flatten_nil, List.length_nil] at hkEq hlEq
      omega
  | cons frame kept ih =>
      obtain ⟨hFrame, hRest⟩ := List.forall_mem_cons.mp hKept
      have hFramePos := hFrame.length
      cases k with
      | zero =>
          have hSame : front.length = junk.length := by simpa using hkEq
          obtain ⟨rfl, hBody⟩ := List.append_inj hStream hSame.symm
          rw [first_of_stretch hKept hBody (by omega) hBetween hl (by omega)]
          exact List.mem_cons_self
      | succ k =>
          have hAssoc : junk ++ ((frame :: kept).flatten ++ part) =
              (junk ++ frame) ++ (kept.flatten ++ part) := by simp
          simp only [List.take_succ_cons, List.flatten_cons, List.length_append] at hkEq
          have hLater : (junk ++ frame).length ≤ front.length := by
            rw [List.length_append]
            omega
          rw [hAssoc] at hOnly hStream hStart hEnd
          have hOnly' : ∀ i, (junk ++ frame).length ≤ i →
              StartsHeader (((junk ++ frame) ++ (kept.flatten ++ part)).drop i) →
              ∃ k ≤ kept.length, i = (junk ++ frame).length + (kept.take k).flatten.length := by
            intro i hi hThere
            rw [List.length_append] at hi ⊢
            obtain ⟨m, hm, hmEq⟩ := hOnly i (by omega) hThere
            cases m with
            | zero =>
                rw [List.take_zero, List.flatten_nil, List.length_nil] at hmEq
                omega
            | succ m =>
                simp only [List.take_succ_cons, List.flatten_cons, List.length_append] at hmEq
                exact ⟨m, by simpa using hm, by omega⟩
          obtain ⟨k', hk', hkEq'⟩ := hOnly' _ hLater hStart
          obtain ⟨l', hl', hlEq'⟩ := hOnly' _ (by omega) hEnd
          exact List.mem_cons_of_mem _ (ih hRest hOnly' hStream hLater hStart hEnd k' hk' hkEq' l'
            hl' hlEq')

section Delivery

variable {d : Delivery}

/-- Losses that take whole frames, and what is before the first header and after the last
frame, leave a frame from each header to the next, if no data look like a header. -/
theorem Delivery.headersEnclose_of_whole {kept : List Bytes} {junk part : Bytes}
    (hStream : bytesOf d.delivered = junk ++ (kept.flatten ++ part))
    (hKept : ∀ frame ∈ kept, frame ∈ d.frames)
    (hOnly : ∀ i, StartsHeader ((bytesOf d.delivered).drop i) →
      ∃ k ≤ kept.length, i = junk.length + (kept.take k).flatten.length) : d.HeadersEnclose := by
  rintro x ⟨front, back, hSplit, hHeader, hNext, hBetween⟩ _
  have hFront : junk.length ≤ front.length := by
    have hThere : StartsHeader ((bytesOf d.delivered).drop front.length) := by
      rw [hSplit, List.drop_left]
      exact hHeader.append back
    obtain ⟨k, _, hk⟩ := hOnly _ hThere
    omega
  rw [hStream] at hOnly hSplit
  exact hKept x (mem_of_stretch (fun frame hFrame => (d.isFrame frame (hKept frame hFrame)).header)
    (fun i _ => hOnly i) hSplit hHeader hNext hBetween hFront)

theorem lastOf_mem {κ ν : Type} [DecidableEq κ] {entries : List (κ × ν)} {k : κ} {v : ν}
    (h : lastOf entries k = some v) : (k, v) ∈ entries := by
  obtain ⟨e, hLast, rfl⟩ := Option.map_eq_some_iff.mp h
  obtain ⟨hMem, hKind⟩ := List.mem_filter.mp (List.mem_of_getLast? hLast)
  rw [← of_decide_eq_true hKind]
  exact hMem

/-- Where a frame that was sent stands from each header to the next, only such frames are
cached, at any time. -/
theorem cached_frames_sent (d : Delivery) (h : d.HeadersEnclose) : d.CachesSent := by
  have hLogged : ∀ e ∈ log scan d.delivered, e.2.2 ∈ d.frames := by
    intro e he
    obtain ⟨hStretch, hLong⟩ := log_stretches [] [] List.suffix_rfl d.delivered e he
    exact h _ hStretch hLong
  refine ⟨hLogged, ?_⟩
  rintro before ⟨after, hBefore⟩ frameType frame hCached
  rw [cache_after, latest_putAll] at hCached
  obtain ⟨e, he, hEntry⟩ := List.mem_map.mp (lastOf_mem hCached)
  have hMem : e ∈ log scan d.delivered := by
    rw [← hBefore, log, logFrom_append]
    exact List.mem_append_left _ he
  have hSent := hLogged e hMem
  rwa [hEntry] at hSent

end Delivery

/-! ### Three frames of cell data -/

/-- Cell data that are all the same, behind the header and the type. -/
def cellBody (fill : UInt8) : Bytes := jkFrameHeader ++ 0x02 :: List.replicate 194 fill

/-- A frame of 200 bytes. -/
def cellFrame (fill : UInt8) : Bytes := cellBody fill ++ [(cellBody fill).foldl (· + ·) 0]

theorem length_cellFrame (fill : UInt8) : (cellFrame fill).length = 200 := by
  rw [cellFrame, List.length_append, cellBody, List.length_append, List.length_cons,
    List.length_replicate]
  rfl

theorem isFrame_cellFrame (fill : UInt8) : IsFrame (cellFrame fill) where
  header := by
    left
    rw [cellFrame, cellBody, List.append_assoc]
    exact List.prefix_append _ _
  long := (length_cellFrame fill).ge
  short := by
    rw [length_cellFrame]
    decide
  checksum := by rw [cellFrame, List.getLast?_concat, List.dropLast_concat]

/-- One frame a notification; the second one is lost. -/
def wholeLoss : Delivery where
  frames := [cellFrame 0, cellFrame 1, cellFrame 2]
  notifications := [(0, cellFrame 0), (1, cellFrame 1), (2, cellFrame 2)]
  delivered := [(0, cellFrame 0), (2, cellFrame 2)]
  isFrame := by
    intro frame hFrame
    simp only [List.mem_cons, List.not_mem_nil, or_false] at hFrame
    rcases hFrame with rfl | rfl | rfl <;> exact isFrame_cellFrame _
  cut := rfl
  lossy := .cons_cons _ (.cons _ (.refl _))

theorem cached_frames_sent_wholeLoss : wholeLoss.CachesSent := by
  have hStream : bytesOf wholeLoss.delivered =
      [] ++ ([cellFrame 0, cellFrame 2].flatten ++ []) := by
    rw [List.append_nil]
    rfl
  refine cached_frames_sent wholeLoss (Delivery.headersEnclose_of_whole hStream ?_ ?_)
  · intro frame hFrame
    rcases List.mem_cons.mp hFrame with rfl | hFrame
    · exact List.mem_cons_self
    · exact List.mem_cons_of_mem _ (List.mem_cons_of_mem _ hFrame)
  · intro i hThere
    have hPlaces : ∀ i < 400, StartsHeader ((bytesOf wholeLoss.delivered).drop i) →
        i = 0 ∨ i = 200 := by
      decide +kernel
    have hLength : (bytesOf wholeLoss.delivered).length = 400 := by decide +kernel
    have hRoom := hThere.length
    rw [List.length_drop, hLength] at hRoom
    rcases hPlaces i (by omega) hThere with rfl | rfl
    · exact ⟨0, by decide, rfl⟩
    · refine ⟨1, by decide, ?_⟩
      rw [List.take_succ_cons, List.take_zero, List.flatten_cons, List.flatten_nil, List.append_nil,
        length_cellFrame]
      rfl

/-- The head of one frame, and the tail of another. -/
def head (fill : UInt8) : Bytes := (cellFrame fill).take 100

def tail (fill : UInt8) : Bytes := (cellFrame fill).drop 100

/-- Half a frame a notification, with half of the next; the second one is lost. -/
def halfLoss : Delivery where
  frames := [cellFrame 0, cellFrame 1, cellFrame 2]
  notifications := [(0, head 0), (1, tail 0 ++ head 1), (2, tail 1 ++ cellFrame 2)]
  delivered := [(0, head 0), (2, tail 1 ++ cellFrame 2)]
  isFrame := wholeLoss.isFrame
  cut := by decide +kernel
  lossy := .cons_cons _ (.cons _ (.refl _))

/-- The head of the first frame and the tail of the second are cached as one. -/
theorem stitched_frame_cached : ¬ ∀ d : Delivery, d.CachesSent := by
  intro h
  have hWaits : (scan [] (head 0)).2 = head 0 := by
    have hHeader : findHeader ([] ++ head 0) 0 = some 0 := by decide +kernel
    have hShort : (head 0).length < completeFrameMin := by decide +kernel
    have hSome : (head 0).isEmpty = false := by decide +kernel
    rw [scan, hSome, hHeader]
    change (split (head 0)).2 = head 0
    rw [split, if_pos hShort]
  have hStitched : (0x02, head 0 ++ tail 1) ∈ (scan (head 0) (tail 1 ++ cellFrame 2)).1 := by
    have hHeader : findHeader (head 0 ++ (tail 1 ++ cellFrame 2)) 0 = some 0 := by decide +kernel
    have hNext : findHeader (head 0 ++ (tail 1 ++ cellFrame 2)) 4 = some 200 := by decide +kernel
    have hLong : ¬(head 0 ++ (tail 1 ++ cellFrame 2)).length < completeFrameMin := by decide +kernel
    have hTake : (head 0 ++ (tail 1 ++ cellFrame 2)).take 200 = head 0 ++ tail 1 := by
      decide +kernel
    have hWhole : ¬(head 0 ++ tail 1).length < 6 := by decide +kernel
    have hType : (head 0 ++ tail 1).getD 4 0 = 0x02 := by decide +kernel
    have hSome : (tail 1 ++ cellFrame 2).isEmpty = false := by decide +kernel
    rw [scan, hSome, hHeader]
    change _ ∈ (split (head 0 ++ (tail 1 ++ cellFrame 2))).1
    rw [split, if_neg hLong]
    split
    case h_1 hNone =>
      rw [hNext] at hNone
      cases hNone
    case h_2 next hFound =>
      obtain rfl : 200 = next := Option.some.inj (hNext.symm.trans hFound)
      rw [hTake, if_neg hWhole, hType]
      exact List.mem_cons_self
  have hLogged : (2, 0x02, head 0 ++ tail 1) ∈ log scan halfLoss.delivered := by
    refine List.mem_append_right _ (List.mem_append_left _ ?_)
    rw [hWaits]
    exact List.mem_map_of_mem (f := fun e => ((2 : ℚ), e)) hStitched
  have hSent := (h halfLoss).logged _ hLogged
  revert hSent
  decide +kernel

end WattPost.BleJkBms
