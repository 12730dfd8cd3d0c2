import WattPost.Lib.FrameStream
import WattPost.Lib.PyDict
import WattPost.Lib.Runs
import WattPost.Vendors.Base

/-! The VE.Direct reader: text frames on a serial line, and HEX lines between their lines.
The HEX lines are stripped from the buffer after every read, and one that is not yet whole is
stripped too. So the frames of a stream are accepted when every read brings whole HEX lines. -/
namespace WattPost.VeDirect

open FrameStream PyDict
open Vendors (Bytes)

def staleAfterSeconds : ℚ := 60

/-- `b"Checksum\t"`. -/
def marker : Bytes := [0x43, 0x68, 0x65, 0x63, 0x6b, 0x73, 0x75, 0x6d, 0x09]

def lf : UInt8 := 0x0a

def cr : UInt8 := 0x0d

def colon : UInt8 := 0x3a

def isLineEnd (b : UInt8) : Bool := b = lf || b = cr

/-! ### Frames -/

/-- `_verify_checksum`. -/
def verifyChecksum (raw : Bytes) : Bool := (raw.map UInt8.toNat).sum &&& 0xff = 0

/-- A value of the returned dictionary: a text, or the product id as a number. -/
inductive FieldValue where
  | text (s : String)
  | number (n : Int)
deriving DecidableEq

/-- `text.split("\r\n")`. -/
def splitCrLf : List Char → List (List Char)
  | [] => [[]]
  | '\r' :: '\n' :: rest => [] :: splitCrLf rest
  | c :: rest =>
      match splitCrLf rest with
      | [] => [[c]]
      | line :: lines => (c :: line) :: lines

/-- What a line adds to the dictionary. -/
def addLine (out : Dict FieldValue) (line : List Char) : Dict FieldValue :=
  if line.isEmpty || "Checksum".toList.isPrefixOf line || !line.contains '\t' then out
  else
    let label := String.ofList (line.takeWhile (· != '\t'))
    let value := String.ofList ((line.dropWhile (· != '\t')).drop 1)
    out.set (PyText.strip label) (.text (PyText.strip value))

/-- `_parse_frame`. -/
def parseFrame (raw : Bytes) : Dict FieldValue :=
  let text := raw.map fun b => Char.ofNat b.toNat
  let out := (splitCrLf text).foldl addLine Dict.empty
  match out.get "PID" with
  | some (.text s) =>
      match PyText.toIntAnyBase s with
      | some n => out.set "_pid_int" (.number n)
      | none => out
  | _ => out

/-- The checks of the inner loop: what a frame is accepted as. -/
def acceptFrame (frame : Bytes) : Option (Dict FieldValue) :=
  if !verifyChecksum frame then none
  else
    let parsed := parseFrame frame
    if parsed.entries.isEmpty then none else some parsed

/-! ### The reader -/

/-- The loop of `_strip_hex_lines`, from a byte on that stands at a line start or not. -/
def stripFrom (atLineStart : Bool) (buf : Bytes) : Bytes :=
  match buf with
  | [] => []
  | b :: rest =>
      if atLineStart && b = colon then
        -- without an LF nothing is left: the `break` cuts the buffer off at the colon
        stripFrom true ((b :: rest).dropWhile (· != lf)).tail
      else b :: stripFrom (isLineEnd b) rest
termination_by buf.length
decreasing_by
  · have hLength := (List.dropWhile_suffix (l := b :: rest) (· != lf)).length_le
    rw [List.length_tail, List.length_cons] at *
    omega
  · simp

/-- `_strip_hex_lines`. -/
def stripHexLines (buf : Bytes) : Bytes := stripFrom true buf

/-- The reader: its buffer, and the frames it has accepted with their times. The last of them
is `_latest`, at `_latest_at`. -/
structure State where
  buf : Bytes
  accepted : List (ℚ × Dict FieldValue)

/-- Before the first read. -/
def State.empty : State := ⟨[], []⟩

/-- One round of `_reader_loop`, with what the read has brought and its time. -/
def onRead (s : State) (read : ℚ × Bytes) : State :=
  if read.2.isEmpty then s
  else
    let frames := cut marker (stripHexLines (s.buf ++ read.2))
    { buf := frames.2
      accepted := s.accepted ++
        (frames.1.filterMap acceptFrame).map fun parsed => (read.1, parsed) }

/-- `get_latest`. -/
def getLatest (now : ℚ) (s : State) : Option (Dict FieldValue) :=
  match s.accepted.getLast? with
  | none => none
  | some (latestAt, parsed) => if now - latestAt > staleAfterSeconds then none else some parsed

/-- The sequence of the accepted frames. -/
def acceptedFrames (reads : List (ℚ × Bytes)) : List (Dict FieldValue) :=
  (Runs.run onRead .empty reads).accepted.map Prod.snd

/-! ### Streams -/

/-- What a stream is made of: bytes of the text, and HEX lines. -/
inductive Token where
  | byte (b : UInt8)
  | hexLine (content : Bytes)
deriving DecidableEq

/-- The bytes on the line. -/
def Token.bytes : Token → Bytes
  | .byte b => [b]
  | .hexLine content => colon :: content ++ [lf]

/-- The bytes without the HEX lines. -/
def Token.text : Token → Bytes
  | .byte b => [b]
  | .hexLine _ => []

def bytesOf (tokens : List Token) : Bytes := tokens.flatMap Token.bytes

def textOf (tokens : List Token) : Bytes := tokens.flatMap Token.text

/-- Whether a byte after these stands at a line start, if one before them does. -/
def after (atLineStart : Bool) (text : Bytes) : Bool :=
  text.foldl (fun _ b => isLineEnd b) atLineStart

/-- Every HEX line begins at a line start, and ends with its first LF. -/
def hexAtLineStart (atLineStart : Bool) : List Token → Bool
  | [] => true
  | .byte b :: rest => hexAtLineStart (isLineEnd b) rest
  | .hexLine content :: rest => atLineStart && !content.contains lf && hexAtLineStart true rest

/-- No line of a text begins with a colon. -/
def plain (atLineStart : Bool) : Bytes → Bool
  | [] => true
  | b :: rest => !(atLineStart && b = colon) && plain (isLineEnd b) rest

/-- A valid text frame: it ends one byte after its marker, its sum is 0, it has a field, and
none of its lines looks like a HEX line. -/
structure TextFrame (frame : Bytes) : Prop where
  ends : endsAfter marker frame = true
  sums : verifyChecksum frame = true
  named : (parseFrame frame).entries.isEmpty = false
  lines : plain true frame = true

theorem bytesOf_append (first second : List Token) :
    bytesOf (first ++ second) = bytesOf first ++ bytesOf second := List.flatMap_append

theorem textOf_append (first second : List Token) :
    textOf (first ++ second) = textOf first ++ textOf second := List.flatMap_append

theorem after_append (atLineStart : Bool) (first second : Bytes) :
    after atLineStart (first ++ second) = after (after atLineStart first) second :=
  List.foldl_append

theorem plain_append (atLineStart : Bool) (first second : Bytes) :
    plain atLineStart (first ++ second) =
      (plain atLineStart first && plain (after atLineStart first) second) := by
  induction first generalizing atLineStart with
  | nil => rfl
  | cons b rest ih => rw [List.cons_append, plain, ih, plain, Bool.and_assoc]; rfl

/-- A text that has no HEX line from a line start on has none from anywhere. -/
theorem plain_of_true {text : Bytes} (h : plain true text = true) (atLineStart : Bool) :
    plain atLineStart text = true := by
  cases text with
  | nil => rfl
  | cons b rest =>
      rw [plain, Bool.and_eq_true] at h ⊢
      refine ⟨?_, h.2⟩
      cases atLineStart with
      | true => exact h.1
      | false => rfl

theorem plain_flatten {frames : List Bytes} (h : ∀ frame ∈ frames, TextFrame frame) :
    plain true frames.flatten = true := by
  induction frames with
  | nil => rfl
  | cons frame frames ih =>
      have hRest := ih fun other hOther => h other (List.mem_cons_of_mem _ hOther)
      rw [List.flatten_cons, plain_append, (h frame List.mem_cons_self).lines,
        plain_of_true hRest, Bool.and_true]

theorem plain_start {first text : Bytes} (hPrefix : first <+: text)
    (h : plain true text = true) : plain true first = true := by
  obtain ⟨second, rfl⟩ := hPrefix
  rw [plain_append, Bool.and_eq_true] at h
  exact h.1

theorem hexAtLineStart_append {atLineStart : Bool} {first second : List Token} :
    hexAtLineStart atLineStart (first ++ second) = true ↔
      hexAtLineStart atLineStart first = true ∧
        hexAtLineStart (after atLineStart (textOf first)) second = true := by
  induction first generalizing atLineStart with
  | nil => simp [hexAtLineStart, textOf, after]
  | cons token rest ih =>
      cases token with
      | byte b => exact ih
      | hexLine content =>
          cases atLineStart with
          | false => simp [hexAtLineStart]
          | true =>
              simp only [List.cons_append, hexAtLineStart, Bool.and_eq_true, ih, and_assoc]
              exact Iff.rfl

/-- HEX lines that are at line starts are so from a line start on. -/
theorem hexAtLineStart_true {atLineStart : Bool} {tokens : List Token}
    (h : hexAtLineStart atLineStart tokens = true) : hexAtLineStart true tokens = true := by
  cases tokens with
  | nil => rfl
  | cons token rest =>
      cases token with
      | byte b => exact h
      | hexLine content =>
          simp only [hexAtLineStart, Bool.and_eq_true] at h ⊢
          exact ⟨⟨True.intro, h.1.2⟩, h.2⟩

/-- Whole HEX lines are stripped, and nothing else. -/
theorem stripFrom_bytesOf {atLineStart : Bool} {tokens : List Token}
    (hHex : hexAtLineStart atLineStart tokens = true)
    (hPlain : plain atLineStart (textOf tokens) = true) :
    stripFrom atLineStart (bytesOf tokens) = textOf tokens := by
  induction tokens generalizing atLineStart with
  | nil => rw [bytesOf, List.flatMap_nil, stripFrom]; rfl
  | cons token rest ih =>
      cases token with
      | byte b =>
          simp only [textOf, Token.text, List.flatMap_cons, List.singleton_append, plain,
            Bool.and_eq_true, Bool.not_eq_true'] at hPlain
          have hRest := ih hHex hPlain.2
          simp only [bytesOf, textOf, Token.bytes, Token.text, List.flatMap_cons,
            List.singleton_append] at hRest ⊢
          rw [stripFrom, hPlain.1, if_neg Bool.false_ne_true, hRest]
      | hexLine content =>
          simp only [hexAtLineStart, Bool.and_eq_true, Bool.not_eq_true'] at hHex
          obtain ⟨⟨rfl, hContent⟩, hRestHex⟩ := hHex
          have hLine : (colon :: (content ++ lf :: bytesOf rest)).dropWhile (· != lf) =
              lf :: bytesOf rest := by
            rw [← List.cons_append, List.dropWhile_append_of_pos]
            · rw [List.dropWhile_cons_of_neg (by simp)]
            · intro b hb
              rcases List.mem_cons.mp hb with rfl | hb
              · rfl
              · have hNe : b ≠ lf := fun hEq => by simp [← hEq, hb] at hContent
                simpa using hNe
          have hBytes : bytesOf (.hexLine content :: rest) =
              colon :: (content ++ lf :: bytesOf rest) := by
            simp [bytesOf, Token.bytes]
          rw [hBytes, stripFrom, if_pos (by simp), hLine, List.tail_cons]
          exact ih hRestHex hPlain

/-- A text alone, as a stream. -/
theorem stream_of_text (text : Bytes) (atLineStart : Bool) :
    bytesOf (text.map .byte) = text ∧ textOf (text.map .byte) = text ∧
      hexAtLineStart atLineStart (text.map .byte) = true := by
  induction text generalizing atLineStart with
  | nil => exact ⟨rfl, rfl, rfl⟩
  | cons b rest ih =>
      obtain ⟨hBytes, hText, hHex⟩ := ih (isLineEnd b)
      exact ⟨congrArg (b :: ·) hBytes, congrArg (b :: ·) hText, hHex⟩

theorem bytesOf_eq_nil {tokens : List Token} (h : bytesOf tokens = []) : tokens = [] := by
  cases tokens with
  | nil => rfl
  | cons token rest => cases token <;> simp [bytesOf, Token.bytes] at h

/-! ### Runs -/

/-- The reader strips the HEX lines that a read brings from behind the text that waits. -/
theorem strip_read {todo : List Bytes} (hTodo : ∀ frame ∈ todo, TextFrame frame)
    {before start : Bytes} {part : List Token} (hText : start ++ textOf part <+: todo.flatten)
    (hHex : hexAtLineStart (after true (before ++ start)) part = true) :
    stripHexLines (start ++ bytesOf part) = start ++ textOf part := by
  obtain ⟨hBytes, hStart, hNone⟩ := stream_of_text start true
  have hPart : hexAtLineStart (after true start) part = true := by
    rw [after_append] at hHex
    cases start with
    | nil => exact hexAtLineStart_true hHex
    | cons b rest => exact hHex
  have hAll : hexAtLineStart true (start.map .byte ++ part) = true :=
    hexAtLineStart_append.mpr ⟨hNone, by rwa [hStart]⟩
  have hPlain : plain true (textOf (start.map .byte ++ part)) = true := by
    rw [textOf_append, hStart]
    exact plain_start hText (plain_flatten hTodo)
  have hStrip := stripFrom_bytesOf hAll hPlain
  rwa [bytesOf_append, textOf_append, hBytes, hStart] at hStrip

/-- One read, where nothing but the HEX lines is stripped. -/
theorem onRead_tokens {s : State} {read : ℚ × List Token} (hWaits : cut marker s.buf = ([], s.buf))
    (hStrip : stripHexLines (s.buf ++ bytesOf read.2) = s.buf ++ textOf read.2) :
    (onRead s (read.1, bytesOf read.2)).buf = (cut marker (s.buf ++ textOf read.2)).2 ∧
      (onRead s (read.1, bytesOf read.2)).accepted.map Prod.snd =
        s.accepted.map Prod.snd ++
          (cut marker (s.buf ++ textOf read.2)).1.filterMap acceptFrame := by
  by_cases hEmpty : bytesOf read.2 = []
  · have hPart := bytesOf_eq_nil hEmpty
    simp [onRead, hPart, bytesOf, textOf, hWaits]
  · rw [onRead, if_neg (by simpa using hEmpty)]
    simp [hStrip, Function.comp_def]

/-- The reader after whole HEX lines: what it has cut out of the text, and what waits. -/
theorem run_tokens {frames : List Bytes} (hFrames : ∀ frame ∈ frames, TextFrame frame)
    {reads : List (ℚ × List Token)}
    (hText : textOf (reads.flatMap Prod.snd) <+: frames.flatten)
    (hHex : hexAtLineStart true (reads.flatMap Prod.snd) = true) :
    (Runs.run onRead .empty (reads.map fun r => (r.1, bytesOf r.2))).buf =
        (cut marker (textOf (reads.flatMap Prod.snd))).2 ∧
      (Runs.run onRead .empty (reads.map fun r => (r.1, bytesOf r.2))).accepted.map Prod.snd =
        (cut marker (textOf (reads.flatMap Prod.snd))).1.filterMap acceptFrame := by
  induction reads using List.reverseRecOn with
  | nil =>
      have hCut : cut marker (textOf []) = ([], []) := cut_nil (by decide)
      simp only [List.flatMap_nil, hCut]
      exact ⟨rfl, rfl⟩
  | append_singleton reads read ih =>
      rw [List.flatMap_append, List.flatMap_singleton] at hText hHex ⊢
      rw [textOf_append] at hText ⊢
      obtain ⟨hDoneHex, hPartHex⟩ := hexAtLineStart_append.mp hHex
      have hDone := (List.prefix_append _ _).trans hText
      obtain ⟨hBuf, hAccepted⟩ := ih hDone hDoneHex
      obtain ⟨whole, todo, start, rfl, hSplit, hStart⟩ := prefix_flatten hDone
      have hWhole : ∀ frame ∈ whole, endsAfter marker frame = true :=
        fun frame hFrame => (hFrames frame (List.mem_append_left _ hFrame)).ends
      have hTodo : ∀ frame ∈ todo, TextFrame frame :=
        fun frame hFrame => hFrames frame (List.mem_append_right _ hFrame)
      have hWaits : cut marker start = ([], start) := by
        rcases hStart with rfl | ⟨frame, hFrame, hPrefix, hShort⟩
        · exact cut_nil (by decide)
        · exact cut_start (hTodo frame hFrame).ends hPrefix hShort
      rw [hSplit, cut_flatten hWhole, hWaits, List.append_nil] at hBuf hAccepted
      rw [hSplit, List.append_assoc, List.flatten_append, List.prefix_append_right_inj] at hText
      rw [hSplit] at hPartHex
      rw [List.map_append, List.map_singleton, Runs.run_concat, hSplit, List.append_assoc,
        cut_flatten hWhole]
      dsimp only at hBuf
      have hStrip := strip_read hTodo hText hPartHex
      rw [← hBuf] at hWaits hStrip
      obtain ⟨hNextBuf, hNext⟩ := onRead_tokens hWaits hStrip
      rw [hBuf] at hNextBuf hNext
      rw [hAccepted, ← List.filterMap_append] at hNext
      exact ⟨hNextBuf, hNext⟩

/-- The reads cut a stream only between its tokens: every read brings whole HEX lines. -/
def WholeHexLines (tokens : List Token) (reads : List (ℚ × Bytes)) : Prop :=
  ∃ parts : List (List Token), parts.flatten = tokens ∧ parts.map bytesOf = reads.map Prod.snd

theorem tagged_of_whole {tokens : List Token} {reads : List (ℚ × Bytes)}
    (h : WholeHexLines tokens reads) : ∃ tagged : List (ℚ × List Token),
      (tagged.map fun r => (r.1, bytesOf r.2)) = reads ∧ tagged.flatMap Prod.snd = tokens := by
  obtain ⟨parts, rfl, hParts⟩ := h
  induction parts generalizing reads with
  | nil => exact ⟨[], (List.map_eq_nil_iff.mp hParts.symm).symm, rfl⟩
  | cons part parts ih =>
      cases reads with
      | nil => cases hParts
      | cons read reads =>
          obtain ⟨hBytes, hRest⟩ := List.cons.inj hParts
          obtain ⟨tagged, rfl, hTokens⟩ := ih hRest
          refine ⟨(read.1, part) :: tagged, ?_, ?_⟩
          · rw [List.map_cons, hBytes]
          · rw [List.flatMap_cons, hTokens, List.flatten_cons]

theorem acceptFrame_of_valid {frame : Bytes} (h : TextFrame frame) :
    acceptFrame frame = some (parseFrame frame) := by
  simp [acceptFrame, h.sums, h.named]

/-- A whole stream is accepted frame by frame. -/
theorem acceptedFrames_eq {frames : List Bytes} (hFrames : ∀ frame ∈ frames, TextFrame frame)
    (reads : List (ℚ × List Token)) (hText : textOf (reads.flatMap Prod.snd) = frames.flatten)
    (hHex : hexAtLineStart true (reads.flatMap Prod.snd) = true) :
    acceptedFrames (reads.map fun r => (r.1, bytesOf r.2)) = frames.map parseFrame := by
  have hAccepted := (run_tokens hFrames (hText ▸ List.prefix_rfl) hHex).2
  have hCut := cut_flatten (fun frame hFrame => (hFrames frame hFrame).ends) []
  rw [List.append_nil, cut_nil (by decide), List.append_nil] at hCut
  rw [acceptedFrames, hAccepted, hText, hCut, ← List.filterMap_eq_map]
  exact List.filterMap_congr fun frame hFrame => acceptFrame_of_valid (hFrames frame hFrame)

/-- A stream of text frames with HEX lines at line starts between them and in them is accepted
frame by frame, however it is cut between its tokens, and in one read too. -/
theorem ve_direct_chunks (frames : List Bytes) (tokens : List Token) (reads : List (ℚ × Bytes))
    (now : ℚ) (hFrames : ∀ frame ∈ frames, TextFrame frame) (hText : textOf tokens = frames.flatten)
    (hHex : hexAtLineStart true tokens = true) (hReads : WholeHexLines tokens reads) :
    acceptedFrames reads = acceptedFrames [(now, bytesOf tokens)] ∧
      acceptedFrames reads = frames.map parseFrame := by
  obtain ⟨tagged, rfl, rfl⟩ := tagged_of_whole hReads
  have hCut := acceptedFrames_eq hFrames tagged hText hHex
  have hOnce := acceptedFrames_eq hFrames [(now, tagged.flatMap Prod.snd)]
    (by rwa [List.flatMap_singleton]) (by rwa [List.flatMap_singleton])
  exact ⟨hCut.trans hOnce.symm, hCut⟩

/-- A frame of a charger: its product id and its voltage. -/
def chargerFrame : Bytes :=
  "\r\nPID\t0xA053\r\nV\t12800\r\nChecksum\t".toList.map (fun c => UInt8.ofNat c.toNat) ++ [190]

theorem chargerFrame_valid : TextFrame chargerFrame where
  ends := by decide +kernel
  sums := by decide +kernel
  named := by decide +kernel
  lines := by decide +kernel

/-- The stream of the frame with a HEX line before its second field. -/
def chargerStream : List Token :=
  (chargerFrame.take 14).map .byte ++ [.hexLine [0x37, 0x46]] ++ (chargerFrame.drop 14).map .byte

/-- The HEX line comes with the first of two reads. -/
theorem ve_direct_chunks_charger :
    acceptedFrames [(0, (bytesOf chargerStream).take 18), (1, (bytesOf chargerStream).drop 18)] =
        acceptedFrames [(0, bytesOf chargerStream)] ∧
      acceptedFrames [(0, (bytesOf chargerStream).take 18), (1, (bytesOf chargerStream).drop 18)] =
        [chargerFrame].map parseFrame :=
  ve_direct_chunks [chargerFrame] chargerStream _ 0
    (fun frame hFrame => List.mem_singleton.mp hFrame ▸ chargerFrame_valid) (by decide +kernel)
    (by decide +kernel)
    ⟨[chargerStream.take 15, chargerStream.drop 15], by decide +kernel, by decide +kernel⟩

/-- A read that ends inside the HEX line costs the frame. -/
theorem hexLine_cut :
    textOf chargerStream = chargerFrame ∧ hexAtLineStart true chargerStream = true ∧
      acceptedFrames [(0, bytesOf chargerStream)] = [parseFrame chargerFrame] ∧
      acceptedFrames [(0, (bytesOf chargerStream).take 16),
        (1, (bytesOf chargerStream).drop 16)] = [] := by
  decide +kernel

end WattPost.VeDirect
