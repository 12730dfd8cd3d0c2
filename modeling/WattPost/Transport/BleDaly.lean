import Mathlib.Algebra.BigOperators.Group.List.Basic
import WattPost.Lib.StampedCache
import WattPost.Vendors.Base

/-! The Daly stream, and the cell voltages that are gathered from it. The poll task empties
the list before it asks, the notifications fill it, and a read takes whatever is in it. -/
namespace WattPost.BleDaly

open StampedCache
open Vendors (Bytes byte)

def frameHeader : UInt8 := 0xa5

def frameLen : Nat := 13

/-- The command that asks for the cell voltages. -/
def cellCommand : UInt8 := 0x95

def staleAfterSeconds : ℚ := 60

/-! ### Frames -/

/-- `_checksum`. -/
def checksum (data : Bytes) : UInt8 := UInt8.ofNat ((data.map UInt8.toNat).sum % 256)

/-- `parse_frame`: the command and the data. -/
def parseFrame (buf : Bytes) : Option (UInt8 × Bytes) :=
  if buf.length ≠ frameLen then none
  else if buf.getD 0 0 ≠ frameHeader then none
  else if buf.getD 3 0 ≠ 0x08 then none
  else if checksum buf.dropLast ≠ buf.getD 12 0 then none
  else some (buf.getD 2 0, (buf.drop 4).take 8)

/-- The loop of `_on_notify`: the frames, and what is left in the buffer. -/
def frames (buf : Bytes) : List (UInt8 × Bytes) × Bytes :=
  if buf.length < frameLen then ([], buf)
  else if buf.head? ≠ some frameHeader then frames (buf.drop 1)
  else
    match parseFrame (buf.take frameLen) with
    | none => frames (buf.drop 1)
    | some entry =>
        let rest := frames (buf.drop frameLen)
        (entry :: rest.1, rest.2)
termination_by buf.length
decreasing_by
  all_goals
    simp only [List.length_drop, frameLen] at *
    omega

/-- `_on_notify` on the buffer. -/
def scan (buf data : Bytes) : List (UInt8 × Bytes) × Bytes := frames (buf ++ data)

/-- The cells of a frame, without those that read zero. -/
def cellsOf (payload : Bytes) : List Nat :=
  ((List.range 3).map fun j => byte payload (1 + j * 2) * 256 + byte payload (1 + j * 2 + 1)).filter
    (· ≠ 0)

/-- The cells of a frame, if it has any. -/
def cellsOfEntry (entry : UInt8 × Bytes) : List Nat :=
  if entry.1 = cellCommand then cellsOf entry.2 else []

/-- The transport: its buffer, the latest frames by command with their one time, and the
cell voltages. -/
structure BleDalyTransport where
  link : Link UInt8 UInt8 Bytes
  cells : List Nat

/-- `_on_notify`. -/
def onNotify (s : BleDalyTransport) (notification : ℚ × Bytes) : BleDalyTransport where
  link := s.link.notify scan notification
  cells := s.cells ++ (scan s.link.buf notification.2).1.flatMap cellsOfEntry

/-- `get_latest_frame`. -/
def getLatestFrame (now : ℚ) (s : BleDalyTransport) (command : UInt8) : Option Bytes :=
  s.link.cache.get staleAfterSeconds now command

/-- `get_cell_voltages_mv`. -/
def getCellVoltagesMv (now : ℚ) (s : BleDalyTransport) : List Nat :=
  if now - s.link.cache.latestAt > staleAfterSeconds then [] else s.cells

/-- What `_poll_loop` does to the transport before it asks for the cells. -/
def resetCells (s : BleDalyTransport) : BleDalyTransport := { s with cells := [] }

/-! ### The battery -/

/-- A frame as the battery sends it. -/
def replyFrame (command : UInt8) (payload : Vector UInt8 8) : Bytes :=
  let body := [frameHeader, 0x01, command, 0x08] ++ payload.toList
  body ++ [checksum body]

/-- A frame of a burst: the number of the request, the number of the frame, and up to three
cells. -/
structure CellFrame where
  burst : Nat
  index : Nat
  cells : List UInt16

/-- The groups of three cells. -/
def groups : List UInt16 → List (List UInt16)
  | [] => []
  | [a] => [[a]]
  | [a, b] => [[a, b]]
  | a :: b :: c :: rest => [a, b, c] :: groups rest

/-- The frames that answer one request. -/
def burstFrames (burst : Nat) (voltages : List UInt16) : List CellFrame :=
  (groups voltages).zipIdx.map fun group => ⟨burst, group.2, group.1⟩

def highByte (mv : UInt16) : UInt8 := UInt8.ofNat (mv.toNat / 256)

def lowByte (mv : UInt16) : UInt8 := UInt8.ofNat (mv.toNat % 256)

/-- The payload of a frame, padded with zeros. -/
def CellFrame.payload (f : CellFrame) : Vector UInt8 8 :=
  let mv (j : Nat) : UInt16 := f.cells.getD j 0
  #v[UInt8.ofNat (f.index + 1), highByte (mv 0), lowByte (mv 0), highByte (mv 1), lowByte (mv 1),
    highByte (mv 2), lowByte (mv 2), 0]

/-- The bytes of some frames. -/
def bytesOf (sent : List CellFrame) : Bytes :=
  (sent.map fun f => replyFrame cellCommand f.payload).flatten

/-! ### Decoding -/

theorem length_replyFrame (command : UInt8) (payload : Vector UInt8 8) :
    (replyFrame command payload).length = frameLen := by
  simp [replyFrame, frameLen]

/-- What the battery sends is valid. -/
theorem parse_replyFrame (command : UInt8) (payload : Vector UInt8 8) :
    parseFrame (replyFrame command payload) = some (command, payload.toList) := by
  have hSize : payload.toList.length = 8 := payload.length_toList
  have hLast : (replyFrame command payload).getD 12 0 =
      checksum ([frameHeader, 0x01, command, 0x08] ++ payload.toList) := by
    rw [replyFrame, List.getD_eq_getElem?_getD, List.getElem?_append_right (by simp)]
    simp
  have hBody : (replyFrame command payload).dropLast =
      [frameHeader, 0x01, command, 0x08] ++ payload.toList := List.dropLast_concat
  have hData : ((replyFrame command payload).drop 4).take 8 = payload.toList := by
    show (payload.toList ++ [_]).take 8 = payload.toList
    exact List.take_left' hSize
  unfold parseFrame
  rw [if_neg (not_not_intro (length_replyFrame command payload)), if_neg (by simp [replyFrame]),
    if_neg (by simp [replyFrame]), hLast, hBody, if_neg (not_not_intro rfl), hData]
  rfl

/-- A frame at the start of the buffer is decoded first. -/
theorem frames_replyFrame (command : UInt8) (payload : Vector UInt8 8) (more : Bytes) :
    frames (replyFrame command payload ++ more) =
      ((command, payload.toList) :: (frames more).1, (frames more).2) := by
  have hLength := length_replyFrame command payload
  rw [frames, if_neg, if_neg, List.take_left' hLength, parse_replyFrame, List.drop_left' hLength]
  · simp [replyFrame]
  · rw [List.length_append, hLength]
    omega

theorem frames_nil : frames [] = ([], []) := by
  rw [frames]
  rfl

/-- Some frames in one notification are all decoded, and nothing is left. -/
theorem frames_bytesOf (sent : List CellFrame) :
    frames (bytesOf sent) = (sent.map fun f => (cellCommand, f.payload.toList), []) := by
  induction sent with
  | nil => exact frames_nil
  | cons f rest ih =>
      have hBytes : bytesOf (f :: rest) = replyFrame cellCommand f.payload ++ bytesOf rest := by
        rw [bytesOf, List.map_cons, List.flatten_cons]
        rfl
      rw [hBytes, frames_replyFrame, ih]
      rfl

theorem word_eq (mv : UInt16) : (highByte mv).toNat * 256 + (lowByte mv).toNat = mv.toNat := by
  have hSmall : mv.toNat < 65536 := mv.toNat_lt
  have hHigh : (highByte mv).toNat = mv.toNat / 256 := UInt8.toNat_ofNat_of_lt' (by
    change mv.toNat / 256 < 256
    omega)
  have hLow : (lowByte mv).toNat = mv.toNat % 256 := UInt8.toNat_ofNat_of_lt' (by
    change mv.toNat % 256 < 256
    omega)
  rw [hHigh, hLow]
  omega

/-- The cells of some voltages that do not read zero. -/
def nonzero (cells : List UInt16) : List Nat := (cells.map UInt16.toNat).filter (· ≠ 0)

/-- The three words of a payload. -/
theorem cellsOf_payload {f : CellFrame} (h : f.cells.length ≤ 3) :
    cellsOf f.payload.toList = nonzero f.cells := by
  have hWords : cellsOf f.payload.toList =
      [(f.cells.getD 0 0).toNat, (f.cells.getD 1 0).toNat, (f.cells.getD 2 0).toNat].filter
        (· ≠ 0) := by
    rw [← word_eq (f.cells.getD 0 0), ← word_eq (f.cells.getD 1 0), ← word_eq (f.cells.getD 2 0)]
    rfl
  rw [hWords, nonzero]
  match hCells : f.cells, h with
  | [], _ => simp
  | [a], _ => simp [List.filter_cons]
  | [a, b], _ => simp [List.filter_cons]
  | [a, b, c], _ => simp

theorem length_groups {voltages : List UInt16} :
    ∀ group ∈ groups voltages, group.length ≤ 3 := by
  fun_induction groups voltages with
  | case1 => simp
  | case2 a => simp
  | case3 a b => simp
  | case4 a b c rest ih => exact List.forall_mem_cons.mpr ⟨le_rfl, ih⟩

theorem flatten_groups (voltages : List UInt16) : (groups voltages).flatten = voltages := by
  fun_induction groups voltages with
  | case1 => rfl
  | case2 a => rfl
  | case3 a b => rfl
  | case4 a b c rest ih => rw [List.flatten_cons, ih]; rfl

/-- The frames of a burst hold its cells. -/
theorem cells_burstFrames (burst : Nat) (voltages : List UInt16) :
    (burstFrames burst voltages).flatMap CellFrame.cells = voltages := by
  have hCells : (burstFrames burst voltages).map CellFrame.cells = groups voltages := by
    rw [burstFrames, List.map_map]
    exact List.zipIdx_map_fst 0 (groups voltages)
  rw [List.flatMap_def, hCells, flatten_groups]

/-! ### The system -/

/-- What happens: the poll task asks, and the battery answers with a burst or does not; the
next frames of a burst arrive in one notification, or are lost; a reply to another command
arrives; the driver reads. -/
inductive Event where
  | request (answer : Option (List UInt16))
  | deliver (now : ℚ) (count : Nat)
  | lose (count : Nat)
  | reply (now : ℚ) (command : UInt8) (payload : Vector UInt8 8) (other : command ≠ cellCommand)
  | read (now : ℚ)

/-- The transport, the voltages of the bursts so far, the frames on their way, and those that
have arrived since the list was last emptied. -/
structure World where
  transport : BleDalyTransport
  bursts : List (List UInt16)
  inFlight : List CellFrame
  arrived : List CellFrame

def World.start : World := ⟨⟨.empty, []⟩, [], [], []⟩

def step (w : World) : Event → World
  | .request none => { w with transport := resetCells w.transport, arrived := [] }
  | .request (some voltages) =>
      { transport := resetCells w.transport
        bursts := w.bursts ++ [voltages]
        inFlight := w.inFlight ++ burstFrames w.bursts.length voltages
        arrived := [] }
  | .deliver now count =>
      { w with
        transport := onNotify w.transport (now, bytesOf (w.inFlight.take count))
        inFlight := w.inFlight.drop count
        arrived := w.arrived ++ w.inFlight.take count }
  | .lose count => { w with inFlight := w.inFlight.drop count }
  | .reply now command payload _ =>
      { w with transport := onNotify w.transport (now, replyFrame command payload) }
  | .read _ => w

/-- The state after some events. -/
abbrev after (events : List Event) : World := Runs.run step .start events

/-- Nothing waits in the buffer, and the list holds the cells of the frames that arrived
since it was emptied, without zeros. -/
structure Gathered (w : World) : Prop where
  buf : w.transport.link.buf = []
  groups : ∀ f ∈ w.arrived ++ w.inFlight, f.cells.length ≤ 3
  cells : w.transport.cells = w.arrived.flatMap fun f => nonzero f.cells

theorem flatMap_cellsOfEntry {sent : List CellFrame} (h : ∀ f ∈ sent, f.cells.length ≤ 3) :
    (sent.map fun f => (cellCommand, f.payload.toList)).flatMap cellsOfEntry =
      sent.flatMap fun f => nonzero f.cells := by
  induction sent with
  | nil => rfl
  | cons f rest ih =>
      rw [List.map_cons, List.flatMap_cons, List.flatMap_cons, cellsOfEntry, if_pos rfl,
        cellsOf_payload (h f List.mem_cons_self), ih fun g hg => h g (List.mem_cons_of_mem f hg)]

theorem length_burstFrames {burst : Nat} {voltages : List UInt16} :
    ∀ f ∈ burstFrames burst voltages, f.cells.length ≤ 3 := by
  intro f hf
  obtain ⟨group, hGroup, rfl⟩ := List.mem_map.mp hf
  exact length_groups group.1 (List.fst_mem_of_mem_zipIdx hGroup)

/-- Every event keeps the list the cells of what has arrived. -/
theorem Gathered.step {w : World} (h : Gathered w) (event : Event) : Gathered (step w event) := by
  cases event with
  | request answer =>
      cases answer with
      | none => exact ⟨h.buf, fun f hf => h.groups f (List.mem_append_right _ hf), rfl⟩
      | some voltages =>
          refine ⟨h.buf, fun f hf => ?_, rfl⟩
          change f ∈ [] ++ (w.inFlight ++ burstFrames w.bursts.length voltages) at hf
          rcases List.mem_append.mp (List.nil_append _ ▸ hf) with hOld | hNew
          · exact h.groups f (List.mem_append_right _ hOld)
          · exact length_burstFrames f hNew
  | deliver now count =>
      have hTaken : ∀ f ∈ w.inFlight.take count, f.cells.length ≤ 3 := fun f hf =>
        h.groups f (List.mem_append_right _ (List.mem_of_mem_take hf))
      have hScan : scan w.transport.link.buf (bytesOf (w.inFlight.take count)) =
          ((w.inFlight.take count).map fun f => (cellCommand, f.payload.toList), []) := by
        rw [scan, h.buf, List.nil_append, frames_bytesOf]
      refine ⟨congrArg Prod.snd hScan, fun f hf => h.groups f ?_, ?_⟩
      · rwa [BleDaly.step, List.append_assoc, List.take_append_drop] at hf
      · show w.transport.cells ++ (scan w.transport.link.buf _).1.flatMap cellsOfEntry = _
        rw [hScan, flatMap_cellsOfEntry hTaken, h.cells, ← List.flatMap_append]
        rfl
  | lose count =>
      refine ⟨h.buf, fun f hf => h.groups f ?_, h.cells⟩
      rcases List.mem_append.mp hf with hOld | hNew
      · exact List.mem_append_left _ hOld
      · exact List.mem_append_right _ (List.mem_of_mem_drop hNew)
  | reply now command payload other =>
      have hScan : scan w.transport.link.buf (replyFrame command payload) =
          ([(command, payload.toList)], []) := by
        have hFrames := frames_replyFrame command payload []
        rw [List.append_nil, frames_nil] at hFrames
        rw [scan, h.buf, List.nil_append, hFrames]
      refine ⟨congrArg Prod.snd hScan, h.groups, ?_⟩
      show w.transport.cells ++ (scan w.transport.link.buf _).1.flatMap cellsOfEntry = _
      rw [hScan, List.flatMap_singleton, cellsOfEntry, if_neg other, List.append_nil, h.cells]
      rfl
  | read now => exact h

theorem gathered_after (events : List Event) : Gathered (after events) := by
  have hStart : Gathered World.start := ⟨rfl, fun f hf => absurd hf List.not_mem_nil, rfl⟩
  exact Runs.run_preserves (fun w event h => h.step event) hStart events

/-! ### Reads -/

/-- The condition on a read: the link is stale, or what has arrived since the list was emptied
is nothing, or the frames of one burst, in which no cell reads zero. -/
def ReadsWhole (now : ℚ) (w : World) : Prop :=
  staleAfterSeconds < now - w.transport.link.cache.latestAt ∨ w.arrived = [] ∨
    ∃ burst voltages, w.bursts[burst]? = some voltages ∧
      w.arrived = burstFrames burst voltages ∧ 0 ∉ voltages

/-- The condition on a run. -/
def ok (_ : List Event) (w : World) : Event → Prop
  | .read now => ReadsWhole now w
  | _ => True

theorem nonzero_eq {cells : List UInt16} (h : 0 ∉ cells) :
    nonzero cells = cells.map UInt16.toNat := by
  rw [nonzero, List.filter_eq_self]
  intro mv hMv
  obtain ⟨c, hc, rfl⟩ := List.mem_map.mp hMv
  rw [decide_eq_true_eq]
  intro hZero
  have hCell : c = 0 := UInt16.toNat_inj.mp hZero
  exact h (hCell ▸ hc)

theorem nonzero_flatMap (sent : List CellFrame) :
    (sent.flatMap fun f => nonzero f.cells) = nonzero (sent.flatMap CellFrame.cells) := by
  induction sent with
  | nil => rfl
  | cons f rest ih =>
      rw [List.flatMap_cons, List.flatMap_cons, ih, nonzero, nonzero, nonzero, List.map_append,
        List.filter_append]

/-- In a run whose reads all meet the condition, every read gives nothing or the cells of one
burst, all of them and in order. -/
theorem daly_cells (events : List Event) (hOk : Runs.StepsOk step ok .start events)
    (before later : List Event) (now : ℚ) (hRead : events = before ++ .read now :: later) :
    getCellVoltagesMv now (after before).transport = [] ∨
      ∃ voltages ∈ (after before).bursts,
        getCellVoltagesMv now (after before).transport = voltages.map UInt16.toNat := by
  have hGathered := gathered_after before
  have hWhole : ReadsWhole now (after before) := hOk before (.read now) later hRead
  unfold getCellVoltagesMv
  split_ifs with hStale
  · exact Or.inl rfl
  rw [hGathered.cells]
  rcases hWhole with hOld | hNone | ⟨burst, voltages, hBurst, hArrived, hNonzero⟩
  · exact absurd hOld hStale
  · rw [hNone]
    exact Or.inl rfl
  · right
    refine ⟨voltages, List.mem_of_getElem? hBurst, ?_⟩
    rw [nonzero_flatMap, hArrived, cells_burstFrames, nonzero_eq hNonzero]

/-- A pack of four cells. -/
def fourCells : List UInt16 := [3300, 3301, 3302, 3303]

/-- A poll round whose burst has arrived when the driver reads. -/
def completeRound : List Event := [.request (some fourCells), .deliver 1 2, .read 2]

theorem daly_cells_round :
    getCellVoltagesMv 2 (after [.request (some fourCells), .deliver 1 2]).transport = [] ∨
      ∃ voltages ∈ (after [.request (some fourCells), .deliver 1 2]).bursts,
        getCellVoltagesMv 2 (after [.request (some fourCells), .deliver 1 2]).transport =
          voltages.map UInt16.toNat := by
  have hOk : Runs.StepsOk step ok .start completeRound := by
    simp only [completeRound, Runs.stepsOk_cons, Runs.stepsOk_nil, ok, and_true, true_and]
    exact Or.inr (Or.inr ⟨0, fourCells, rfl, rfl, by decide⟩)
  exact daly_cells completeRound hOk [.request (some fourCells), .deliver 1 2] [] 2 rfl

/-- A read between the two frames of the burst gives three of the four cells. -/
theorem daly_partial :
    getCellVoltagesMv 2 (after [.request (some fourCells), .deliver 1 1]).transport =
        [3300, 3301, 3302] ∧
      (after [.request (some fourCells), .deliver 1 1]).bursts = [fourCells] ∧
      fourCells.map UInt16.toNat = [3300, 3301, 3302, 3303] := by
  decide +kernel

end WattPost.BleDaly
