import Mathlib.Data.List.TakeWhile

/-! Reading from a stream that comes in chunks until there is enough of it. What the reader
takes out of its buffer depends on the stream and not on how it is cut into chunks. -/
namespace LineStream

variable {α β : Type}

/-- What a peer sends. Afterwards it closes, or the wait for more is given up. -/
structure Incoming (α : Type) where
  chunks : List (List α)
  closes : Bool

/-- Chunks are added to the buffer until it is full or the stream ends; an empty chunk is its
end. There is no buffer where the wait was given up. -/
def gather (full : List α → Bool) (closes : Bool) : List (List α) → List α → Option (List α)
  | [], buf => if full buf || closes then some buf else none
  | chunk :: chunks, buf =>
      if full buf then some buf
      else if chunk = [] then some buf
      else gather full closes chunks (buf ++ chunk)

def receive (full : List α → Bool) (incoming : Incoming α) : Option (List α) :=
  gather full incoming.closes incoming.chunks []

/-- Nothing that comes after a full buffer matters to what is taken out of it. -/
structure Enough (full : List α → Bool) (part : List α → β) : Prop where
  stays : ∀ buf more, full buf = true → full (buf ++ more) = true
  part : ∀ buf more, full buf = true → part (buf ++ more) = part buf

section Reading

variable {full : List α → Bool} {part : List α → β}

theorem Enough.gather (h : Enough full part) {closes : Bool} {chunks : List (List α)}
    {buf : List α} (hChunks : [] ∉ chunks)
    (hEnd : full (buf ++ chunks.flatten) = true ∨ closes = true) :
    ∃ got, LineStream.gather full closes chunks buf = some got ∧
      part got = part (buf ++ chunks.flatten) := by
  induction chunks generalizing buf with
  | nil =>
      rw [List.flatten_nil, List.append_nil] at hEnd ⊢
      have hStop : (full buf || closes) = true := Bool.or_eq_true_iff.mpr hEnd
      exact ⟨buf, if_pos hStop, rfl⟩
  | cons chunk chunks ih =>
      rw [LineStream.gather]
      by_cases hFull : full buf = true
      · exact ⟨buf, if_pos hFull, (h.part buf _ hFull).symm⟩
      · have hSome : chunk ≠ [] := fun hNil => hChunks (hNil ▸ List.mem_cons_self)
        rw [if_neg hFull, if_neg hSome, List.flatten_cons, ← List.append_assoc]
        rw [List.flatten_cons, ← List.append_assoc] at hEnd
        exact ih (fun hMem => hChunks (List.mem_cons_of_mem _ hMem)) hEnd

/-- What the reader takes is what it would take of the whole stream at once. -/
theorem Enough.receive (h : Enough full part) {incoming : Incoming α}
    (hChunks : [] ∉ incoming.chunks)
    (hEnd : full incoming.chunks.flatten = true ∨ incoming.closes = true) :
    ∃ got, LineStream.receive full incoming = some got ∧
      part got = part incoming.chunks.flatten :=
  h.gather hChunks hEnd

end Reading

/-! ### Lines -/

section Lines

variable [DecidableEq α] (mark : α)

/-- What stands before the first mark. -/
def line (buf : List α) : List α := buf.takeWhile (· ≠ mark)

theorem line_append {buf : List α} (h : mark ∈ buf) (more : List α) :
    line mark (buf ++ more) = line mark buf := by
  induction buf with
  | nil => cases h
  | cons c buf ih =>
      by_cases hc : c = mark
      · simp [line, hc]
      · have hRest := ih ((List.mem_cons.mp h).resolve_left fun hEq => hc hEq.symm)
        rw [line, line] at hRest ⊢
        rw [List.cons_append, List.takeWhile_cons_of_pos (by simpa using hc),
          List.takeWhile_cons_of_pos (by simpa using hc), hRest]

theorem line_of_notMem {buf : List α} (h : mark ∉ buf) : line mark buf = buf :=
  List.takeWhile_eq_self_iff.mpr fun c hc => by
    simpa using fun hEq : c = mark => h (hEq ▸ hc)

theorem line_mark {text : List α} (h : mark ∉ text) : line mark (text ++ [mark]) = text := by
  rw [line, List.takeWhile_append_of_pos fun c hc => ?_]
  · simp
  · simpa using fun hEq : c = mark => h (hEq ▸ hc)

/-- A buffer with a mark in it holds a line. -/
theorem enough_line : Enough (fun buf => decide (mark ∈ buf)) (line mark) where
  stays buf more h := by
    rw [decide_eq_true_eq] at h ⊢
    exact List.mem_append_left _ h
  part buf more h := line_append mark (of_decide_eq_true h) more

/-- A buffer with a mark in it, or of the greatest length, holds the line as far as it is
read. -/
theorem enough_bounded (bound : Nat) :
    Enough (fun buf => decide (mark ∈ buf ∨ bound ≤ buf.length))
      fun buf => (line mark buf).take bound where
  stays buf more h := by
    rw [decide_eq_true_eq] at h ⊢
    rw [List.length_append]
    exact h.imp (List.mem_append_left _) fun hLong => hLong.trans (Nat.le_add_right _ _)
  part buf more h := by
    by_cases hMark : mark ∈ buf
    · rw [line_append mark hMark]
    · have hLong : bound ≤ buf.length := (of_decide_eq_true h).resolve_left hMark
      have hPart : (line mark (buf ++ more)) = buf ++ line mark more := by
        rw [line, List.takeWhile_append_of_pos fun c hc => ?_]
        · rfl
        · simpa using fun hEq : c = mark => hMark (hEq ▸ hc)
      rw [hPart, line_of_notMem mark hMark, List.take_append_of_le_length hLong]

end Lines

end LineStream
