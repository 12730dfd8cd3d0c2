import Mathlib.Data.List.Basic

/-! Byte streams with frames in them: where a pattern first stands; the frames of one length
that are found when the stream is read once from its start, one item further where none
begins; and the frames that end one item after a marker. -/
namespace FrameStream

variable {α : Type}

section Find

variable [DecidableEq α]

/-- Where the pattern first stands. -/
def find (pattern : List α) : List α → Option Nat
  | [] => if pattern = [] then some 0 else none
  | x :: xs => if pattern.isPrefixOf (x :: xs) then some 0 else (find pattern xs).map (· + 1)

theorem find_cons_of_not {pattern : List α} {x : α} {xs : List α} (h : ¬pattern <+: x :: xs) :
    find pattern (x :: xs) = (find pattern xs).map (· + 1) := by
  rw [find, if_neg]
  rwa [List.isPrefixOf_iff_prefix]

theorem find_at_start {pattern xs : List α} (h : pattern <+: xs) : find pattern xs = some 0 := by
  cases xs with
  | nil =>
      rw [List.prefix_nil.mp h]
      rfl
  | cons x xs => rw [find, if_pos (List.isPrefixOf_iff_prefix.mpr h)]

/-- The place where the pattern first stands, and the places before it. -/
theorem find_some {pattern xs : List α} {i : Nat} (h : find pattern xs = some i) :
    pattern <+: xs.drop i ∧ ∀ j < i, ¬pattern <+: xs.drop j := by
  induction xs generalizing i with
  | nil =>
      rw [find] at h
      split_ifs at h with hEmpty
      obtain rfl := Option.some.inj h
      exact ⟨hEmpty ▸ List.nil_prefix, fun j hj => absurd hj (Nat.not_lt_zero j)⟩
  | cons x xs ih =>
      by_cases hHere : pattern <+: x :: xs
      · rw [find_at_start hHere] at h
        obtain rfl := Option.some.inj h
        exact ⟨hHere, fun j hj => absurd hj (Nat.not_lt_zero j)⟩
      · rw [find_cons_of_not hHere, Option.map_eq_some_iff] at h
        obtain ⟨i, hFound, rfl⟩ := h
        obtain ⟨hThere, hBefore⟩ := ih hFound
        refine ⟨hThere, fun j hj => ?_⟩
        cases j with
        | zero => exact hHere
        | succ j => exact hBefore j (Nat.lt_of_succ_lt_succ hj)

theorem find_none {pattern xs : List α} (h : find pattern xs = none) (j : Nat) :
    ¬pattern <+: xs.drop j := by
  induction xs generalizing j with
  | nil =>
      rw [find] at h
      split_ifs at h with hNonempty
      rw [List.drop_nil, List.prefix_nil]
      exact hNonempty
  | cons x xs ih =>
      have hHere : ¬pattern <+: x :: xs := by
        intro hPrefix
        rw [find_at_start hPrefix] at h
        cases h
      rw [find_cons_of_not hHere, Option.map_eq_none_iff] at h
      cases j with
      | zero => exact hHere
      | succ j => exact ih h j

theorem find_length {pattern xs : List α} {i : Nat} (h : find pattern xs = some i) :
    i + pattern.length ≤ xs.length := by
  induction xs generalizing i with
  | nil =>
      rw [find] at h
      split_ifs at h with hEmpty
      obtain rfl := Option.some.inj h
      rw [hEmpty]
      exact Nat.le_refl _
  | cons x xs ih =>
      by_cases hHere : pattern <+: x :: xs
      · rw [find_at_start hHere] at h
        obtain rfl := Option.some.inj h
        rw [Nat.zero_add]
        exact hHere.length_le
      · rw [find_cons_of_not hHere, Option.map_eq_some_iff] at h
        obtain ⟨i, hFound, rfl⟩ := h
        have hLength := ih hFound
        rw [List.length_cons]
        omega

/-- A pattern stays where it first stands when the list grows. -/
theorem find_append {pattern xs : List α} {i : Nat} (h : find pattern xs = some i)
    (ys : List α) : find pattern (xs ++ ys) = some i := by
  induction xs generalizing i with
  | nil =>
      rw [find] at h
      split_ifs at h with hEmpty
      rw [hEmpty, find_at_start List.nil_prefix]
      exact h
  | cons x xs ih =>
      by_cases hHere : pattern <+: x :: xs
      · rw [find_at_start hHere] at h
        rw [find_at_start (hHere.trans (List.prefix_append _ ys))]
        exact h
      · rw [find_cons_of_not hHere, Option.map_eq_some_iff] at h
        obtain ⟨i, hFound, rfl⟩ := h
        have hFits : pattern.length ≤ (x :: xs).length := by
          have hLength := find_length hFound
          rw [List.length_cons]
          omega
        have hNot : ¬pattern <+: x :: (xs ++ ys) := fun hPrefix =>
          hHere (List.prefix_of_prefix_length_le hPrefix (List.prefix_append (x :: xs) ys) hFits)
        rw [List.cons_append, find_cons_of_not hNot, ih hFound]
        rfl

/-! Of one item, `find` is the place where it first occurs. -/

theorem find_item_lt {x : α} {xs : List α} {i : Nat} (h : find [x] xs = some i) :
    i < xs.length := find_length h

theorem find_item {x : α} {front : List α} (h : x ∉ front) (back : List α) :
    find [x] (front ++ x :: back) = some front.length := by
  induction front with
  | nil => exact find_at_start ⟨back, rfl⟩
  | cons y front ih =>
      rw [List.mem_cons, not_or] at h
      have hOther : ¬[x] <+: y :: (front ++ x :: back) := by
        intro hPrefix
        exact h.1 (List.cons_prefix_cons.mp hPrefix).1
      rw [List.cons_append, find_cons_of_not hOther, ih h.2]
      rfl

theorem find_item_of_notMem {x : α} {xs : List α} (h : x ∉ xs) : find [x] xs = none := by
  cases hFound : find [x] xs with
  | none => rfl
  | some i =>
      exact absurd (List.mem_of_mem_drop ((find_some hFound).1.subset List.mem_cons_self)) h

/-- What stands before the place where an item is first found. -/
theorem notMem_of_find_item {x : α} {xs : List α} {i : Nat} (h : find [x] xs = some i) :
    x ∉ xs.take i := by
  intro hMem
  obtain ⟨j, hj, hGet⟩ := List.mem_iff_getElem.mp hMem
  rw [List.length_take, Nat.lt_min] at hj
  apply (find_some h).2 j hj.1
  rw [List.drop_eq_getElem_cons hj.2, ← hGet, List.getElem_take]
  exact ⟨_, rfl⟩

end Find

/-- Of two readings of one stream the shorter start is a start of the longer. -/
theorem prefix_of_append_eq {xs ys zs ws : List α} (h : xs ++ ys = zs ++ ws)
    (hLength : xs.length ≤ zs.length) : xs <+: zs :=
  List.prefix_of_prefix_length_le ⟨ys, h⟩ (List.prefix_append zs ws) hLength

section Decode

variable (valid : List α → Bool) (n : Nat)

/-- The frames of `n + 1` items that are found from the start on. -/
def decode (xs : List α) : List (List α) :=
  match xs with
  | [] => []
  | x :: rest =>
      if valid ((x :: rest).take (n + 1)) then (x :: rest).take (n + 1) :: decode (rest.drop n)
      else decode rest
termination_by xs.length
decreasing_by
  · simp only [List.length_drop, List.length_cons]
    omega
  · simp only [List.length_cons]
    omega

variable {valid n}

theorem decode_nil : decode valid n [] = [] := by rw [decode]

theorem decode_cons_of_not {x : α} {rest : List α}
    (h : valid ((x :: rest).take (n + 1)) = false) :
    decode valid n (x :: rest) = decode valid n rest := by
  rw [decode, h, if_neg Bool.false_ne_true]

/-- Where a frame stands, it is found, and the search goes on after it. -/
theorem decode_append {frame : List α} (hLength : frame.length = n + 1)
    (hValid : valid frame = true) (xs : List α) :
    decode valid n (frame ++ xs) = frame :: decode valid n xs := by
  obtain ⟨x, rest, rfl⟩ : ∃ x rest, frame = x :: rest :=
    List.exists_cons_of_length_eq_add_one hLength
  have hRest : rest.length = n := Nat.succ.inj hLength
  have hTake : (x :: (rest ++ xs)).take (n + 1) = x :: rest := by
    rw [List.take_succ_cons, List.take_left' hRest]
  rw [List.cons_append, decode, hTake, hValid, if_pos rfl, List.drop_left' hRest]

/-- Frames that follow one another are all found. -/
theorem decode_flatten {frames : List (List α)}
    (hFrames : ∀ frame ∈ frames, frame.length = n + 1 ∧ valid frame = true) (xs : List α) :
    decode valid n (frames.flatten ++ xs) = frames ++ decode valid n xs := by
  induction frames with
  | nil => rfl
  | cons frame frames ih =>
      obtain ⟨hLength, hValid⟩ := hFrames frame List.mem_cons_self
      rw [List.flatten_cons, List.append_assoc, decode_append hLength hValid,
        ih fun other hOther => hFrames other (List.mem_cons_of_mem _ hOther), List.cons_append]

/-- What is too short for a frame has none. -/
theorem decode_of_short (hLong : ∀ frame, valid frame = true → frame.length = n + 1) {xs : List α}
    (h : xs.length < n + 1) : decode valid n xs = [] := by
  induction xs with
  | nil => exact decode_nil
  | cons x rest ih =>
      rw [decode_cons_of_not]
      · exact ih (Nat.lt_of_succ_lt h)
      · rw [Bool.eq_false_iff]
        intro hValid
        have hLength := hLong _ hValid
        rw [List.length_take] at hLength
        omega

/-- Where no frame begins at the first `i` places, they can be left out. -/
theorem decode_drop {xs : List α} {i : Nat}
    (h : ∀ j < i, valid ((xs.drop j).take (n + 1)) = false) :
    decode valid n xs = decode valid n (xs.drop i) := by
  induction i generalizing xs with
  | zero => rw [List.drop_zero]
  | succ i ih =>
      cases xs with
      | nil => rw [List.drop_nil]
      | cons x rest =>
          rw [decode_cons_of_not (h 0 (Nat.succ_pos i)), List.drop_succ_cons]
          exact ih fun j hj => h (j + 1) (Nat.succ_lt_succ hj)

end Decode

section Marked

variable [DecidableEq α] (marker : List α)

/-- The frames up to one item after each marker, and what waits for more. -/
def cut (xs : List α) : List (List α) × List α :=
  match find marker xs with
  | none => ([], xs)
  | some i =>
      if xs.length < i + marker.length + 1 then ([], xs)
      else
        let rest := cut (xs.drop (i + marker.length + 1))
        (xs.take (i + marker.length + 1) :: rest.1, rest.2)
termination_by xs.length
decreasing_by
  simp only [List.length_drop] at *
  omega

/-- A list that ends one item after its first marker. -/
def endsAfter (xs : List α) : Bool :=
  (find marker xs).map (· + marker.length + 1) = some xs.length

variable {marker}

theorem endsAfter_find {frame : List α} (h : endsAfter marker frame = true) :
    ∃ i, find marker frame = some i ∧ frame.length = i + marker.length + 1 := by
  obtain ⟨i, hFind, hLength⟩ := Option.map_eq_some_iff.mp (of_decide_eq_true h)
  exact ⟨i, hFind, hLength.symm⟩

theorem cut_append {frame : List α} (h : endsAfter marker frame = true) (xs : List α) :
    cut marker (frame ++ xs) = (frame :: (cut marker xs).1, (cut marker xs).2) := by
  obtain ⟨i, hFind, hLength⟩ := endsAfter_find h
  rw [cut, find_append hFind]
  simp only [← hLength, List.length_append, List.take_left, List.drop_left]
  exact if_neg (by omega)

/-- Frames that follow one another are all cut. -/
theorem cut_flatten {frames : List (List α)} (h : ∀ frame ∈ frames, endsAfter marker frame = true)
    (xs : List α) :
    cut marker (frames.flatten ++ xs) = (frames ++ (cut marker xs).1, (cut marker xs).2) := by
  induction frames with
  | nil => rfl
  | cons frame frames ih =>
      have hRest := ih fun other hOther => h other (List.mem_cons_of_mem _ hOther)
      rw [List.flatten_cons, List.append_assoc, cut_append (h frame List.mem_cons_self), hRest]
      rfl

/-- The start of a frame waits. -/
theorem cut_start {frame xs : List α} (h : endsAfter marker frame = true) (hStart : xs <+: frame)
    (hShort : xs ≠ frame) : cut marker xs = ([], xs) := by
  obtain ⟨i, hFind, hLength⟩ := endsAfter_find h
  obtain ⟨more, rfl⟩ := hStart
  have hMore : more ≠ [] := fun hNil => hShort (by rw [hNil, List.append_nil])
  have hLess : xs.length < i + marker.length + 1 := by
    rw [← hLength, List.length_append]
    have := List.length_pos_iff.mpr hMore
    omega
  rw [cut]
  cases hFound : find marker xs with
  | none => rfl
  | some j =>
      obtain rfl : i = j := Option.some.inj (hFind.symm.trans (find_append hFound more))
      exact if_pos hLess

theorem cut_nil (hMarker : marker ≠ []) : cut marker ([] : List α) = ([], []) := by
  rw [cut, find, if_neg hMarker]

end Marked

/-- The start of a row of lists: some whole ones, and the start of the next. -/
theorem prefix_flatten {frames : List (List α)} {xs : List α} (h : xs <+: frames.flatten) :
    ∃ whole todo part, frames = whole ++ todo ∧ xs = whole.flatten ++ part ∧
      (part = [] ∨ ∃ frame ∈ todo, part <+: frame ∧ part ≠ frame) := by
  induction frames generalizing xs with
  | nil => exact ⟨[], [], [], rfl, List.prefix_nil.mp h, Or.inl rfl⟩
  | cons frame frames ih =>
      rw [List.flatten_cons] at h
      by_cases hLength : frame.length ≤ xs.length
      · obtain ⟨more, rfl⟩ := List.prefix_of_prefix_length_le
          (List.prefix_append frame frames.flatten) h hLength
        obtain ⟨whole, todo, part, rfl, rfl, hPart⟩ := ih ((List.prefix_append_right_inj _).mp h)
        exact ⟨frame :: whole, todo, part, rfl, by simp, hPart⟩
      · have hStart := List.prefix_of_prefix_length_le h
          (List.prefix_append frame frames.flatten) (by omega)
        refine ⟨[], frame :: frames, xs, rfl, rfl, Or.inr ⟨frame, List.mem_cons_self, hStart, ?_⟩⟩
        rintro rfl
        exact hLength (Nat.le_refl _)

end FrameStream
