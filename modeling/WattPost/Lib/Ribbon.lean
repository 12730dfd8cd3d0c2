import Mathlib.Algebra.BigOperators.Group.List.Basic
import Mathlib.Algebra.Order.Group.Int
import Mathlib.Algebra.Ring.Int.Defs
import Mathlib.Data.List.Chain

/-! A log of states in the order of time, and the segments in which the state stays the
same. The last segment is open and is closed at a given end. -/
namespace Ribbon

variable {σ : Type}

structure Segment (σ : Type) where
  startTs : ℤ
  endTs : ℤ
  state : σ
deriving DecidableEq, Repr

def Segment.length (s : Segment σ) : ℤ := s.endTs - s.startTs

/-- Whether an instant is in the segment, whose end is not. -/
def Segment.Covers (s : Segment σ) (t : ℤ) : Prop := s.startTs ≤ t ∧ t < s.endTs

/-- Segments that follow one another from `a` to `b`. -/
def Tiles : ℤ → ℤ → List (Segment σ) → Prop
  | a, b, [] => a = b
  | a, b, s :: rest => s.startTs = a ∧ a ≤ s.endTs ∧ Tiles s.endTs b rest

/-- The state of the latest row at or before an instant. -/
def latest (rows : List (ℤ × σ)) (t : ℤ) : Option σ :=
  ((rows.filter fun r => r.1 ≤ t).getLast?).map Prod.snd

section Tiles

variable {a b : ℤ} {segments : List (Segment σ)}

theorem Tiles.le (h : Tiles a b segments) : a ≤ b := by
  induction segments generalizing a with
  | nil => exact le_of_eq h
  | cons s rest ih => exact h.2.1.trans (ih h.2.2)

theorem Tiles.start_ge (h : Tiles a b segments) : ∀ s ∈ segments, a ≤ s.startTs := by
  induction segments generalizing a with
  | nil => exact fun s hs => absurd hs List.not_mem_nil
  | cons s rest ih =>
      obtain ⟨rfl, hLe, hRest⟩ := h
      refine List.forall_mem_cons.mpr ⟨le_rfl, fun s' hs' => hLe.trans (ih hRest s' hs')⟩

/-- Every instant is in a segment. -/
theorem Tiles.covered (h : Tiles a b segments) {t : ℤ} (ha : a ≤ t) (hb : t < b) :
    ∃ s ∈ segments, s.Covers t := by
  induction segments generalizing a with
  | nil =>
      have hEq : a = b := h
      omega
  | cons s rest ih =>
      obtain ⟨rfl, -, hRest⟩ := h
      by_cases hHere : t < s.endTs
      · exact ⟨s, List.mem_cons_self .., ha, hHere⟩
      · obtain ⟨s', hs', hCovers⟩ := ih hRest (by omega)
        exact ⟨s', List.mem_cons_of_mem _ hs', hCovers⟩

/-- The lengths add up to the whole. -/
theorem Tiles.sum_length (h : Tiles a b segments) : (segments.map Segment.length).sum = b - a := by
  induction segments generalizing a with
  | nil =>
      have hEq : a = b := h
      simp [hEq]
  | cons s rest ih =>
      obtain ⟨rfl, -, hRest⟩ := h
      rw [List.map_cons, List.sum_cons, ih hRest, Segment.length]
      omega

end Tiles

section Latest

variable {rows : List (ℤ × σ)}

theorem latest_cons {r : ℤ × σ} {t : ℤ} (h : r.1 ≤ t) :
    latest (r :: rows) t = some ((latest rows t).getD r.2) := by
  have hKept : (r :: rows).filter (fun r => decide (r.1 ≤ t)) =
      r :: rows.filter fun r => decide (r.1 ≤ t) :=
    List.filter_cons_of_pos (decide_eq_true h)
  rw [latest, latest, hKept, List.getLast?_cons]
  cases (rows.filter fun r => decide (r.1 ≤ t)).getLast? <;> rfl

/-- Before its first row a log says nothing. -/
theorem latest_of_before {t : ℤ} (h : ∀ r ∈ rows, t < r.1) : latest rows t = none := by
  have hNone : rows.filter (fun r => decide (r.1 ≤ t)) = [] := by
    rw [List.filter_eq_nil_iff]
    intro r hr
    rw [decide_eq_true_eq]
    exact not_le.mpr (h r hr)
  rw [latest, hNone]
  rfl

/-- A row that repeats the state before it can be left out. -/
theorem latest_skip {r : ℤ × σ} {t : ℤ} {state : σ} (h : r.2 = state)
    (hRows : ∀ r' ∈ rows, r.1 ≤ r'.1) :
    (latest (r :: rows) t).getD state = (latest rows t).getD state := by
  by_cases ht : r.1 ≤ t
  · rw [latest_cons ht, Option.getD_some, h]
  · have hNone : latest rows t = none :=
      latest_of_before fun r' hr' => lt_of_lt_of_le (not_le.mp ht) (hRows r' hr')
    have hFirst : latest (r :: rows) t = none :=
      latest_of_before (List.forall_mem_cons.mpr ⟨not_le.mp ht, fun r' hr' =>
        lt_of_lt_of_le (not_le.mp ht) (hRows r' hr')⟩)
    rw [hNone, hFirst]

end Latest

section Collapse

variable [DecidableEq σ]

/-- The segments of a log whose state has been `state` since `start`. -/
def collapse (now start : ℤ) (state : σ) : List (ℤ × σ) → List (Segment σ)
  | [] => [⟨start, now, state⟩]
  | r :: rest =>
      if r.2 ≠ state then ⟨start, r.1, state⟩ :: collapse now r.1 r.2 rest
      else collapse now start state rest

variable {now start : ℤ} {state : σ} {rows : List (ℤ × σ)}

theorem tiles_collapse (hRows : ((start, state) :: rows).Pairwise fun a b => a.1 ≤ b.1)
    (hNow : ∀ r ∈ (start, state) :: rows, r.1 ≤ now) :
    Tiles start now (collapse now start state rows) := by
  induction rows generalizing start state with
  | nil => exact ⟨rfl, hNow _ (List.mem_cons_self ..), rfl⟩
  | cons r rest ih =>
      obtain ⟨hStart, hRest⟩ := List.pairwise_cons.mp hRows
      obtain ⟨hStartNow, hRestNow⟩ := List.forall_mem_cons.mp hNow
      unfold collapse
      split_ifs with hSame
      · exact ⟨rfl, hStart r (List.mem_cons_self ..), ih hRest hRestNow⟩
      · refine ih (List.pairwise_cons.mpr ⟨fun r' hr' => hStart r' (List.mem_cons_of_mem _ hr'),
          (List.pairwise_cons.mp hRest).2⟩) (List.forall_mem_cons.mpr ⟨hStartNow, ?_⟩)
        exact (List.forall_mem_cons.mp hRestNow).2

/-- The first segment has the state that the log had at its start. -/
theorem head_collapse (now start : ℤ) (state : σ) (rows : List (ℤ × σ)) :
    ((collapse now start state rows).head?).map Segment.state = some state := by
  induction rows with
  | nil => rfl
  | cons r rest ih =>
      unfold collapse
      split_ifs
      · rfl
      · exact ih

/-- Neighbouring segments differ. -/
theorem alternate_collapse (now start : ℤ) (state : σ) (rows : List (ℤ × σ)) :
    (collapse now start state rows).IsChain fun a b => a.state ≠ b.state := by
  induction rows generalizing start state with
  | nil => exact List.IsChain.singleton _
  | cons r rest ih =>
      unfold collapse
      split_ifs with hSame
      · rw [List.isChain_cons]
        refine ⟨fun s hs => ?_, ih r.1 r.2⟩
        have hHead := head_collapse now r.1 r.2 rest
        rw [Option.mem_def.mp hs] at hHead
        exact fun hEq => hSame ((Option.some.inj hHead).symm.trans hEq.symm)
      · exact ih start state

/-- A segment has the state of the latest row at any instant in it. -/
theorem state_collapse (hRows : ((start, state) :: rows).Pairwise fun a b => a.1 ≤ b.1)
    (hNow : ∀ r ∈ (start, state) :: rows, r.1 ≤ now) {s : Segment σ}
    (hs : s ∈ collapse now start state rows) {t : ℤ} (ht : s.Covers t) :
    (latest rows t).getD state = s.state := by
  induction rows generalizing start state with
  | nil =>
      rw [List.mem_singleton.mp hs]
      rfl
  | cons r rest ih =>
      obtain ⟨hStart, hRest⟩ := List.pairwise_cons.mp hRows
      obtain ⟨hStartNow, hRestNow⟩ := List.forall_mem_cons.mp hNow
      have hAfter := (List.pairwise_cons.mp hRest).1
      unfold collapse at hs
      split_ifs at hs with hSame
      · rcases List.mem_cons.mp hs with rfl | hLater
        · have hNone : latest (r :: rest) t = none :=
            latest_of_before (List.forall_mem_cons.mpr ⟨ht.2, fun r' hr' =>
              lt_of_lt_of_le ht.2 (hAfter r' hr')⟩)
          rw [hNone]
          rfl
        · have hReached : r.1 ≤ t :=
            ((tiles_collapse hRest hRestNow).start_ge s hLater).trans ht.1
          rw [latest_cons hReached]
          exact ih hRest hRestNow hLater
      · rw [latest_skip (not_not.mp hSame) hAfter]
        refine ih (List.pairwise_cons.mpr ⟨fun r' hr' => hStart r' (List.mem_cons_of_mem _ hr'),
          (List.pairwise_cons.mp hRest).2⟩) (List.forall_mem_cons.mpr ⟨hStartNow, ?_⟩) hs
        exact (List.forall_mem_cons.mp hRestNow).2

/-- The last segment has the state of the last row. -/
theorem last_collapse (now start : ℤ) (state : σ) (rows : List (ℤ × σ)) :
    ((collapse now start state rows).getLast?).map Segment.state =
      some ((rows.getLast?.map Prod.snd).getD state) := by
  induction rows generalizing start state with
  | nil => rfl
  | cons r rest ih =>
      unfold collapse
      rw [List.getLast?_cons]
      split_ifs with hSame
      · obtain ⟨s, hLast, hState⟩ := Option.map_eq_some_iff.mp (ih r.1 r.2)
        rw [List.getLast?_cons, hLast, Option.getD_some, Option.map_some, hState]
        cases rest.getLast? <;> rfl
      · rw [ih start state]
        cases rest.getLast? with
        | none => exact congrArg some (not_not.mp hSame).symm
        | some r' => rfl

end Collapse

end Ribbon
