import Mathlib.Data.List.Induction

/-! Runs of a deterministic machine. The condition a run must meet may look at
the operations before a step and at the state it starts from; an invariant may
speak about the same history. -/
namespace Runs

variable {σ O : Type}

/-- The state after a list of operations. -/
def run (step : σ → O → σ) (s : σ) (ops : List O) : σ := ops.foldl step s

variable {step : σ → O → σ}

@[simp] theorem run_nil (s : σ) : run step s [] = s := rfl

theorem run_append (s : σ) (xs ys : List O) :
    run step s (xs ++ ys) = run step (run step s xs) ys := List.foldl_append

@[simp] theorem run_concat (s : σ) (xs : List O) (op : O) :
    run step s (xs ++ [op]) = step (run step s xs) op := by
  rw [run_append]
  rfl

/-- What every step preserves, every run preserves. -/
theorem run_preserves {Inv : σ → Prop} (hStep : ∀ s op, Inv s → Inv (step s op)) {s : σ}
    (h : Inv s) (ops : List O) : Inv (run step s ops) := by
  induction ops generalizing s with
  | nil => exact h
  | cons op ops ih => exact ih (hStep s op h)

/-- In a list with one element more, what stands between two parts is the new
element, or it stands in the list without it. -/
theorem split_concat {α : Type} {xs before after : List α} {x y : α}
    (h : xs ++ [x] = before ++ y :: after) :
    (xs = before ∧ x = y) ∨ ∃ rest, xs = before ++ y :: rest := by
  induction after using List.reverseRecOn with
  | nil =>
      obtain ⟨hInit, hLast⟩ := List.append_inj' h rfl
      exact Or.inl ⟨hInit, List.singleton_inj.mp hLast⟩
  | append_singleton rest z =>
      rw [← List.cons_append, ← List.append_assoc] at h
      obtain ⟨hInit, _⟩ := List.append_inj' h rfl
      exact Or.inr ⟨rest, hInit⟩

/-- Every step of the run meets its condition. -/
def StepsOk (step : σ → O → σ) (ok : List O → σ → O → Prop) (s : σ) (ops : List O) : Prop :=
  ∀ before op after, ops = before ++ op :: after → ok before (run step s before) op

theorem StepsOk.of_append {ok : List O → σ → O → Prop} {s : σ} {xs ys : List O}
    (h : StepsOk step ok s (xs ++ ys)) : StepsOk step ok s xs := by
  intro before op after he
  exact h before op (after ++ ys) (by rw [he, List.append_assoc, List.cons_append])

/-- The steps of a later part of a run, from the state it starts in. -/
theorem StepsOk.of_append_right {ok : List O → σ → O → Prop} {s : σ} {xs ys : List O}
    (h : StepsOk step ok s (xs ++ ys)) :
    StepsOk step (fun before => ok (xs ++ before)) (run step s xs) ys := by
  intro before op after he
  rw [← run_append]
  exact h (xs ++ before) op after (by rw [he, List.append_assoc])

@[simp] theorem stepsOk_nil {ok : List O → σ → O → Prop} {s : σ} : StepsOk step ok s [] := by
  intro before op after he
  cases before <;> cases he

/-- Check the first step and then the rest, which remembers it. -/
theorem stepsOk_cons {ok : List O → σ → O → Prop} {s : σ} {op : O} {ops : List O} :
    StepsOk step ok s (op :: ops) ↔
      ok [] s op ∧ StepsOk step (fun before => ok (op :: before)) (step s op) ops := by
  constructor
  · intro h
    refine ⟨h [] op ops rfl, ?_⟩
    intro before op' after he
    exact h (op :: before) op' after (by rw [he, List.cons_append])
  · rintro ⟨hHead, hTail⟩ before op' after he
    cases before with
    | nil =>
        obtain ⟨rfl, _⟩ := List.cons.inj he
        exact hHead
    | cons first before =>
        obtain ⟨rfl, hRest⟩ := List.cons.inj he
        exact hTail before op' after hRest

/-- A property of the history that every conditioned step preserves holds at
the end of every run that meets the condition. -/
theorem invariant {ok : List O → σ → O → Prop} {Inv : List O → Prop} {s : σ} (init : Inv [])
    (preserved : ∀ before op, Inv before → ok before (run step s before) op →
      Inv (before ++ [op]))
    {ops : List O} (h : StepsOk step ok s ops) : Inv ops := by
  induction ops using List.reverseRecOn with
  | nil => exact init
  | append_singleton before op ih =>
      exact preserved before op (ih h.of_append) (h before op [] rfl)

/-- The same for a property of the state alone. -/
theorem StepsOk.preserves {ok : List O → σ → O → Prop} {Inv : σ → Prop} {s : σ} {ops : List O}
    (h : StepsOk step ok s ops) (init : Inv s)
    (hStep : ∀ before s op, Inv s → ok before s op → Inv (step s op)) :
    Inv (run step s ops) := by
  induction ops using List.reverseRecOn with
  | nil => exact init
  | append_singleton before op ih =>
      rw [run_concat]
      exact hStep before _ op (ih h.of_append) (h before op [] rfl)

/-- A run of steps that each use up at least `c` of what is left is not long. -/
theorem StepsOk.length_mul_le {ok : List O → σ → O → Prop} (left : σ → Nat) {c : Nat}
    {s : σ} {ops : List O} (h : StepsOk step ok s ops)
    (hStep : ∀ before s op, ok before s op → left (step s op) + c ≤ left s) :
    ops.length * c ≤ left s := by
  induction ops generalizing s ok with
  | nil =>
      rw [List.length_nil, Nat.zero_mul]
      exact Nat.zero_le _
  | cons op ops ih =>
      obtain ⟨hFirst, hRest⟩ := stepsOk_cons.mp h
      have hLeft := ih hRest fun before s op => hStep _ s op
      have hUsed := hStep _ _ _ hFirst
      rw [List.length_cons, Nat.succ_mul]
      exact Nat.le_trans (Nat.add_le_add_right hLeft c) hUsed

end Runs
