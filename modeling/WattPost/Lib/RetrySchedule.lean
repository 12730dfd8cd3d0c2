import Mathlib.Algebra.Order.Ring.Rat
import Mathlib.Tactic.Linarith
import Mathlib.Tactic.Positivity

/-! What fails is tried again by one who looks in from time to time, after a wait that doubles
with every failure up to a cap. From some number of failures on the wait cannot be computed. -/
namespace RetrySchedule

/-- When to try again, and how often it has failed in a row. -/
structure Retry where
  next : ℚ
  fails : ℕ
deriving DecidableEq

structure Policy where
  base : ℚ
  cap : ℚ
  limit : ℕ
  base_pos : 0 < base
  cap_pos : 0 < cap

variable {p : Policy}

def Policy.wait (p : Policy) (fails : ℕ) : Option ℚ :=
  if fails < p.limit then some (min p.cap (p.base * 2 ^ fails)) else none

/-- One more failure. -/
def Policy.again (p : Policy) (r : Retry) (failedAt : ℚ) : Option Retry :=
  (p.wait r.fails).map fun wait => ⟨failedAt + wait, r.fails + 1⟩

/-- A look at something that keeps failing: a failure only if it is time to try. -/
def Policy.look (p : Policy) (r : Retry) (now failedAt : ℚ) : Option Retry :=
  if r.next ≤ now then p.again r failedAt else some r

/-- Looks one after the other, each with the time at which it would fail. Where the wait cannot
be computed, the schedule stays as it is. -/
def Policy.after (p : Policy) (r : Retry) (times : List (ℚ × ℚ)) : Retry :=
  times.foldl (fun r time => (p.look r time.1 time.2).getD r) r

theorem Policy.wait_le_cap {fails : ℕ} {wait : ℚ} (h : p.wait fails = some wait) :
    0 < wait ∧ wait ≤ p.cap := by
  obtain ⟨-, hWait⟩ := Option.ite_none_right_eq_some.mp h
  obtain rfl := Option.some_inj.mp hWait
  have hBase := p.base_pos
  exact ⟨lt_min p.cap_pos (by positivity), min_le_left _ _⟩

theorem Policy.again_eq_some {r r' : Retry} {failedAt : ℚ}
    (h : p.again r failedAt = some r') :
    r.fails < p.limit ∧ r'.fails = r.fails + 1 ∧
      failedAt < r'.next ∧ r'.next ≤ failedAt + p.cap := by
  obtain ⟨wait, hWait, rfl⟩ := Option.map_eq_some_iff.mp h
  obtain ⟨hPos, hCap⟩ := p.wait_le_cap hWait
  refine ⟨(Option.ite_none_right_eq_some.mp hWait).1, rfl, ?_, ?_⟩ <;> dsimp only <;> linarith

/-! ### How long it can go on -/

/-- Looks are at most `gap` apart, and a failure takes no longer. -/
def Spaced (gap : ℚ) : ℚ → List (ℚ × ℚ) → Prop
  | _, [] => True
  | last, time :: times =>
      (last ≤ time.1 ∧ time.1 ≤ last + gap) ∧ (time.1 ≤ time.2 ∧ time.2 ≤ time.1 + gap) ∧
        Spaced gap time.1 times

def lastLook : ℚ → List (ℚ × ℚ) → ℚ
  | last, [] => last
  | _, time :: times => lastLook time.1 times

theorem spaced_append {gap last : ℚ} {times later : List (ℚ × ℚ)} :
    Spaced gap last (times ++ later) ↔
      Spaced gap last times ∧ Spaced gap (lastLook last times) later := by
  induction times generalizing last with
  | nil => simp [Spaced, lastLook]
  | cons time times ih => simp only [List.cons_append, Spaced, ih, lastLook, and_assoc]

/-- How long the failures may have taken that make the wait one that cannot be computed. -/
def Policy.span (p : Policy) (gap : ℚ) : ℚ := p.limit * (p.cap + 2 * gap)

/-- Until it is used up, the schedule is not behind those who look. -/
structure Paced (p : Policy) (gap start last : ℚ) (r : Retry) : Prop where
  last_le : r.fails < p.limit → last ≤ r.next
  next_le : r.next ≤ start + r.fails * (p.cap + 2 * gap)
  fails_le : r.fails ≤ p.limit

/-- The next failure is one too many, at any time from `start` on. -/
def Policy.Spent (p : Policy) (start : ℚ) (r : Retry) : Prop :=
  p.limit ≤ r.fails ∧ r.next ≤ start

variable {gap start last : ℚ} {r : Retry}

theorem Paced.look {now failedAt : ℚ} (h : Paced p gap start last r)
    (hNow : last ≤ now ∧ now ≤ last + gap)
    (hFailed : now ≤ failedAt ∧ failedAt ≤ now + gap) :
    Paced p gap start now ((p.look r now failedAt).getD r) := by
  rw [Policy.look]
  split
  case isTrue hDue =>
    cases hAgain : p.again r failedAt with
    | none =>
        have hLimit : p.limit ≤ r.fails := by
          by_contra hLess
          simp [Policy.again, Policy.wait, not_le.mp hLess] at hAgain
        exact ⟨fun hLess => absurd hLimit (not_le.mpr hLess), h.next_le, h.fails_le⟩
    | some r' =>
        obtain ⟨hLimit, hFails, hAfter, hNext⟩ := p.again_eq_some hAgain
        have hLast := h.last_le hLimit
        have hBound := h.next_le
        refine ⟨fun _ => hFailed.1.trans hAfter.le, ?_, ?_⟩
        · rw [Option.getD_some, hFails, Nat.cast_succ]
          linarith
        · rw [Option.getD_some, hFails]
          exact hLimit
  case isFalse hDue => exact ⟨fun _ => (not_le.mp hDue).le, h.next_le, h.fails_le⟩

theorem Paced.after {times : List (ℚ × ℚ)} (h : Paced p gap start last r)
    (hSpaced : Spaced gap last times) :
    Paced p gap start (lastLook last times) (p.after r times) := by
  induction times generalizing last r with
  | nil => exact h
  | cons time times ih =>
      obtain ⟨hNow, hFailed, hRest⟩ := hSpaced
      exact ih (h.look hNow hFailed) hRest

/-- Whoever looks often enough has used up the schedule after that long. -/
theorem Paced.spent {now : ℚ} (h : Paced p gap start last r) (hGap : 0 ≤ gap)
    (hNow : now ≤ last + gap) (hLong : start + p.span gap ≤ now) :
    p.Spent (start + p.span gap) r := by
  have hCap := p.cap_pos
  have hNext := h.next_le
  have hFails : p.limit ≤ r.fails := by
    by_contra hLess
    have hLast := h.last_le (not_le.mp hLess)
    have hStep : (r.fails : ℚ) + 1 ≤ p.limit := by exact_mod_cast Nat.lt_of_not_le hLess
    have hMul : ((r.fails : ℚ) + 1) * (p.cap + 2 * gap) ≤ p.limit * (p.cap + 2 * gap) :=
      mul_le_mul_of_nonneg_right hStep (by linarith)
    rw [Policy.span] at hLong
    linarith
  refine ⟨hFails, ?_⟩
  rw [Policy.span, ← le_antisymm h.fails_le hFails]
  exact hNext

theorem Policy.Spent.look_eq_none {now : ℚ} (h : p.Spent start r) (hNow : start ≤ now)
    (failedAt : ℚ) : p.look r now failedAt = none := by
  rw [Policy.look, if_pos (h.2.trans hNow), Policy.again, Policy.wait, if_neg (not_lt.mpr h.1)]
  rfl

end RetrySchedule
