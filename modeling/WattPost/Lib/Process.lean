import Mathlib.Logic.Basic

/-! Processes that perform effects, and what holds at every point of their
executions. A process may be stopped before any effect, as a crash stops it,
so a safety condition has to hold in each state the process leaves behind and
not only in the last one. -/
namespace Process

/-- A process: a result, or an effect and what to do with its answer. -/
inductive Proc (E : Type) (A : E → Type) (α : Type) where
  | ret : α → Proc E A α
  | eff : (e : E) → (A e → Proc E A α) → Proc E A α

variable {E : Type} {A : E → Type} {S α β : Type}

namespace Proc

protected def bind : Proc E A α → (α → Proc E A β) → Proc E A β
  | ret a, f => f a
  | eff e k, f => eff e (fun a => (k a).bind f)

instance : Monad (Proc E A) where
  pure := ret
  bind := Proc.bind

/-- Perform one effect. -/
def perform (e : E) : Proc E A (A e) := eff e ret

/-- Run a process against a given answer to each effect, for so many effects at
most. -/
def runWith (respond : (e : E) → S → A e × S) : Nat → Proc E A α → S → Option α × S
  | _, ret a, s => (some a, s)
  | 0, eff _ _, s => (none, s)
  | n + 1, eff e k, s => runWith respond n (k (respond e s).1) (respond e s).2

end Proc

open Proc

/-- How effects change the state: `h e s a s'` when effect `e` in state `s` may
answer `a` and leave `s'`. -/
abbrev Handler (E : Type) (A : E → Type) (S : Type) := (e : E) → S → A e → S → Prop

/-- Executions of a process. It ends with its result, or it is stopped and has
none. -/
inductive Exec (h : Handler E A S) : Proc E A α → S → S → Option α → Prop where
  | ret (a : α) (s : S) : Exec h (.ret a) s s (some a)
  | stop (p : Proc E A α) (s : S) : Exec h p s s none
  | eff {e : E} {k : A e → Proc E A α} {s s₁ s₂ : S} {a : A e} {o : Option α} :
      h e s a s₁ → Exec h (k a) s₁ s₂ o → Exec h (.eff e k) s s₂ o

/-- Running against answers that the handler allows is an execution. -/
theorem Exec.of_runWith {h : Handler E A S} {respond : (e : E) → S → A e × S} {P : S → Prop}
    (hRespond : ∀ e s, P s → h e s (respond e s).1 (respond e s).2 ∧ P (respond e s).2) (n : Nat)
    (p : Proc E A α) {s : S} (hs : P s) :
    Exec h p s (p.runWith respond n s).2 (p.runWith respond n s).1 := by
  induction n generalizing p s with
  | zero =>
      cases p with
      | ret a => exact Exec.ret a s
      | eff e k => exact Exec.stop _ s
  | succ n ih =>
      cases p with
      | ret a => exact Exec.ret a s
      | eff e k => exact Exec.eff (hRespond e s hs).1 (ih _ (hRespond e s hs).2)

theorem Proc.runWith_inv {respond : (e : E) → S → A e × S} {P : S → Prop}
    (hRespond : ∀ e s, P s → P (respond e s).2) (n : Nat) (p : Proc E A α) {s : S} (hs : P s) :
    P (p.runWith respond n s).2 := by
  induction n generalizing p s with
  | zero =>
      cases p with
      | ret a => exact hs
      | eff e k => exact hs
  | succ n ih =>
      cases p with
      | ret a => exact hs
      | eff e k => exact ih _ (hRespond e s hs)

/-- To work on the result of a process is to work on the result of its run. -/
theorem Proc.runWith_map {respond : (e : E) → S → A e × S} (f : α → β) (n : Nat)
    (p : Proc E A α) (s : S) :
    (f <$> p).runWith respond n s =
      ((p.runWith respond n s).1.map f, (p.runWith respond n s).2) := by
  induction n generalizing p s with
  | zero =>
      cases p with
      | ret a => rfl
      | eff e k => rfl
  | succ n ih =>
      cases p with
      | ret a => rfl
      | eff e k => exact ih (k (respond e s).1) (respond e s).2

/-- From state `s` the process keeps `I` at every point, and `Q` holds of its
result. -/
def Safe (h : Handler E A S) (I : S → Prop) : Proc E A α → S → (α → S → Prop) → Prop
  | .ret a, s, Q => I s ∧ Q a s
  | .eff e k, s, Q => I s ∧ ∀ a s₁, h e s a s₁ → Safe h I (k a) s₁ Q

section Rules

variable {h : Handler E A S} {I : S → Prop}

theorem Safe.inv {p : Proc E A α} {s : S} {Q : α → S → Prop} (hp : Safe h I p s Q) : I s := by
  cases p with
  | ret a => exact hp.1
  | eff e k => exact hp.1

/-- Safety is what it says about executions. -/
theorem Safe.exec {p : Proc E A α} {s s' : S} {o : Option α} {Q : α → S → Prop}
    (hp : Safe h I p s Q) (hExec : Exec h p s s' o) : I s' ∧ ∀ a, o = some a → Q a s' := by
  induction hExec with
  | ret a s =>
      refine ⟨hp.1, ?_⟩
      intro b hb
      cases hb
      exact hp.2
  | stop p s => exact ⟨hp.inv, fun _ ho => by cases ho⟩
  | eff hStep _ ih => exact ih (hp.2 _ _ hStep)

theorem Safe.mono {p : Proc E A α} {s : S} {Q Q' : α → S → Prop} (hp : Safe h I p s Q)
    (hQ : ∀ a s', Q a s' → Q' a s') : Safe h I p s Q' := by
  induction p generalizing s with
  | ret a => exact ⟨hp.1, hQ a s hp.2⟩
  | eff e k ih => exact ⟨hp.1, fun a s₁ hStep => ih a (hp.2 a s₁ hStep)⟩

theorem Safe.bind {p : Proc E A α} {f : α → Proc E A β} {s : S} {R : α → S → Prop}
    {Q : β → S → Prop} (hp : Safe h I p s R) (hf : ∀ a s', R a s' → Safe h I (f a) s' Q) :
    Safe h I (p >>= f) s Q := by
  induction p generalizing s with
  | ret a => exact hf a s hp.2
  | eff e k ih => exact ⟨hp.1, fun a s₁ hStep => ih a (hp.2 a s₁ hStep)⟩

theorem Safe.pure {a : α} {s : S} {Q : α → S → Prop} (hI : I s) (hQ : Q a s) :
    Safe h I (pure a) s Q := ⟨hI, hQ⟩

/-- One effect and then the rest. -/
theorem Safe.perform {e : E} {f : A e → Proc E A β} {s : S} {Q : β → S → Prop} (hI : I s)
    (hf : ∀ a s₁, h e s a s₁ → Safe h I (f a) s₁ Q) : Safe h I (perform e >>= f) s Q :=
  ⟨hI, hf⟩

end Rules

/-! ### Total correctness -/

/-- The process comes to its end, whatever the handler answers, and `Q` holds of its
result then. -/
def Ends (h : Handler E A S) : Proc E A α → S → (α → S → Prop) → Prop
  | .ret a, s, Q => Q a s
  | .eff e k, s, Q => (∃ a s₁, h e s a s₁) ∧ ∀ a s₁, h e s a s₁ → Ends h (k a) s₁ Q

section Total

variable {h : Handler E A S}

theorem Ends.mono {p : Proc E A α} {s : S} {Q Q' : α → S → Prop} (hp : Ends h p s Q)
    (hQ : ∀ a s', Q a s' → Q' a s') : Ends h p s Q' := by
  induction p generalizing s with
  | ret a => exact hQ a s hp
  | eff e k ih => exact ⟨hp.1, fun a s₁ hStep => ih a (hp.2 a s₁ hStep)⟩

theorem Ends.bind {p : Proc E A α} {f : α → Proc E A β} {s : S} {R : α → S → Prop}
    {Q : β → S → Prop} (hp : Ends h p s R) (hf : ∀ a s', R a s' → Ends h (f a) s' Q) :
    Ends h (p >>= f) s Q := by
  induction p generalizing s with
  | ret a => exact hf a s hp
  | eff e k ih => exact ⟨hp.1, fun a s₁ hStep => ih a (hp.2 a s₁ hStep)⟩

/-- Enough fuel runs the process to its end against any answers of the handler. -/
theorem Ends.runWith {respond : (e : E) → S → A e × S}
    (hRespond : ∀ e s, h e s (respond e s).1 (respond e s).2) {p : Proc E A α} {s : S}
    {Q : α → S → Prop} (hp : Ends h p s Q) :
    ∃ n a s', p.runWith respond n s = (some a, s') ∧ Q a s' := by
  induction p generalizing s with
  | ret a => exact ⟨0, a, s, rfl, hp⟩
  | eff e k ih =>
      obtain ⟨n, a, s', hRun, hQ⟩ := ih _ (hp.2 _ _ (hRespond e s))
      exact ⟨n + 1, a, s', hRun, hQ⟩

end Total

end Process
