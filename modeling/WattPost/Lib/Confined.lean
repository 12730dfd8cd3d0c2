import WattPost.Lib.Process

/-! What a process may do to its surroundings: a condition on each effect that holds whatever
comes back, and so of every effect of every execution. -/
namespace Process

open Proc

variable {E : Type} {A : E → Type} {α β : Type}

/-- Whichever answers come back of those that are possible, the effects of the process
meet `P`. -/
def Confined (possible : (e : E) → A e → Prop) (P : E → Prop) : Proc E A α → Prop
  | .ret _ => True
  | .eff e k => P e ∧ ∀ a, possible e a → Confined possible P (k a)

/-- The effects of an execution are written down. -/
def Recorded (possible : (e : E) → A e → Prop) : Handler E A (List E) :=
  fun e s a s' => possible e a ∧ s' = s ++ [e]

variable {possible : (e : E) → A e → Prop} {P : E → Prop}

theorem Confined.bind {p : Proc E A α} {f : α → Proc E A β} (hp : Confined possible P p)
    (hf : ∀ a, Confined possible P (f a)) : Confined possible P (p >>= f) := by
  induction p with
  | ret a => exact hf a
  | eff e k ih => exact ⟨hp.1, fun a ha => ih a (hp.2 a ha)⟩

theorem Confined.map {p : Proc E A α} (f : α → β) (hp : Confined possible P p) :
    Confined possible P (f <$> p) := hp.bind fun _ => trivial

/-- Every effect of an execution meets the condition. -/
theorem Confined.exec {p : Proc E A α} {s s' : List E} {o : Option α}
    (hp : Confined possible P p) (hExec : Exec (Recorded possible) p s s' o)
    (hs : ∀ e ∈ s, P e) : ∀ e ∈ s', P e := by
  induction hExec with
  | ret a s => exact hs
  | stop p s => exact hs
  | eff hStep _ ih =>
      obtain ⟨hPossible, rfl⟩ := hStep
      refine ih (hp.2 _ hPossible) fun e he => ?_
      rcases List.mem_append.mp he with he | he
      · exact hs e he
      · obtain rfl := List.mem_singleton.mp he
        exact hp.1

/-- A process whose result is worked on afterwards does what it does without. -/
theorem exec_map_iff {S : Type} {h : Handler E A S} {p : Proc E A α} {f : α → β} {s s' : S}
    {b : β} : Exec h (f <$> p) s s' (some b) ↔ ∃ a, Exec h p s s' (some a) ∧ b = f a := by
  induction p generalizing s with
  | ret a =>
      constructor
      · intro hExec
        cases hExec
        exact ⟨a, Exec.ret a _, rfl⟩
      · rintro ⟨a', hExec, rfl⟩
        cases hExec
        exact Exec.ret _ _
  | eff e k ih =>
      constructor
      · intro hExec
        cases hExec with
        | eff hStep hRest =>
            obtain ⟨a, hExec, rfl⟩ := (ih _).mp hRest
            exact ⟨a, Exec.eff hStep hExec, rfl⟩
      · rintro ⟨a, hExec, rfl⟩
        cases hExec with
        | eff hStep hRest => exact Exec.eff hStep ((ih _).mpr ⟨a, hRest, rfl⟩)

end Process
