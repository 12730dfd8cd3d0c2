import WattPost.Lib.Process

/-! Jobs that work on one state under one lock. A job that has the lock performs its effects
one by one; others arrive, wait, give up and are killed in between, and the power may go at any
point. What every job keeps at every point of its execution holds in every state of every run. -/
namespace Process

variable {E : Type} {A : E → Type} {S J α : Type}

/-- The state, the jobs that wait for the lock, and the job that has it with what it has left
to do. -/
structure Pool (E : Type) (A : E → Type) (S J α : Type) where
  state : S
  waiting : List J
  holder : Option (J × Proc E A α)

/-- One turn of a pool whose jobs run `body`. A job that takes the lock in a state meets
`Starts` there. -/
inductive Pool.Turn (h : Handler E A S) (body : J → Proc E A α) (Starts : J → S → Prop) :
    Pool E A S J α → Pool E A S J α → Prop where
  | arrive (j : J) (s : S) (ws : List J) (o : Option (J × Proc E A α)) :
      Turn h body Starts ⟨s, ws, o⟩ ⟨s, j :: ws, o⟩
  | leave (j : J) (s : S) (front back : List J) (o : Option (J × Proc E A α)) :
      Turn h body Starts ⟨s, front ++ j :: back, o⟩ ⟨s, front ++ back, o⟩
  | take (j : J) (s : S) (front back : List J) (hStarts : Starts j s) :
      Turn h body Starts ⟨s, front ++ j :: back, none⟩ ⟨s, front ++ back, some (j, body j)⟩
  | step (j : J) {e : E} {k : A e → Proc E A α} {s s' : S} {a : A e} (ws : List J)
      (hStep : h e s a s') :
      Turn h body Starts ⟨s, ws, some (j, .eff e k)⟩ ⟨s', ws, some (j, k a)⟩
  | exit (j : J) (a : α) (s : S) (ws : List J) :
      Turn h body Starts ⟨s, ws, some (j, .ret a)⟩ ⟨s, ws, none⟩
  | killed (j : J) (p : Proc E A α) (s : S) (ws : List J) :
      Turn h body Starts ⟨s, ws, some (j, p)⟩ ⟨s, ws, none⟩
  | powerLoss (s : S) (ws : List J) (o : Option (J × Proc E A α)) :
      Turn h body Starts ⟨s, ws, o⟩ ⟨s, [], none⟩

/-- The pools that turns lead to, from a state in which no job has come yet. -/
inductive Pool.Reachable (h : Handler E A S) (body : J → Proc E A α) (Starts : J → S → Prop)
    (init : S) : Pool E A S J α → Prop where
  | init : Reachable h body Starts init ⟨init, [], none⟩
  | turn {P P' : Pool E A S J α} :
      Reachable h body Starts init P → Pool.Turn h body Starts P P' →
        Reachable h body Starts init P'

section Rules

variable {h : Handler E A S} {body : J → Proc E A α} {Starts : J → S → Prop} {I : S → Prop}

/-- What is safe for an invariant is safe for a weaker one. -/
theorem Safe.weaken {I' : S → Prop} {p : Proc E A α} {s : S} {Q : α → S → Prop}
    (hp : Safe h I p s Q) (hI : ∀ s', I s' → I' s') : Safe h I' p s Q := by
  induction p generalizing s with
  | ret a => exact ⟨hI s hp.1, hp.2⟩
  | eff e k ih => exact ⟨hI s hp.1, fun a s₁ hStep => ih a (hp.2 a s₁ hStep)⟩

/-- The invariant holds, and the job at work will keep it. -/
def Pool.Keeps (h : Handler E A S) (I : S → Prop) (P : Pool E A S J α) : Prop :=
  I P.state ∧ ∀ j p, P.holder = some (j, p) → Safe h I p P.state fun _ _ => True

theorem Pool.keeps_idle {s : S} (hI : I s) (ws : List J) :
    Pool.Keeps (α := α) h I ⟨s, ws, none⟩ := by
  refine ⟨hI, ?_⟩
  intro j p hHolder
  cases hHolder

theorem Pool.Turn.keeps (hBody : ∀ j s, Starts j s → I s → Safe h I (body j) s fun _ _ => True)
    {P P' : Pool E A S J α} (hTurn : Pool.Turn h body Starts P P') (hP : P.Keeps h I) :
    P'.Keeps h I := by
  cases hTurn with
  | arrive j s ws o => exact hP
  | leave j s front back o => exact hP
  | take j s front back hStarts =>
      refine ⟨hP.1, ?_⟩
      intro j' p hHolder
      cases hHolder
      exact hBody j s hStarts hP.1
  | step j ws hStep =>
      have hNext := (hP.2 j _ rfl).2 _ _ hStep
      refine ⟨hNext.inv, ?_⟩
      intro j' p hHolder
      cases hHolder
      exact hNext
  | exit j a s ws => exact Pool.keeps_idle hP.1 ws
  | killed j p s ws => exact Pool.keeps_idle hP.1 ws
  | powerLoss s ws o => exact Pool.keeps_idle hP.1 []

/-- What each job keeps from the states it may start in holds in every state of the pool. -/
theorem Pool.Reachable.inv {init : S} (hInit : I init)
    (hBody : ∀ j s, Starts j s → I s → Safe h I (body j) s fun _ _ => True)
    {P : Pool E A S J α} (hReach : Pool.Reachable h body Starts init P) : I P.state := by
  have hKeeps : P.Keeps h I := by
    induction hReach with
    | init => exact Pool.keeps_idle hInit []
    | turn _ hTurn ih => exact hTurn.keeps hBody ih
  exact hKeeps.1

/-- A job that comes alone may be executed to any point of its script. -/
theorem Pool.Reachable.exec {init s s' : S} {j : J} {o : Option α}
    (hReach : Pool.Reachable h body Starts init ⟨s, [], none⟩) (hStarts : Starts j s)
    (hExec : Exec h (body j) s s' o) : Pool.Reachable h body Starts init ⟨s', [], none⟩ := by
  have hTaken : Pool.Reachable h body Starts init ⟨s, [], some (j, body j)⟩ :=
    (hReach.turn (.arrive j s [] none)).turn (.take j s [] [] hStarts)
  generalize body j = p at hExec hTaken
  clear hReach hStarts
  induction hExec with
  | ret a s => exact hTaken.turn (.exit j a s [])
  | stop p s => exact hTaken.turn (.killed j p s [])
  | eff hStep _ ih => exact ih (hTaken.turn (.step j [] hStep))

end Rules

end Process
