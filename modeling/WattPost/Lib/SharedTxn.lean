import Mathlib.Logic.Function.Basic

/-! Several jobs on one database connection with one implicit transaction. A
job runs its statements one at a time and then commits; between two of them the
others may run. A commit keeps, and a rollback discards, whatever is pending
from all of the jobs. -/
namespace SharedTxn

/-- A job: its statements, whether it holds the write lock while it runs, and
whether it rolls back when a statement or the commit raises. -/
structure Job (S : Type) where
  plan : List S
  locked : Bool
  rollsBack : Bool

/-- A job under way: the statements still to run, and whether one has raised. -/
structure Active (S : Type) where
  todo : List S
  rollsBack : Bool
  failed : Bool

/-- The connection. Each statement that ran is marked with its job. The last
three fields are bookkeeping: the jobs that began, those that returned and those
with a rollback that raised. -/
structure Conn (S : Type) where
  committed : List (Nat × S)
  pending : List (Nat × S)
  active : Nat → Option (Active S)
  lock : Option Nat
  next : Nat
  begun : Nat → Option (Job S)
  returned : List Nat
  raised : List Nat

variable {S : Type}

def Conn.initial : Conn S where
  committed := []
  pending := []
  active := fun _ => none
  lock := none
  next := 0
  begun := fun _ => none
  returned := []
  raised := []

/-- One await: a job begins, runs a statement, commits and returns, sees a
statement or its commit raise, rolls back, or is cancelled where it is. `cut`
says what a statement that raised had already done. -/
inductive Event (S : Type) where
  | begin (job : Job S)
  | exec (c : Nat)
  | commit (c : Nat)
  | fail (c : Nat) (cut : S → Option S)
  | rollback (c : Nat)
  | cancel (c : Nat)

namespace Conn

/-- The job is over; it gives the lock back. -/
def finish (s : Conn S) (c : Nat) : Conn S :=
  { s with
    active := Function.update s.active c none
    lock := if s.lock = some c then none else s.lock }

/-- A job that needs the lock waits while another one has it. -/
def start (s : Conn S) (job : Job S) : Conn S :=
  if job.locked && s.lock.isSome then s
  else
    { s with
      active := Function.update s.active s.next (some ⟨job.plan, job.rollsBack, false⟩)
      lock := if job.locked then some s.next else s.lock
      next := s.next + 1
      begun := Function.update s.begun s.next (some job) }

/-- What the next statement of a job leaves when it raises. -/
def torn (cut : S → Option S) (todo : List S) : List S := (todo.head?.bind cut).toList

def step (s : Conn S) : Event S → Conn S
  | .begin job => s.start job
  | .exec c =>
      match s.active c with
      | some ⟨stmt :: rest, rollsBack, false⟩ =>
          { s with
            pending := s.pending ++ [stmt].map (Prod.mk c)
            active := Function.update s.active c (some ⟨rest, rollsBack, false⟩) }
      | _ => s
  | .commit c =>
      match s.active c with
      | some ⟨[], _, false⟩ =>
          { s.finish c with
            committed := s.committed ++ s.pending
            pending := []
            returned := c :: s.returned }
      | _ => s
  | .fail c cut =>
      match s.active c with
      | some ⟨todo, true, false⟩ =>
          { s with
            pending := s.pending ++ (torn cut todo).map (Prod.mk c)
            active := Function.update s.active c (some ⟨todo, true, true⟩) }
      | some ⟨todo, false, false⟩ =>
          { s.finish c with pending := s.pending ++ (torn cut todo).map (Prod.mk c) }
      | _ => s
  | .rollback c =>
      match s.active c with
      | some ⟨_, _, true⟩ => { s.finish c with pending := [], raised := c :: s.raised }
      | _ => s
  | .cancel c =>
      match s.active c with
      | some ⟨_, true, _⟩ => { s.finish c with raised := c :: s.raised }
      | some ⟨_, false, _⟩ => s.finish c
      | none => s

end Conn

/-- Nothing is left of a job that rolled back and raised, and everything of a
job that returned is committed. -/
structure Atomic (s : Conn S) : Prop where
  raised : ∀ c ∈ s.raised, ∀ e ∈ s.committed ++ s.pending, e.1 ≠ c
  returned : ∀ c ∈ s.returned, ∀ job, s.begun c = some job →
    ∀ stmt ∈ job.plan, (c, stmt) ∈ s.committed

/-- A job that raises finds the transaction its own: nobody committed any of its
statements, no other job under way has one pending when it rolls back, and it is
cancelled only with nothing written. -/
def Alone (s : Conn S) : Event S → Prop
  | .rollback c => ∀ a, s.active c = some a → a.failed = true →
      (∀ e ∈ s.committed, e.1 ≠ c) ∧ ∀ e ∈ s.pending, e.1 = c ∨ s.active e.1 = none
  | .cancel c => ∀ a, s.active c = some a → a.rollsBack = true →
      ∀ e ∈ s.committed ++ s.pending, e.1 ≠ c
  | _ => True

/-- Each statement of a job is still to run or has run and is there. -/
def Accounted (s : Conn S) (c : Nat) (todo : List S) : Prop :=
  ∀ job, s.begun c = some job → ∀ stmt ∈ job.plan,
    stmt ∈ todo ∨ (c, stmt) ∈ s.committed ++ s.pending

/-- What the jobs keep when each one that raises is alone. -/
structure Inv (s : Conn S) : Prop where
  raised : ∀ c ∈ s.raised, s.active c = none ∧ ∀ e ∈ s.committed ++ s.pending, e.1 ≠ c
  returned : ∀ c ∈ s.returned, s.active c = none ∧
    ∀ job, s.begun c = some job → ∀ stmt ∈ job.plan, (c, stmt) ∈ s.committed
  active : ∀ c a, s.active c = some a → Accounted s c a.todo
  ended : ∀ c ∈ s.raised ++ s.returned, c < s.next
  fresh : ∀ c a, s.active c = some a → c < s.next

theorem inv_initial : Inv (Conn.initial : Conn S) := by
  constructor <;> simp [Conn.initial]

namespace Inv

variable {s : Conn S}

theorem atomic (h : Inv s) : Atomic s :=
  ⟨fun c hc => (h.raised c hc).2, fun c hc => (h.returned c hc).2⟩

/-- A job that is over is forgotten, the rest stays. -/
theorem finish (h : Inv s) (c : Nat) : Inv (s.finish c) := by
  have hSub : ∀ d a, Function.update s.active c none d = some a → s.active d = some a := by
    intro d a hd
    by_cases hEq : d = c
    · subst hEq
      simp at hd
    · rwa [Function.update_of_ne hEq] at hd
  have hNone : ∀ d, s.active d = none → Function.update s.active c none d = none := by
    intro d hd
    by_cases hEq : d = c
    · subst hEq
      simp
    · rwa [Function.update_of_ne hEq]
  exact
    { raised := fun d hd => ⟨hNone d (h.raised d hd).1, (h.raised d hd).2⟩
      returned := fun d hd => ⟨hNone d (h.returned d hd).1, (h.returned d hd).2⟩
      active := fun d a hd => h.active d a (hSub d a hd)
      ended := h.ended
      fresh := fun d a hd => h.fresh d a (hSub d a hd) }

theorem start (h : Inv s) (job : Job S) : Inv (s.start job) := by
  unfold Conn.start
  split
  · exact h
  · have hOther : ∀ {T : Type} (f : Nat → T) (v : T) (d : Nat), d < s.next →
        Function.update f s.next v d = f d :=
      fun f v d hd => Function.update_of_ne (Nat.ne_of_lt hd) v f
    refine ⟨?_, ?_, ?_, fun d hd => Nat.lt_succ_of_lt (h.ended d hd), ?_⟩
    · intro d hd
      have hOld := h.ended d (List.mem_append_left _ hd)
      exact ⟨(hOther _ _ d hOld).trans (h.raised d hd).1, (h.raised d hd).2⟩
    · intro d hd
      have hOld := h.ended d (List.mem_append_right _ hd)
      refine ⟨(hOther _ _ d hOld).trans (h.returned d hd).1, ?_⟩
      intro begun hBegun
      exact (h.returned d hd).2 begun ((hOther _ _ d hOld).symm.trans hBegun)
    · intro d a hd begun hBegun stmt hStmt
      dsimp only at hd hBegun
      by_cases hEq : d = s.next
      · rw [hEq, Function.update_self] at hd hBegun
        cases hd
        cases hBegun
        exact Or.inl hStmt
      · rw [Function.update_of_ne hEq] at hd hBegun
        exact h.active d a hd begun hBegun stmt hStmt
    · intro d a hd
      by_cases hEq : d = s.next
      · exact hEq ▸ Nat.lt_succ_self _
      · dsimp only at hd
        rw [Function.update_of_ne hEq] at hd
        exact Nat.lt_succ_of_lt (h.fresh d a hd)

/-- A job under way goes on to another stage, with all of its statements
accounted for. -/
theorem update (h : Inv s) {c : Nat} {a b : Active S} (hc : s.active c = some a)
    (hb : Accounted s c b.todo) :
    Inv { s with active := Function.update s.active c (some b) } := by
  have hOver : ∀ d, s.active d = none → Function.update s.active c (some b) d = none := by
    intro d hd
    have hNe : d ≠ c := by
      intro hEq
      rw [hEq, hc] at hd
      cases hd
    rwa [Function.update_of_ne hNe]
  refine ⟨?_, ?_, ?_, h.ended, ?_⟩
  · exact fun d hd => ⟨hOver d (h.raised d hd).1, (h.raised d hd).2⟩
  · exact fun d hd => ⟨hOver d (h.returned d hd).1, (h.returned d hd).2⟩
  · intro d b' hd
    dsimp only at hd
    by_cases hEq : d = c
    · subst hEq
      rw [Function.update_self] at hd
      cases hd
      exact hb
    · rw [Function.update_of_ne hEq] at hd
      exact h.active d b' hd
  · intro d b' hd
    dsimp only at hd
    by_cases hEq : d = c
    · exact hEq ▸ h.fresh c a hc
    · rw [Function.update_of_ne hEq] at hd
      exact h.fresh d b' hd

/-- Statements of a job under way run. -/
theorem write (h : Inv s) {c : Nat} {a : Active S} (hc : s.active c = some a) (stmts : List S) :
    Inv { s with pending := s.pending ++ stmts.map (Prod.mk c) } := by
  refine ⟨?_, h.returned, ?_, h.ended, h.fresh⟩
  · intro d hd
    refine ⟨(h.raised d hd).1, ?_⟩
    intro e he hEq
    rw [← List.append_assoc] at he
    rcases List.mem_append.mp he with hOld | hNew
    · exact (h.raised d hd).2 e hOld hEq
    · obtain ⟨stmt, _, rfl⟩ := List.mem_map.mp hNew
      have hNone := (h.raised d hd).1
      rw [← hEq, hc] at hNone
      cases hNone
  · intro d b hd job hJob other hOther
    rw [← List.append_assoc]
    rcases h.active d b hd job hJob other hOther with hTodo | hRan
    · exact Or.inl hTodo
    · exact Or.inr (List.mem_append_left _ hRan)

/-- A commit keeps everything that is pending. -/
theorem flush (h : Inv s) : Inv { s with committed := s.committed ++ s.pending, pending := [] } := by
  refine ⟨?_, ?_, ?_, h.ended, h.fresh⟩
  · intro d hd
    rw [List.append_nil]
    exact h.raised d hd
  · intro d hd
    refine ⟨(h.returned d hd).1, ?_⟩
    intro job hJob stmt hStmt
    exact List.mem_append_left _ ((h.returned d hd).2 job hJob stmt hStmt)
  · intro d a hd job hJob stmt hStmt
    rw [List.append_nil]
    exact h.active d a hd job hJob stmt hStmt

/-- A rollback discards nothing of another job that is under way. -/
theorem discard (h : Inv s) {c : Nat}
    (hPending : ∀ e ∈ s.pending, e.1 = c ∨ s.active e.1 = none) :
    Inv { s.finish c with pending := [] } := by
  have hFinish := h.finish c
  refine ⟨?_, hFinish.returned, ?_, hFinish.ended, hFinish.fresh⟩
  · intro d hd
    refine ⟨(hFinish.raised d hd).1, ?_⟩
    intro e he
    rw [List.append_nil] at he
    exact (hFinish.raised d hd).2 e (List.mem_append_left _ he)
  · intro d a hd job hJob stmt hStmt
    rw [List.append_nil]
    have hd' : Function.update s.active c none d = some a := hd
    by_cases hdc : d = c
    · subst hdc
      simp at hd'
    · rw [Function.update_of_ne hdc] at hd'
      rcases h.active d a hd' job hJob stmt hStmt with hTodo | hRan
      · exact Or.inl hTodo
      · rcases List.mem_append.mp hRan with hKept | hLost
        · exact Or.inr hKept
        · rcases hPending _ hLost with hOwn | hOver
          · exact absurd hOwn hdc
          · rw [hd'] at hOver
            cases hOver

/-- A job of which nothing is left may count as raised. -/
theorem raise (h : Inv s) {c : Nat} (hOver : s.active c = none) (hId : c < s.next)
    (hGone : ∀ e ∈ s.committed ++ s.pending, e.1 ≠ c) :
    Inv { s with raised := c :: s.raised } := by
  refine ⟨?_, h.returned, h.active, ?_, h.fresh⟩
  · intro d hd
    rcases List.mem_cons.mp hd with rfl | hOld
    · exact ⟨hOver, hGone⟩
    · exact h.raised d hOld
  · intro d hd
    rcases List.mem_cons.mp hd with rfl | hOld
    · exact hId
    · exact h.ended d hOld

/-- A job that is over and all of which is committed may count as returned. -/
theorem markReturned (h : Inv s) {c : Nat} (hOver : s.active c = none) (hId : c < s.next)
    (hKept : ∀ job, s.begun c = some job → ∀ stmt ∈ job.plan, (c, stmt) ∈ s.committed) :
    Inv { s with returned := c :: s.returned } := by
  refine ⟨h.raised, ?_, h.active, ?_, h.fresh⟩
  · intro d hd
    rcases List.mem_cons.mp hd with rfl | hOld
    · exact ⟨hOver, hKept⟩
    · exact h.returned d hOld
  · intro d hd
    rcases List.mem_append.mp hd with hRaised | hReturned
    · exact h.ended d (List.mem_append_left _ hRaised)
    · rcases List.mem_cons.mp hReturned with rfl | hOld
      · exact hId
      · exact h.ended d (List.mem_append_right _ hOld)

theorem step (h : Inv s) {event : Event S} (hAlone : Alone s event) : Inv (s.step event) := by
  have hDone : ∀ c, (s.finish c).active c = none := by simp [Conn.finish]
  cases event with
  | begin job => exact h.start job
  | exec c =>
      simp only [Conn.step]
      split
      case h_1 stmt rest rollsBack hc =>
        refine (h.write hc [stmt]).update hc ?_
        intro job hJob other hOther
        rcases h.active c _ hc job hJob other hOther with hTodo | hRan
        · rcases List.mem_cons.mp hTodo with rfl | hRest
          · exact Or.inr (by simp)
          · exact Or.inl hRest
        · refine Or.inr ?_
          rw [← List.append_assoc]
          exact List.mem_append_left _ hRan
      case h_2 => exact h
  | commit c =>
      simp only [Conn.step]
      split
      case h_1 rollsBack hc =>
        refine (h.flush.finish c).markReturned (hDone c) (h.fresh c _ hc) ?_
        intro job hJob stmt hStmt
        rcases h.active c _ hc job hJob stmt hStmt with hTodo | hRan
        · cases hTodo
        · exact hRan
      case h_2 => exact h
  | fail c cut =>
      simp only [Conn.step]
      split
      case h_1 todo hc =>
        have hWrite := h.write hc (Conn.torn cut todo)
        have hAccounted := hWrite.active c _ hc
        exact hWrite.update hc hAccounted
      case h_2 todo hc => exact (h.write hc (Conn.torn cut todo)).finish c
      case h_3 => exact h
  | rollback c =>
      simp only [Conn.step]
      split
      case h_1 todo rollsBack hc =>
        obtain ⟨hCommitted, hPending⟩ := hAlone _ hc rfl
        refine (h.discard hPending).raise (hDone c) (h.fresh c _ hc) ?_
        intro e he
        rw [List.append_nil] at he
        exact hCommitted e he
      case h_2 => exact h
  | cancel c =>
      simp only [Conn.step]
      split
      case h_1 todo failed hc =>
        exact (h.finish c).raise (hDone c) (h.fresh c _ hc) (hAlone _ hc rfl)
      case h_2 => exact h.finish c
      case h_3 => exact h

end Inv

end SharedTxn
