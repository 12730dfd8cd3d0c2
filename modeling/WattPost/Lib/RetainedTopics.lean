import Mathlib.Logic.Function.Basic
import Mathlib.Tactic.Tauto
import WattPost.Lib.Runs

/-! A broker that retains the last payload of every topic, and a subscriber that reads its
messages one by one. The subscriber listens to some topics from the start of a connection and
subscribes to others on its own, whenever it has read a message that may have changed what it
wants. When nothing is left to read, it has read the retained payload of every topic it listens
to or wants, whatever was published in the meantime and however often the connection was lost. -/
namespace RetainedTopics

variable {T P C N : Type}

/-- What a subscriber does with a message, at some moment, what it subscribes to when it
connects, and what it subscribes to again behind a message that `renews`. -/
structure Subscriber (T P C N : Type) where
  listens : T → Bool
  renews : T → Bool
  receive : N → C → T → P → C
  wants : C → List T
  again : C → List T

/-- A connection: what was subscribed to, what is still to be subscribed to before the next
message is read, and what is on its way. -/
structure Line (T P : Type) where
  subs : List T
  pending : List T
  queue : List (T × P)

/-- A message that was read, and when. -/
structure Reading (T P N : Type) where
  moment : N
  message : T × P

structure State (T P N : Type) where
  retained : T → Option P
  line : Option (Line T P)
  history : List (Reading T P N)

/-- The subscriber after what it has read. -/
def Subscriber.after (S : Subscriber T P C N) (init : C) (history : List (Reading T P N)) : C :=
  history.foldl (fun c r => S.receive r.moment c r.message.1 r.message.2) init

theorem Subscriber.after_concat (S : Subscriber T P C N) (init : C)
    (history : List (Reading T P N)) (r : Reading T P N) :
    S.after init (history ++ [r]) =
      S.receive r.moment (S.after init history) r.message.1 r.message.2 := by
  rw [Subscriber.after, List.foldl_append]
  rfl

/-- What is wanted stays wanted, and what is wanted anew is subscribed to at once. -/
structure Subscriber.Lawful (S : Subscriber T P C N) (init : C) : Prop where
  grows : ∀ history r, S.wants (S.after init history) ⊆ S.wants (S.after init (history ++ [r]))
  renewed : ∀ history r, ∀ t ∈ S.wants (S.after init (history ++ [r])),
    t ∈ S.wants (S.after init history) ∨
      (S.renews r.message.1 = true ∧ t ∈ S.again (S.after init (history ++ [r])))
  again : ∀ history, S.again (S.after init history) ⊆ S.wants (S.after init history)

/-- The last payload on a topic. -/
def lastOn [DecidableEq T] (t : T) (queue : List (T × P)) : Option P :=
  queue.foldl (fun found m => if m.1 = t then some m.2 else found) none

section Last

variable [DecidableEq T] (t : T)

@[simp] theorem lastOn_nil : lastOn t ([] : List (T × P)) = none := rfl

theorem lastOn_concat (queue : List (T × P)) (m : T × P) :
    lastOn t (queue ++ [m]) = if m.1 = t then some m.2 else lastOn t queue := by
  rw [lastOn, List.foldl_append]
  rfl

theorem lastOn_cons (m : T × P) (queue : List (T × P)) :
    lastOn t (m :: queue) =
      (lastOn t queue).or (if m.1 = t then some m.2 else none) := by
  induction queue using List.reverseRecOn with
  | nil =>
      rw [lastOn_nil, Option.none_or, ← List.nil_append [m], lastOn_concat, lastOn_nil]
  | append_singleton queue m' ih =>
      rw [← List.cons_append, lastOn_concat, lastOn_concat, ih]
      split <;> rfl

theorem mem_of_lastOn {queue : List (T × P)} {p : P} (h : lastOn t queue = some p) :
    (t, p) ∈ queue := by
  induction queue using List.reverseRecOn with
  | nil => cases h
  | append_singleton queue m ih =>
      rw [lastOn_concat] at h
      split at h
      case isTrue hTopic =>
        cases h
        exact List.mem_append_right _ (List.mem_singleton.mpr (by rw [← hTopic]))
      case isFalse => exact List.mem_append_left _ (ih h)

theorem lastOn_isSome {queue : List (T × P)} {p : P} (h : (t, p) ∈ queue) :
    ∃ p', lastOn t queue = some p' := by
  induction queue using List.reverseRecOn with
  | nil => cases h
  | append_singleton queue m ih =>
      rw [lastOn_concat]
      split
      · exact ⟨_, rfl⟩
      case isFalse hTopic =>
        rcases List.mem_append.mp h with hOld | hNew
        · exact ih hOld
        · exact absurd (congrArg Prod.fst (List.mem_singleton.mp hNew)).symm hTopic

end Last

variable [DecidableEq T]

/-- What a line carries after a message was published. -/
def Line.carry (S : Subscriber T P C N) (l : Line T P) (t : T) (p : P) : Line T P :=
  if S.listens t || l.subs.contains t then { l with queue := l.queue ++ [(t, p)] } else l

/-- The retained message of a topic, as a subscription has it sent again. -/
def resent (retained : T → Option P) (t : T) : List (T × P) :=
  (retained t).toList.map fun p => (t, p)

/-- A connection begins with the retained messages of the topics it listens to, in some
order. -/
def Greets (S : Subscriber T P C N) (retained : T → Option P) (queue : List (T × P)) : Prop :=
  ∀ t p, (t, p) ∈ queue ↔ S.listens t = true ∧ retained t = some p

/-- A message is published. -/
def State.publish (S : Subscriber T P C N) (s : State T P N) (t : T) (p : P) : State T P N :=
  { s with
    retained := Function.update s.retained t (some p)
    line := s.line.map fun l => l.carry S t p }

/-- One step. `Allowed` says which messages are published at all. -/
inductive Step (S : Subscriber T P C N) (init : C) (Allowed : T → P → Prop) :
    State T P N → State T P N → Prop where
  | publish (s : State T P N) (t : T) (p : P) (hAllowed : Allowed t p) :
      Step S init Allowed s (s.publish S t p)
  | connect (s : State T P N) (queue : List (T × P)) (hLine : s.line = none)
      (hGreets : Greets S s.retained queue) :
      Step S init Allowed s
        { s with line := some ⟨[], S.wants (S.after init s.history), queue⟩ }
  | subscribe (s : State T P N) (t : T) (subs pending : List T) (queue : List (T × P))
      (hLine : s.line = some ⟨subs, t :: pending, queue⟩) :
      Step S init Allowed s
        { s with line := some ⟨t :: subs, pending, queue ++ resent s.retained t⟩ }
  | read (s : State T P N) (r : Reading T P N) (subs : List T) (queue : List (T × P))
      (hLine : s.line = some ⟨subs, [], r.message :: queue⟩) :
      Step S init Allowed s
        { s with
          line := some
            ⟨subs, if S.renews r.message.1 then S.again (S.after init (s.history ++ [r])) else [],
              queue⟩
          history := s.history ++ [r] }
  | drop (s : State T P N) : Step S init Allowed s { s with line := none }

/-- What the subscriber has last read on a topic. -/
def heard (history : List (Reading T P N)) (t : T) : Option P :=
  lastOn t (history.map Reading.message)

/-- On this topic the subscriber has the retained payload before it, or behind it. -/
def UpToDate (retained : T → Option P) (history : List (Reading T P N)) (queue : List (T × P))
    (t : T) : Prop :=
  ∀ p, retained t = some p → (lastOn t queue).or (heard history t) = some p

/-- What holds of a connection. -/
structure LineOk (S : Subscriber T P C N) (init : C) (s : State T P N) (l : Line T P) : Prop where
  fresh : ∀ t, S.listens t = true ∨ t ∈ l.subs → UpToDate s.retained s.history l.queue t
  wanted : ∀ t, t ∈ S.wants (S.after init s.history) ↔ t ∈ l.subs ∨ t ∈ l.pending
  carried : ∀ m ∈ l.queue, S.listens m.1 = true ∨ m.1 ∈ l.subs

/-- What was read was published, and listened to or wanted at the time. -/
def Reads (S : Subscriber T P C N) (init : C) (Allowed : T → P → Prop)
    (history : List (Reading T P N)) : Prop :=
  ∀ before r after, history = before ++ r :: after → Allowed r.message.1 r.message.2 ∧
    (S.listens r.message.1 = true ∨ r.message.1 ∈ S.wants (S.after init before))

structure Inv (S : Subscriber T P C N) (init : C) (Allowed : T → P → Prop) (s : State T P N) :
    Prop where
  line : ∀ l, s.line = some l → LineOk S init s l
  retained : ∀ t p, s.retained t = some p → Allowed t p
  queued : ∀ l, s.line = some l → ∀ m ∈ l.queue, Allowed m.1 m.2
  reads : Reads S init Allowed s.history

section Steps

variable {S : Subscriber T P C N} {init : C} {Allowed : T → P → Prop} {s : State T P N}

theorem heard_concat (history : List (Reading T P N)) (r : Reading T P N) (t : T) :
    heard (history ++ [r]) t = if r.message.1 = t then some r.message.2 else heard history t := by
  rw [heard, List.map_append, List.map_singleton, lastOn_concat]
  rfl

theorem mem_carry {l : Line T P} {t : T} {p : P} {m : T × P}
    (hMem : m ∈ (l.carry S t p).queue) :
    m ∈ l.queue ∨ (m = (t, p) ∧ (S.listens t = true ∨ t ∈ l.subs)) := by
  unfold Line.carry at hMem
  split at hMem
  case isTrue hCarried =>
    rcases List.mem_append.mp hMem with hOld | hNew
    · exact Or.inl hOld
    · exact Or.inr ⟨List.mem_singleton.mp hNew, by simpa using hCarried⟩
  case isFalse => exact Or.inl hMem

theorem carry_subs (l : Line T P) (t : T) (p : P) :
    (l.carry S t p).subs = l.subs ∧ (l.carry S t p).pending = l.pending := by
  unfold Line.carry
  split <;> exact ⟨rfl, rfl⟩

theorem LineOk.carry {l : Line T P} (h : LineOk S init s l) (t : T) (p : P)
    (line : Option (Line T P)) :
    LineOk S init
      { s with retained := Function.update s.retained t (some p), line := line }
      (l.carry S t p) where
  fresh := by
    intro t' ht'
    rw [(carry_subs l t p).1] at ht'
    intro p' hp'
    by_cases hTopic : t' = t
    · subst hTopic
      dsimp only at hp'
      rw [Function.update_self] at hp'
      have hQueue : (l.carry S t' p).queue = l.queue ++ [(t', p)] := by
        unfold Line.carry
        rw [if_pos (by simpa using ht')]
      rw [hQueue, lastOn_concat, if_pos rfl, Option.some_or]
      exact hp'
    · dsimp only at hp'
      rw [Function.update_of_ne hTopic] at hp'
      have hLast : lastOn t' (l.carry S t p).queue = lastOn t' l.queue := by
        unfold Line.carry
        split
        · exact (lastOn_concat _ _ _).trans (if_neg fun h => hTopic h.symm)
        · rfl
      rw [hLast]
      exact h.fresh t' ht' p' hp'
  wanted := by
    intro t'
    rw [(carry_subs l t p).1, (carry_subs l t p).2]
    exact h.wanted t'
  carried := by
    intro m hMem
    rw [(carry_subs l t p).1]
    rcases mem_carry hMem with hOld | ⟨rfl, hCarried⟩
    · exact h.carried m hOld
    · exact hCarried

theorem lineOk_connect {queue : List (T × P)} (hGreets : Greets S s.retained queue)
    (line : Option (Line T P)) :
    LineOk S init { s with line := line } ⟨[], S.wants (S.after init s.history), queue⟩ where
  fresh := by
    intro t ht p hp
    have hListens : S.listens t = true := ht.resolve_right (by simp)
    obtain ⟨p', hLast⟩ := lastOn_isSome t ((hGreets t p).mpr ⟨hListens, hp⟩)
    have hRetained := ((hGreets t p').mp (mem_of_lastOn t hLast)).2
    show (lastOn t queue).or _ = some p
    rw [hLast, Option.some_or, ← hRetained]
    exact hp
  wanted := by
    intro t
    simp
  carried := fun m hMem => Or.inl ((hGreets m.1 m.2).mp hMem).1

theorem lastOn_resent (retained : T → Option P) (queue : List (T × P)) (t t' : T) :
    lastOn t' (queue ++ resent retained t) =
      if t' = t then (retained t).or (lastOn t queue) else lastOn t' queue := by
  unfold resent
  cases hRetained : retained t with
  | none =>
      rw [Option.toList_none, List.map_nil, List.append_nil, Option.none_or]
      split
      case isTrue h => rw [h]
      case isFalse => rfl
  | some p =>
      rw [Option.toList_some, List.map_cons, List.map_nil, lastOn_concat, Option.some_or]
      by_cases hTopic : t' = t
      · rw [if_pos hTopic, if_pos hTopic.symm]
      · rw [if_neg hTopic, if_neg fun h => hTopic h.symm]

omit [DecidableEq T] in
theorem mem_resent {retained : T → Option P} {t : T} {m : T × P} :
    m ∈ resent retained t ↔ m.1 = t ∧ retained t = some m.2 := by
  obtain ⟨t', p⟩ := m
  simp only [resent, List.mem_map, Option.mem_toList, Prod.mk.injEq]
  constructor
  · rintro ⟨p', hp', rfl, rfl⟩
    exact ⟨rfl, hp'⟩
  · rintro ⟨rfl, hp⟩
    exact ⟨p, hp, rfl, rfl⟩

theorem LineOk.subscribe {t : T} {subs pending : List T} {queue : List (T × P)}
    (h : LineOk S init s ⟨subs, t :: pending, queue⟩) (line : Option (Line T P)) :
    LineOk S init { s with line := line }
      ⟨t :: subs, pending, queue ++ resent s.retained t⟩ where
  fresh := by
    intro t' ht' p hp
    show (lastOn t' (queue ++ resent s.retained t)).or _ = some p
    rw [lastOn_resent]
    by_cases hTopic : t' = t
    · subst hTopic
      rw [if_pos rfl, show s.retained t' = some p from hp, Option.some_or, Option.some_or]
    · rw [if_neg hTopic]
      refine h.fresh t' ?_ p hp
      rcases ht' with hListens | hMem
      · exact Or.inl hListens
      · exact Or.inr ((List.mem_cons.mp hMem).resolve_left hTopic)
  wanted := by
    intro t'
    refine (h.wanted t').trans ?_
    rw [List.mem_cons, List.mem_cons]
    tauto
  carried := by
    intro m hMem
    rcases List.mem_append.mp hMem with hOld | hNew
    · exact (h.carried m hOld).imp id (List.mem_cons_of_mem _)
    · exact Or.inr (List.mem_cons.mpr (Or.inl (mem_resent.mp hNew).1))

theorem LineOk.read (hS : S.Lawful init) {r : Reading T P N} {subs : List T}
    {queue : List (T × P)} (h : LineOk S init s ⟨subs, [], r.message :: queue⟩)
    (line : Option (Line T P)) :
    LineOk S init { s with line := line, history := s.history ++ [r] }
      ⟨subs, if S.renews r.message.1 then S.again (S.after init (s.history ++ [r])) else [],
        queue⟩ where
  fresh := by
    intro t ht p hp
    have hOld := h.fresh t ht p hp
    dsimp only at hOld ⊢
    rw [lastOn_cons] at hOld
    rw [heard_concat]
    cases hLast : lastOn t queue with
    | some p' =>
        rw [hLast, Option.some_or, Option.some_or] at hOld
        exact hOld
    | none =>
        rw [hLast, Option.none_or] at hOld
        rw [Option.none_or]
        split
        case isTrue hTopic =>
          rw [if_pos hTopic, Option.some_or] at hOld
          exact hOld
        case isFalse hTopic =>
          rw [if_neg hTopic, Option.none_or] at hOld
          exact hOld
  wanted := by
    intro t
    dsimp only
    have hOld : t ∈ S.wants (S.after init s.history) ↔ t ∈ subs := by
      simpa using h.wanted t
    constructor
    · intro ht
      rcases hS.renewed s.history r t ht with hBefore | ⟨hRenews, hAgain⟩
      · exact Or.inl (hOld.mp hBefore)
      · exact Or.inr (by rwa [if_pos hRenews])
    · rintro (hSub | hPending)
      · exact hS.grows s.history r (hOld.mpr hSub)
      · split at hPending
        · exact hS.again _ hPending
        · cases hPending
  carried := fun m hMem => h.carried m (List.mem_cons_of_mem _ hMem)

theorem Step.mono {Allowed' : T → P → Prop} {s' : State T P N}
    (hStep : Step S init Allowed s s') (hAllowed : ∀ t p, Allowed t p → Allowed' t p) :
    Step S init Allowed' s s' := by
  cases hStep with
  | publish t p h => exact .publish s t p (hAllowed t p h)
  | connect queue hLine hGreets => exact .connect s queue hLine hGreets
  | subscribe t subs pending queue hLine => exact .subscribe s t subs pending queue hLine
  | read r subs queue hLine => exact .read s r subs queue hLine
  | drop => exact .drop s

/-- Without a publication nothing changes on the broker. -/
theorem Step.retained_eq {s' : State T P N} (hStep : Step S init (fun _ _ => False) s s') :
    s'.retained = s.retained := by
  cases hStep with
  | publish t p h => exact h.elim
  | _ => rfl

theorem Step.inv (hS : S.Lawful init) {s' : State T P N} (hStep : Step S init Allowed s s')
    (h : Inv S init Allowed s) : Inv S init Allowed s' := by
  cases hStep with
  | publish t p hAllowed =>
      refine ⟨?_, ?_, ?_, h.reads⟩
      · intro l' hl'
        obtain ⟨l, hl, rfl⟩ := Option.map_eq_some_iff.mp hl'
        exact (h.line l hl).carry t p _
      · intro t' p' hp'
        dsimp only [State.publish] at hp'
        by_cases hTopic : t' = t
        · subst hTopic
          rw [Function.update_self] at hp'
          cases hp'
          exact hAllowed
        · rw [Function.update_of_ne hTopic] at hp'
          exact h.retained t' p' hp'
      · intro l' hl' m hMem
        obtain ⟨l, hl, rfl⟩ := Option.map_eq_some_iff.mp hl'
        rcases mem_carry hMem with hOld | ⟨rfl, _⟩
        · exact h.queued l hl m hOld
        · exact hAllowed
  | connect queue hLine hGreets =>
      refine ⟨?_, h.retained, ?_, h.reads⟩
      · intro l hl
        cases hl
        exact lineOk_connect hGreets _
      · intro l hl m hMem
        cases hl
        exact h.retained m.1 m.2 ((hGreets m.1 m.2).mp hMem).2
  | subscribe t subs pending queue hLine =>
      refine ⟨?_, h.retained, ?_, h.reads⟩
      · intro l hl
        cases hl
        exact (h.line _ hLine).subscribe _
      · intro l hl m hMem
        cases hl
        rcases List.mem_append.mp hMem with hOld | hNew
        · exact h.queued _ hLine m hOld
        · obtain ⟨hTopic, hRetained⟩ := mem_resent.mp hNew
          exact h.retained m.1 m.2 (hTopic ▸ hRetained)
  | read r subs queue hLine =>
      have hOk := h.line _ hLine
      refine ⟨?_, h.retained, ?_, ?_⟩
      · intro l hl
        cases hl
        exact hOk.read hS _
      · intro l hl m hMem
        cases hl
        exact h.queued _ hLine m (List.mem_cons_of_mem _ hMem)
      · intro before r' after hSplit
        rcases Runs.split_concat hSplit with ⟨rfl, rfl⟩ | ⟨rest, hBefore⟩
        · refine ⟨h.queued _ hLine _ List.mem_cons_self, ?_⟩
          rcases hOk.carried _ List.mem_cons_self with hListens | hSub
          · exact Or.inl hListens
          · exact Or.inr ((hOk.wanted _).mpr (Or.inl hSub))
        · exact h.reads before r' rest hBefore
  | drop =>
      refine ⟨?_, h.retained, ?_, h.reads⟩
      · intro l hl
        cases hl
      · intro l hl
        cases hl

omit [DecidableEq T] in
theorem Reads.of_concat {history : List (Reading T P N)} {r : Reading T P N}
    (h : Reads S init Allowed (history ++ [r])) :
    Reads S init Allowed history ∧
      (S.listens r.message.1 = true ∨ r.message.1 ∈ S.wants (S.after init history)) := by
  refine ⟨?_, (h history r [] rfl).2⟩
  intro before r' after hSplit
  exact h before r' (after ++ [r]) (by rw [hSplit, List.append_assoc]; rfl)

/-- When nothing is left to subscribe to and nothing to read, the subscriber has read what is
retained on every topic it listens to or wants. -/
theorem Inv.settled (h : Inv S init Allowed s) {subs : List T}
    (hLine : s.line = some ⟨subs, [], []⟩) {t : T}
    (hTopic : S.listens t = true ∨ t ∈ S.wants (S.after init s.history)) {p : P}
    (hRetained : s.retained t = some p) : heard s.history t = some p := by
  have hOk := h.line _ hLine
  refine hOk.fresh t ?_ p hRetained
  rcases hTopic with hListens | hWanted
  · exact Or.inl hListens
  · exact Or.inr (((hOk.wanted t).mp hWanted).resolve_right (by simp))

end Steps

end RetainedTopics
