import WattPost.Cloud.RollupSync

/-! The world around the sync. The store may change between two awaits, the
cloud may answer anything, and the run may be stopped anywhere and begin again
under another identity. -/
namespace WattPost.Cloud

open Keyed Process Storage

section World

/-- Where `record_poll` is: it takes its timestamp, then awaits, then inserts,
then commits or rolls back. -/
inductive PollStage where
  | idle
  | stamped (ts : Nat)
  | inserted
deriving DecidableEq

/-- The shared connection. `visible` is what its queries see; `committed` is
what a rollback or a crash returns to. -/
structure StoreState (V : Type) where
  clock : Nat
  retention : Retention
  visible : Db V
  committed : Db V
  poll : PollStage

variable {V : Type}

def StoreState.commit (st : StoreState V) : StoreState V := { st with committed := st.visible }

def StoreState.restart (st : StoreState V) : StoreState V :=
  { st with visible := st.committed, poll := .idle }

/-- A POST to the rollup endpoint: who made it, the rows in it, the store
contents that they were read from, and what came of it. -/
structure PostRecord (V : Type) where
  identity : String
  rows : List (Row V)
  source : Db V
  outcome : PostOutcome

/-- The store, the `kv` rows of the sync, its memory and the posts so far.
`run` is the run under way, or the last one. `source`, `start` and `writer` are
bookkeeping: the contents last fetched from, the watermark that the stored
identity started from, and the identity that last wrote the watermark. -/
structure World (V : Type) where
  store : StoreState V
  kvIdentity : Option String
  kvWatermark : Option StoredWatermark
  poison : Option Poison
  run : RunConfig
  posts : List (PostRecord V)
  source : Db V
  start : Int
  writer : String

namespace World

/-- The identity that the stored watermark stands for. -/
def owner (s : World V) : String := s.kvIdentity.getD ""

/-- The watermark that the run can go on from. -/
def usable (s : World V) : Option Int :=
  match s.kvWatermark with
  | some (.int w) => if w ≤ s.run.now then some w else none
  | _ => none

/-- The watermark from which on the run owes rows: the start, or where a fresh
backfill starts when the stored watermark cannot be used. -/
def base (s : World V) : Int := if s.usable.isSome then s.start else s.run.fresh

/-- The watermark that an identity takes over. -/
def adopted (s : World V) : Int :=
  match s.kvWatermark with
  | some (.int w) => w
  | _ => s.start

variable [SqlReal V]

/-- Which answers an effect may have. The cloud may answer anything. -/
def Answers (s : World V) : (e : Effect V) → e.Answer → Prop
  | .kvGetIdentity, a => a = s.kvIdentity
  | .kvGetWatermark, a => a = s.kvWatermark
  | .closedRollupsAfter afterTs, a =>
      a = closedRollupsAfter rollupWindowS s.store.retention s.store.visible afterTs s.run.now
        batchRows
  | .getPoison, a => a = s.poison
  | _, _ => True

omit [SqlReal V] in
/-- The state after an effect. `kv_set` commits whatever is open on the shared
connection. -/
def perform (s : World V) : (e : Effect V) → e.Answer → World V
  | .kvSetIdentity identity, _ =>
      { s with
        store := s.store.commit
        kvIdentity := some identity
        start := s.adopted
        writer := identity }
  | .kvSetWatermark w, _ =>
      { s with
        store := s.store.commit
        kvWatermark := some (.int w)
        start := s.base
        writer := s.run.identity }
  | .closedRollupsAfter _, _ => { s with source := s.store.visible }
  | .post rows, outcome =>
      { s with posts := s.posts ++ [⟨s.run.identity, rows, s.source, outcome⟩] }
  | .setPoison p, _ => { s with poison := p }
  | _, _ => s

omit [SqlReal V] in
/-- A cloud that acknowledges what it is sent. -/
def acknowledge (rows : List (Row V)) : PostOutcome :=
  .replied 200 (some (.obj ((rows.getLast?).elim [] fun r => [("acked_through", .int (bucketTs r))])))

/-- The answers of a store at rest, and of a cloud that answers a post by its
rows. -/
def respond (cloud : List (Row V) → PostOutcome) (e : Effect V) (s : World V) :
    e.Answer × World V :=
  let a : e.Answer :=
    match e with
    | .kvGetIdentity => s.kvIdentity
    | .kvGetWatermark => s.kvWatermark
    | .closedRollupsAfter afterTs =>
        closedRollupsAfter rollupWindowS s.store.retention s.store.visible afterTs s.run.now batchRows
    | .inventoryAndViews => .ok ()
    | .post rows => cloud rows
    | .noteLease _ => .ok ()
    | .getPoison => s.poison
    | .kvSetIdentity _ => ()
    | .kvSetWatermark _ => ()
    | .setPoison _ => ()
  (a, s.perform e a)

end World

/-- What is assumed around the sync: how the store changes between two awaits,
when a run may begin, and in which states it may fetch. -/
structure Setting (V : Type) where
  env : StoreState V → StoreState V → Prop
  begins : World V → RunConfig → Prop
  fetches : RunConfig → StoreState V → Int → Prop

variable [SqlReal V]

/-- An effect, with whatever happened to the store before it. -/
def handler (A : Setting V) : Handler (Effect V) Effect.Answer (World V) :=
  fun e s a s' => ∃ st, A.env s.store st ∧
    (∀ afterTs, e = .closedRollupsAfter afterTs → A.fetches s.run st afterTs) ∧
    World.Answers { s with store := st } e a ∧ s' = World.perform { s with store := st } e a

theorem handler_respond {A : Setting V} {s : World V} (cloud : List (Row V) → PostOutcome)
    (e : Effect V) (hEnv : A.env s.store s.store)
    (hFetch : ∀ afterTs, A.fetches s.run s.store afterTs) :
    handler A e s (s.respond cloud e).1 (s.respond cloud e).2 := by
  refine ⟨s.store, hEnv, fun afterTs _ => hFetch afterTs, ?_, rfl⟩
  cases e with
  | inventoryAndViews => trivial
  | post rows => trivial
  | noteLease ack => trivial
  | kvSetIdentity identity => trivial
  | kvSetWatermark w => trivial
  | setPoison p => trivial
  | _ => rfl

/-- On a store at rest that has nothing to commit, `respond` leaves the store and
the run as they are. -/
theorem respond_at_rest {st : StoreState V} {cfg : RunConfig} (hCommit : st.commit = st)
    (cloud : List (Row V) → PostOutcome) (e : Effect V) (s : World V)
    (hs : s.store = st ∧ s.run = cfg) :
    (s.respond cloud e).2.store = st ∧ (s.respond cloud e).2.run = cfg := by
  obtain ⟨hStore, hRun⟩ := hs
  cases e with
  | kvSetIdentity identity =>
      refine ⟨?_, hRun⟩
      change s.store.commit = st
      rw [hStore, hCommit]
  | kvSetWatermark w =>
      refine ⟨?_, hRun⟩
      change s.store.commit = st
      rw [hStore, hCommit]
  | _ => exact ⟨hStore, hRun⟩

/-- A run on a store at rest, stopped after so many effects. -/
theorem exec_at_rest {A : Setting V} {s : World V} (hCommit : s.store.commit = s.store)
    (hEnv : A.env s.store s.store) (hFetch : ∀ afterTs, A.fetches s.run s.store afterTs)
    (cloud : List (Row V) → PostOutcome) (n : Nat) (p : SyncProc V SyncResult) :
    Exec (handler A) p s (p.runWith (World.respond cloud) n s).2
      (p.runWith (World.respond cloud) n s).1 := by
  have hRespond : ∀ e s', s'.store = s.store ∧ s'.run = s.run →
      handler A e s' (s'.respond cloud e).1 (s'.respond cloud e).2 ∧
        ((s'.respond cloud e).2.store = s.store ∧ (s'.respond cloud e).2.run = s.run) := by
    intro e s' hs'
    refine ⟨?_, respond_at_rest hCommit cloud e s' hs'⟩
    obtain ⟨hStore, hRun⟩ := hs'
    apply handler_respond
    · rw [hStore]
      exact hEnv
    · rw [hStore, hRun]
      exact hFetch
  exact Exec.of_runWith hRespond n p ⟨rfl, rfl⟩

/-- The states that runs, crashes and the store's own changes lead to. A run
may be stopped at any await. -/
inductive Reachable (A : Setting V) (init : World V → Prop) : World V → Prop where
  | init {s : World V} : init s → Reachable A init s
  | env {s : World V} {st : StoreState V} :
      Reachable A init s → A.env s.store st → Reachable A init { s with store := st }
  | run {s s' : World V} {o : Option SyncResult} (cfg : RunConfig) :
      Reachable A init s → A.begins s cfg →
        Exec (handler A) (runOnce cfg) { s with run := cfg } s' o → Reachable A init s'
  | restart {s : World V} :
      Reachable A init s → Reachable A init { s with store := s.store.restart, poison := none }

/-- A fresh process on stored state of any kind, before its first post. -/
structure Initial (s : World V) : Prop where
  posts : s.posts = []
  writer : s.writer = s.owner
  start : ∀ w, s.kvWatermark = some (.int w) → s.start = w

end World

/-! ### Settled rows -/

section Settled

variable {V : Type} [SqlReal V]

/-- Answered below 400, with `acked_through` the last bucket of its rows. -/
def PostRecord.Acked (p : PostRecord V) : Prop :=
  ∃ status fields last, p.outcome = .replied status (some (.obj fields)) ∧ status < 400 ∧
    p.rows.getLast? = some last ∧ Json.get? fields "acked_through" = some (.int (bucketTs last))

/-- Refused for good. -/
def PostRecord.Refused (p : PostRecord V) : Prop :=
  ∃ status body, p.outcome = .replied status body ∧ 400 ≤ status ∧ status ∉ retryableStatus

/-- Answered below 400 with a JSON body. -/
def PostRecord.Succeeded (p : PostRecord V) : Prop :=
  ∃ status ack, p.outcome = .replied status (some ack) ∧ status < 400

/-- The row was part of a post to the identity that was acknowledged exactly. -/
def Delivered (posts : List (PostRecord V)) (identity : String) (source : Db V) (r : Row V) :
    Prop :=
  ∃ p ∈ posts, p.identity = identity ∧ p.source = source ∧ p.Acked ∧ r ∈ p.rows

/-- The row was refused alone and a control post succeeded right after it. -/
def RefusedAlone (posts : List (PostRecord V)) (identity : String) (r : Row V) : Prop :=
  ∃ before p c after, posts = before ++ p :: c :: after ∧
    p.identity = identity ∧ p.rows = [r] ∧ p.Refused ∧
    c.identity = identity ∧ c.rows = [] ∧ c.Succeeded

/-- Nothing more is to be done about the row. -/
def RowSettled (posts : List (PostRecord V)) (identity : String) (source : Db V) (r : Row V) :
    Prop :=
  rowOk r = false ∨ Delivered posts identity source r ∨ RefusedAlone posts identity r

variable {posts more : List (PostRecord V)} {identity : String} {source : Db V} {r : Row V}

omit [SqlReal V] in
theorem Delivered.append (h : Delivered posts identity source r) :
    Delivered (posts ++ more) identity source r := by
  obtain ⟨p, hp, hRest⟩ := h
  exact ⟨p, List.mem_append_left _ hp, hRest⟩

omit [SqlReal V] in
theorem RefusedAlone.append (h : RefusedAlone posts identity r) :
    RefusedAlone (posts ++ more) identity r := by
  obtain ⟨before, p, c, after, rfl, hRest⟩ := h
  exact ⟨before, p, c, after ++ more, by simp, hRest⟩

theorem RowSettled.append (h : RowSettled posts identity source r) :
    RowSettled (posts ++ more) identity source r := by
  rcases h with hBad | hDelivered | hRefused
  · exact Or.inl hBad
  · exact Or.inr (Or.inl hDelivered.append)
  · exact Or.inr (Or.inr hRefused.append)

end Settled

end WattPost.Cloud
