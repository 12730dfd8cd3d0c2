import Mathlib.Data.List.Flatten
import Mathlib.Logic.Function.Basic
import WattPost.Lib.Mailbox

/-! The stream of snapshots that open dashboards follow: the scheduler sends one after every
poll, and each client gets one of its own first. The parts of a snapshot are read one after the
other, and anyone may write to the store in between. -/
namespace LiveStream

variable {κ : Type} [DecidableEq κ]

/-! ### The two sides -/

/-- A snapshot, as what `build_snapshot` reads in their order (the devices, their latest
readings, the last run, the totals of today), each by how many writes the store had had. -/
abbrev Snapshot := List Nat

/-- How many parts `build_snapshot` reads from the store. -/
def parts : Nat := 4

/-- The size of a subscriber's queue. -/
def maxsize : Nat := 4

/-- Where `_run` is: a poll is recorded after `recordedAt` writes, of which the snapshot has
read so much. -/
inductive Phase where
  | polling
  | recorded (recordedAt : Nat)
  | building (recordedAt : Nat) (read : Snapshot)
deriving DecidableEq

/-- A stream of `/api/stream`: its queue, the parts read so far of the snapshot it starts with,
as long as that one is not sent, and what was sent. -/
structure Client where
  subscribed : Bool
  queue : List Snapshot
  starting : Option Snapshot
  started : Option Snapshot
  followed : List Snapshot

/-- What the client was sent, in order. -/
def Client.shown (c : Client) : List Snapshot := c.started.toList ++ c.followed

/-- The whole system: the number of writes the store has had, the one after which the last poll
was recorded whose turn of the loop went to its end, and everything that was broadcast. `_run`
catches what the building of a snapshot raises and goes on; such a poll is recorded, but it was
not shown, and does not count as finished here. -/
structure World (κ : Type) where
  stored : Nat
  finished : Nat
  phase : Phase
  sent : List Snapshot
  clients : κ → Client

def Client.gone : Client := ⟨false, [], none, none, []⟩

def World.start : World κ := ⟨0, 0, .polling, [], fun _ => .gone⟩

def World.setClient (w : World κ) (k : κ) (c : Client) : World κ :=
  { w with clients := Function.update w.clients k c }

/-- `_broadcast` to one client. -/
def Client.post (c : Client) (snapshot : Snapshot) : Client :=
  if c.subscribed then { c with queue := Mailbox.post maxsize c.queue snapshot } else c

/-! ### One turn -/

/-- What may happen next. -/
inductive Step : World κ → World κ → Prop where
  /-- A statement of `record_poll`, or of anyone else who writes to the store. -/
  | write {w : World κ} : Step w { w with stored := w.stored + 1 }
  /-- `record_poll` is through. -/
  | record {w : World κ} : w.phase = .polling →
      Step w { w with phase := .recorded w.stored }
  /-- Nobody follows, and there are no rules to evaluate. -/
  | skip {w : World κ} {at' : Nat} : w.phase = .recorded at' →
      (∀ k, (w.clients k).subscribed = false) →
      Step w { w with finished := at', phase := .polling }
  | build {w : World κ} {at' : Nat} : w.phase = .recorded at' →
      Step w { w with phase := .building at' [] }
  | read {w : World κ} {at' : Nat} {read : Snapshot} : w.phase = .building at' read →
      read.length < parts → Step w { w with phase := .building at' (read ++ [w.stored]) }
  | broadcast {w : World κ} {at' : Nat} {read : Snapshot} : w.phase = .building at' read →
      read.length = parts →
      Step w { w with
        finished := at'
        phase := .polling
        sent := w.sent ++ [read]
        clients := fun k => (w.clients k).post read }
  /-- The turn of the loop comes to nothing: an exception. -/
  | fail {w : World κ} : Step w { w with phase := .polling }
  | subscribe {w : World κ} (k : κ) : (w.clients k).subscribed = false →
      Step w (w.setClient k ⟨true, [], some [], none, []⟩)
  | readFirst {w : World κ} {k : κ} {read : Snapshot} : (w.clients k).starting = some read →
      read.length < parts →
      Step w (w.setClient k { w.clients k with starting := some (read ++ [w.stored]) })
  | sendFirst {w : World κ} {k : κ} {read : Snapshot} : (w.clients k).starting = some read →
      read.length = parts →
      Step w (w.setClient k { w.clients k with starting := none, started := some read })
  /-- The first snapshot fails, and the stream goes on. -/
  | failFirst {w : World κ} {k : κ} {read : Snapshot} : (w.clients k).starting = some read →
      Step w (w.setClient k { w.clients k with starting := none })
  | send {w : World κ} {k : κ} {snapshot : Snapshot} {rest : List Snapshot} :
      (w.clients k).starting = none → (w.clients k).queue = snapshot :: rest →
      Step w (w.setClient k
        { w.clients k with queue := rest, followed := (w.clients k).followed ++ [snapshot] })
  | leave {w : World κ} (k : κ) : Step w (w.setClient k .gone)

/-- The states that turns in any order lead to. -/
inductive Reachable : World κ → Prop where
  | start : Reachable .start
  | step {w w' : World κ} : Reachable w → Step w w' → Reachable w'

/-! ### What is new enough -/

/-- Every part was read after so many writes. -/
def Since (writes : Nat) (snapshot : Snapshot) : Prop := ∀ part ∈ snapshot, writes ≤ part

/-- What a client will have been shown at the last, once it has read its queue, is since the
last poll. -/
structure Client.Fresh (finished : Nat) (c : Client) : Prop where
  queue : ∀ snapshot ∈ c.queue.getLast?, Since finished snapshot
  starting : c.queue = [] → ∀ read ∈ c.starting, Since finished read
  shown : c.queue = [] → ∀ snapshot ∈ c.shown.getLast?, Since finished snapshot
  empty : c.starting.isSome → c.shown = []

/-- What the turn of the loop has at hand is since its own poll. -/
def Phase.Fresh (finished stored : Nat) : Phase → Prop
  | .polling => True
  | .recorded at' => finished ≤ at' ∧ at' ≤ stored
  | .building at' read => finished ≤ at' ∧ at' ≤ stored ∧ Since at' read

structure World.Fresh (w : World κ) : Prop where
  finished : w.finished ≤ w.stored
  phase : w.phase.Fresh w.finished w.stored
  clients : ∀ k, (w.clients k).subscribed → (w.clients k).Fresh w.finished

@[simp] theorem since_nil (writes : Nat) : Since writes [] := by
  simp [Since]

theorem Since.concat {writes stored : Nat} {read : Snapshot} (hRead : Since writes read)
    (hStored : writes ≤ stored) : Since writes (read ++ [stored]) := by
  intro part hPart
  rcases List.mem_append.mp hPart with h | h
  · exact hRead part h
  · exact List.mem_singleton.mp h ▸ hStored

theorem Phase.Fresh.write {finished stored : Nat} {phase : Phase}
    (h : phase.Fresh finished stored) : phase.Fresh finished (stored + 1) := by
  cases phase with
  | polling => trivial
  | recorded at' => exact ⟨h.1, h.2.trans (Nat.le_succ stored)⟩
  | building at' read => exact ⟨h.1, h.2.1.trans (Nat.le_succ stored), h.2.2⟩

theorem Client.fresh_gone (finished : Nat) : Client.gone.Fresh finished where
  queue := by simp [Client.gone]
  starting := by simp [Client.gone]
  shown := by simp [Client.gone, Client.shown]
  empty := by simp [Client.gone, Client.shown]

theorem Client.Fresh.post {finished at' : Nat} {c : Client} {read : Snapshot}
    (h : c.Fresh finished) (hSub : c.subscribed = true) (hRead : Since at' read) :
    (c.post read).Fresh at' := by
  have hLast : (Mailbox.post maxsize c.queue read).getLast? = some read :=
    Mailbox.getLast?_post (by decide) c.queue read
  have hFull : Mailbox.post maxsize c.queue read ≠ [] := by
    intro hNil
    simp [hNil] at hLast
  rw [Client.post, if_pos hSub]
  exact ⟨by simpa [hLast] using hRead, fun hNil => absurd hNil hFull,
    fun hNil => absurd hNil hFull, h.empty⟩

theorem World.Fresh.setClient {w : World κ} (h : w.Fresh) (k : κ) {c : Client}
    (hClient : c.subscribed = true → c.Fresh w.finished) : (w.setClient k c).Fresh := by
  refine ⟨h.finished, h.phase, ?_⟩
  intro k' hSub
  rcases eq_or_ne k' k with rfl | hNe
  · simp only [World.setClient, Function.update_self] at hSub ⊢
    exact hClient hSub
  · simp only [World.setClient, Function.update_of_ne hNe] at hSub ⊢
    exact h.clients k' hSub

/-! ### One turn keeps it -/

theorem Client.Fresh.readFirst {finished stored : Nat} {c : Client} {read : Snapshot}
    (h : c.Fresh finished) (hStarting : c.starting = some read) (hStored : finished ≤ stored) :
    ({ c with starting := some (read ++ [stored]) } : Client).Fresh finished where
  queue := h.queue
  starting := by
    rintro hNil next hNext
    obtain rfl := Option.mem_some_iff.mp hNext
    exact (h.starting hNil read hStarting).concat hStored
  shown := h.shown
  empty := fun _ => h.empty (by simp [hStarting])

theorem Client.Fresh.sendFirst {finished : Nat} {c : Client} {read : Snapshot}
    (h : c.Fresh finished) (hStarting : c.starting = some read) :
    ({ c with starting := none, started := some read } : Client).Fresh finished := by
  have hEmpty : c.started = none ∧ c.followed = [] := by
    simpa [Client.shown] using h.empty (by simp [hStarting])
  refine ⟨h.queue, by simp, fun hNil => ?_, by simp⟩
  simpa [Client.shown, hEmpty] using h.starting hNil read hStarting

theorem Client.Fresh.failFirst {finished : Nat} {c : Client} {read : Snapshot}
    (h : c.Fresh finished) (hStarting : c.starting = some read) :
    ({ c with starting := none } : Client).Fresh finished where
  queue := h.queue
  starting := by simp
  shown := by
    have hEmpty : c.started = none ∧ c.followed = [] := by
      simpa [Client.shown] using h.empty (by simp [hStarting])
    simp [Client.shown, hEmpty]
  empty := by simp

theorem Client.Fresh.send {finished : Nat} {c : Client} {snapshot : Snapshot}
    {rest : List Snapshot} (h : c.Fresh finished) (hStarting : c.starting = none)
    (hQueue : c.queue = snapshot :: rest) :
    ({ c with queue := rest, followed := c.followed ++ [snapshot] } : Client).Fresh
      finished := by
  have hLast := h.queue
  rw [hQueue] at hLast
  refine ⟨?_, by simp [hStarting], ?_, by simp [hStarting]⟩
  · intro last hMem
    cases rest with
    | nil => simp at hMem
    | cons next rest => exact hLast last (by simpa using hMem)
  · rintro rfl
    simpa [Client.shown, ← List.append_assoc] using hLast

theorem World.fresh_step {w w' : World κ} (h : w.Fresh) (hStep : Step w w') : w'.Fresh := by
  cases hStep with
  | write => exact ⟨h.finished.trans (Nat.le_succ _), h.phase.write, h.clients⟩
  | record _ => exact ⟨h.finished, ⟨h.finished, le_rfl⟩, h.clients⟩
  | skip hPhase hNobody =>
      have hAt := h.phase
      rw [hPhase] at hAt
      refine ⟨hAt.2, trivial, ?_⟩
      intro k hSub
      simp [hNobody k] at hSub
  | build hPhase =>
      have hAt := h.phase
      rw [hPhase] at hAt
      exact ⟨h.finished, ⟨hAt.1, hAt.2, since_nil _⟩, h.clients⟩
  | read hPhase _ =>
      have hAt := h.phase
      rw [hPhase] at hAt
      exact ⟨h.finished, ⟨hAt.1, hAt.2.1, hAt.2.2.concat hAt.2.1⟩, h.clients⟩
  | @broadcast at' read hPhase _ =>
      have hAt := h.phase
      rw [hPhase] at hAt
      refine ⟨hAt.2.1, trivial, ?_⟩
      intro k hSub
      have hWas : (w.clients k).subscribed = true := by
        simp only [Client.post] at hSub
        split at hSub <;> exact hSub
      exact (h.clients k hWas).post hWas hAt.2.2
  | fail => exact ⟨h.finished, trivial, h.clients⟩
  | subscribe k _ =>
      exact h.setClient k fun _ => ⟨by simp, by simp, by simp [Client.shown],
        by simp [Client.shown]⟩
  | readFirst hStarting _ =>
      exact h.setClient _ fun hSub => (h.clients _ hSub).readFirst hStarting h.finished
  | sendFirst hStarting _ =>
      exact h.setClient _ fun hSub => (h.clients _ hSub).sendFirst hStarting
  | failFirst hStarting =>
      exact h.setClient _ fun hSub => (h.clients _ hSub).failFirst hStarting
  | send hStarting hQueue =>
      exact h.setClient _ fun hSub => (h.clients _ hSub).send hStarting hQueue
  | leave k => exact h.setClient k fun _ => Client.fresh_gone _

theorem World.fresh_of_reachable {w : World κ} (h : Reachable w) : w.Fresh := by
  induction h with
  | start => exact ⟨le_rfl, trivial, fun k _ => Client.fresh_gone 0⟩
  | step _ hStep ih => exact World.fresh_step ih hStep

/-- Whatever polls, writes and clients come between: a client that has read all it was sent was
last shown a snapshot all parts of which were read after the last finished poll was recorded. -/
theorem live_view_current {w : World κ} (hReach : Reachable w) {k : κ}
    (hSub : (w.clients k).subscribed = true) (hQueue : (w.clients k).queue = [])
    {snapshot : Snapshot} (hShown : (w.clients k).shown.getLast? = some snapshot) :
    Since w.finished snapshot :=
  ((World.fresh_of_reachable hReach).clients k hSub).shown hQueue snapshot hShown

/-- A dashboard is opened, and a poll comes in. -/
private theorem reachable_followed : ∃ w : World Unit, Reachable w ∧ w.finished = 1 ∧
    (w.clients ()).subscribed = true ∧ (w.clients ()).queue = [] ∧
    (w.clients ()).shown = [[0, 0, 0, 0], [1, 1, 1, 1]] ∧ w.sent = [[1, 1, 1, 1]] := by
  have h : Reachable (World.start : World Unit) := .start
  have h := h.step (.subscribe () rfl)
  have h := h.step (.readFirst (k := ()) rfl (by decide))
  have h := h.step (.readFirst (k := ()) rfl (by decide))
  have h := h.step (.readFirst (k := ()) rfl (by decide))
  have h := h.step (.readFirst (k := ()) rfl (by decide))
  have h := h.step (.sendFirst (k := ()) rfl rfl)
  have h := (h.step .write).step (.record rfl)
  have h := h.step (.build rfl)
  have h := h.step (.read rfl (by decide))
  have h := h.step (.read rfl (by decide))
  have h := h.step (.read rfl (by decide))
  have h := h.step (.read rfl (by decide))
  have h := h.step (.broadcast rfl rfl)
  have h := h.step (.send (k := ()) rfl rfl)
  exact ⟨_, h, rfl, rfl, rfl, rfl, rfl⟩

theorem live_view_current_followed : ∃ w : World Unit,
    (w.clients ()).shown = [[0, 0, 0, 0], [1, 1, 1, 1]] ∧ Since w.finished [1, 1, 1, 1] := by
  obtain ⟨w, hReach, -, hSub, hQueue, hShown, -⟩ := reachable_followed
  exact ⟨w, hShown, live_view_current hReach hSub hQueue (by simp [hShown])⟩

/-! ### The order of what is sent -/

/-- What the snapshot at hand has read. -/
def Phase.read : Phase → Snapshot
  | .building _ read => read
  | _ => []

/-- A client is sent some of what was broadcast, in that order, and has the end of it waiting. -/
structure Client.Ordered (sent : List Snapshot) (c : Client) : Prop where
  followed : (c.followed ++ c.queue).Sublist sent
  queue : c.queue <:+ sent
  room : c.queue.length ≤ maxsize

structure World.Ordered (w : World κ) : Prop where
  sorted : (w.sent.flatten ++ w.phase.read).Pairwise (· ≤ ·)
  stored : ∀ part ∈ w.sent.flatten ++ w.phase.read, part ≤ w.stored
  clients : ∀ k, (w.clients k).subscribed = true → (w.clients k).Ordered w.sent

theorem Client.Ordered.post {sent : List Snapshot} {c : Client} (h : c.Ordered sent)
    (hSub : c.subscribed = true) (read : Snapshot) :
    (c.post read).Ordered (sent ++ [read]) := by
  rw [Client.post, if_pos hSub]
  exact ⟨Mailbox.sublist_post (by decide) h.followed read,
    Mailbox.suffix_post (by decide) h.queue read,
    Mailbox.length_post_le (by decide) c.queue read⟩

theorem Client.Ordered.send {sent : List Snapshot} {c : Client} {snapshot : Snapshot}
    {rest : List Snapshot} (h : c.Ordered sent) (hQueue : c.queue = snapshot :: rest) :
    ({ c with queue := rest, followed := c.followed ++ [snapshot] } : Client).Ordered
      sent := by
  have hFollowed := h.followed
  have hEnd := h.queue
  have hRoom := h.room
  rw [hQueue] at hFollowed hEnd hRoom
  exact ⟨by simpa using hFollowed, (List.suffix_cons snapshot rest).trans hEnd,
    (Nat.le_succ _).trans hRoom⟩

theorem World.Ordered.setClient {w : World κ} (h : w.Ordered) (k : κ) {c : Client}
    (hClient : c.subscribed = true → c.Ordered w.sent) : (w.setClient k c).Ordered := by
  refine ⟨h.sorted, h.stored, ?_⟩
  intro k' hSub
  rcases eq_or_ne k' k with rfl | hNe
  · simp only [World.setClient, Function.update_self] at hSub ⊢
    exact hClient hSub
  · simp only [World.setClient, Function.update_of_ne hNe] at hSub ⊢
    exact h.clients k' hSub

omit [DecidableEq κ] in
/-- A turn that leaves a snapshot unsent, or begins one. -/
theorem World.Ordered.dropRead {w : World κ} (h : w.Ordered) (finished : Nat) {phase : Phase}
    (hRead : phase.read = []) :
    ({ w with finished := finished, phase := phase } : World κ).Ordered := by
  refine ⟨?_, ?_, h.clients⟩
  · simpa [hRead] using (List.pairwise_append.mp h.sorted).1
  · intro part hPart
    exact h.stored part (List.mem_append_left _ (by simpa [hRead] using hPart))

theorem World.ordered_step {w w' : World κ} (h : w.Ordered) (hStep : Step w w') :
    w'.Ordered := by
  cases hStep with
  | write =>
      exact ⟨h.sorted, fun part hPart => (h.stored part hPart).trans (Nat.le_succ _),
        h.clients⟩
  | record _ => exact h.dropRead w.finished rfl
  | skip _ _ => exact h.dropRead _ rfl
  | build _ => exact h.dropRead w.finished rfl
  | @read at' read hPhase _ =>
      have hSorted := h.sorted
      have hStored := h.stored
      rw [hPhase] at hSorted hStored
      refine ⟨?_, ?_, h.clients⟩
      · rw [Phase.read, ← List.append_assoc, List.pairwise_append]
        refine ⟨hSorted, List.pairwise_singleton _ _, ?_⟩
        rintro part hPart last hLast
        exact List.mem_singleton.mp hLast ▸ hStored part hPart
      · intro part hPart
        rw [Phase.read, ← List.append_assoc, List.mem_append] at hPart
        exact hPart.elim (hStored part) fun hLast => (List.mem_singleton.mp hLast).le
  | @broadcast at' read hPhase _ =>
      have hSorted := h.sorted
      have hStored := h.stored
      rw [hPhase] at hSorted hStored
      refine ⟨by simpa [Phase.read] using hSorted, by simpa [Phase.read] using hStored, ?_⟩
      intro k hSub
      have hWas : (w.clients k).subscribed = true := by
        simp only [Client.post] at hSub
        split at hSub <;> exact hSub
      exact (h.clients k hWas).post hWas read
  | fail => exact h.dropRead w.finished rfl
  | subscribe k _ =>
      exact h.setClient k fun _ => ⟨by simp, by simp, by simp⟩
  | readFirst _ _ =>
      exact h.setClient _ fun hSub => ⟨(h.clients _ hSub).1, (h.clients _ hSub).2,
        (h.clients _ hSub).3⟩
  | sendFirst _ _ =>
      exact h.setClient _ fun hSub => ⟨(h.clients _ hSub).1, (h.clients _ hSub).2,
        (h.clients _ hSub).3⟩
  | failFirst _ =>
      exact h.setClient _ fun hSub => ⟨(h.clients _ hSub).1, (h.clients _ hSub).2,
        (h.clients _ hSub).3⟩
  | send _ hQueue => exact h.setClient _ fun hSub => (h.clients _ hSub).send hQueue
  | leave k => exact h.setClient k fun hSub => absurd hSub (by simp [Client.gone])

theorem World.ordered_of_reachable {w : World κ} (h : Reachable w) : w.Ordered := by
  induction h with
  | start => exact ⟨by simp [World.start, Phase.read], by simp [World.start, Phase.read],
      fun k hSub => absurd hSub (by simp [World.start, Client.gone])⟩
  | step _ hStep ih => exact World.ordered_step ih hStep

/-- A client is sent the broadcasts in their order, none of them twice, with at most four
waiting, and these the newest; and no broadcast it is sent reads from before an earlier one. -/
theorem live_frames_ordered {w : World κ} (hReach : Reachable w) {k : κ}
    (hSub : (w.clients k).subscribed = true) :
    ((w.clients k).followed ++ (w.clients k).queue).Sublist w.sent ∧
      (w.clients k).queue <:+ w.sent ∧ (w.clients k).queue.length ≤ maxsize ∧
      ((w.clients k).followed ++ (w.clients k).queue).flatten.Pairwise (· ≤ ·) := by
  have hOrdered := World.ordered_of_reachable hReach
  have hClient := hOrdered.clients k hSub
  have hSent : w.sent.flatten.Pairwise (· ≤ ·) :=
    (List.pairwise_append.mp hOrdered.sorted).1
  exact ⟨hClient.followed, hClient.queue, hClient.room,
    hSent.sublist hClient.followed.flatten⟩

theorem live_frames_ordered_followed : ∃ w : World Unit, w.sent = [[1, 1, 1, 1]] ∧
    ((w.clients ()).followed ++ (w.clients ()).queue).Sublist w.sent ∧
      (w.clients ()).queue <:+ w.sent ∧ (w.clients ()).queue.length ≤ maxsize ∧
      ((w.clients ()).followed ++ (w.clients ()).queue).flatten.Pairwise (· ≤ ·) := by
  obtain ⟨w, hReach, -, hSub, -, -, hSent⟩ := reachable_followed
  exact ⟨w, hSent, live_frames_ordered hReach hSub⟩

end LiveStream
