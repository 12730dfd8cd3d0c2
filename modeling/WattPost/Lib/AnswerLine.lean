import WattPost.Lib.Runs

/-! A line between a requester and a server. The server handles the frames in their
order and the bytes of its answers arrive in that order, in pieces and at any time, so
that an answer may come after the requester gave up and sent another frame. Every byte
carries the number of the request it answers, which neither side can see. -/
namespace AnswerLine

/-- What a server answers to a frame, if anything, and how it changes by itself. -/
structure Server (β σ ε : Type) where
  serve : σ → List β → Option (List β) × σ
  evolve : ε → σ → σ

/-- A byte of the answer to the request of that number. -/
structure Octet (β : Type) where
  origin : ℕ
  byte : β
deriving DecidableEq

variable {β σ ε : Type}

def octets (k : ℕ) (answer : List β) : List (Octet β) := answer.map (Octet.mk k)

@[simp] theorem length_octets (k : ℕ) (answer : List β) :
    (octets k answer).length = answer.length := List.length_map _

@[simp] theorem map_byte_octets (k : ℕ) (answer : List β) :
    (octets k answer).map Octet.byte = answer := by
  simp [octets, Function.comp_def]

theorem origin_of_mem_octets {k : ℕ} {answer : List β} {o : Octet β} (h : o ∈ octets k answer) :
    o.origin = k := by
  obtain ⟨_, _, rfl⟩ := List.mem_map.mp h
  rfl

/-- A frame that was handled, with the state in which the server took it. -/
structure Handled (β σ : Type) where
  number : ℕ
  frame : List β
  before : σ

/-- The frames on the way to the server, the bytes on the way back, and those that have
arrived since the requester emptied its buffer. `handled` is the history. -/
structure State (β σ : Type) where
  server : σ
  sent : ℕ
  inbox : List (ℕ × List β)
  line : List (Octet β)
  buf : List (Octet β)
  handled : List (Handled β σ)

def State.start (server : σ) : State β σ := ⟨server, 0, [], [], [], []⟩

/-- What happens on the line: the next frame is handled, and its answer goes on its way
or is lost; the next frame is lost; the next `n` bytes arrive; the server changes. -/
inductive Event (ε : Type) where
  | serve (answered : Bool)
  | lose
  | arrive (n : ℕ)
  | evolve (e : ε)

/-- The server takes the frame of that number. -/
def State.take (server : Server β σ ε) (answered : Bool) (s : State β σ) (k : ℕ)
    (frame : List β) (rest : List (ℕ × List β)) : State β σ :=
  { s with
    server := (server.serve s.server frame).2
    inbox := rest
    line := s.line ++
      (if answered then octets k ((server.serve s.server frame).1.getD []) else [])
    handled := s.handled ++ [⟨k, frame, s.server⟩] }

def step (server : Server β σ ε) (s : State β σ) : Event ε → State β σ
  | .serve answered =>
      match s.inbox with
      | [] => s
      | (k, frame) :: rest => s.take server answered k frame rest
  | .lose => { s with inbox := s.inbox.tail }
  | .arrive n => { s with line := s.line.drop n, buf := s.buf ++ s.line.take n }
  | .evolve e => { s with server := server.evolve e s.server }

/-- The requester empties its buffer and sends a frame. -/
def send (frame : List β) (s : State β σ) : State β σ :=
  { s with sent := s.sent + 1, inbox := s.inbox ++ [(s.sent, frame)], buf := [] }

/-- A frame is sent, and then that happens. -/
def wait (server : Server β σ ε) (frame : List β) (events : List (Event ε)) (s : State β σ) :
    State β σ :=
  Runs.run (step server) (send frame s) events

/-- All bytes since the last frame: those that have arrived and those on their way. -/
def stream (s : State β σ) : List (Octet β) := s.buf ++ s.line

variable {server : Server β σ ε} {s : State β σ}

/-- The server answered this to the request of that number. -/
def Given (server : Server β σ ε) (s : State β σ) (k : ℕ) (frame answer : List β) : Prop :=
  ∃ before, ⟨k, frame, before⟩ ∈ s.handled ∧ (server.serve before frame).1 = some answer

/-! ### Numbers -/

theorem stream_arrive (server : Server β σ ε) (s : State β σ) (n : ℕ) :
    stream (step server s (.arrive n)) = stream s := by
  simp only [stream, step, List.append_assoc, List.take_append_drop]

theorem stream_take (answered : Bool) (k : ℕ) (frame : List β) (rest : List (ℕ × List β)) :
    stream (s.take server answered k frame rest) = stream s ++
      (if answered then octets k ((server.serve s.server frame).1.getD []) else []) := by
  rw [stream, State.take, ← List.append_assoc]
  rfl

/-- The bytes and the frames on the line belong to requests of such numbers. -/
structure OnLine (P : ℕ → Prop) (s : State β σ) : Prop where
  stream : ∀ o ∈ stream s, P o.origin
  inbox : ∀ p ∈ s.inbox, P p.1

theorem OnLine.take {P : ℕ → Prop} {answered : Bool} {k : ℕ} {frame : List β}
    {rest : List (ℕ × List β)} (h : OnLine P s) (hInbox : s.inbox = (k, frame) :: rest) :
    OnLine P (s.take server answered k frame rest) where
  stream o ho := by
    rw [stream_take] at ho
    rcases List.mem_append.mp ho with ho | ho
    · exact h.stream o ho
    · split_ifs at ho
      · rw [origin_of_mem_octets ho]
        exact h.inbox (k, frame) (hInbox ▸ List.mem_cons_self)
      · cases ho
  inbox p hp := h.inbox p (hInbox ▸ List.mem_cons_of_mem _ hp)

theorem OnLine.step {P : ℕ → Prop} (h : OnLine P s) (event : Event ε) :
    OnLine P (step server s event) := by
  cases event with
  | serve answered =>
      rw [AnswerLine.step]
      split
      · exact h
      · next hInbox => exact h.take hInbox
  | lose => exact ⟨h.stream, fun p hp => h.inbox p (List.mem_of_mem_tail hp)⟩
  | arrive n =>
      refine ⟨?_, h.inbox⟩
      rw [stream_arrive]
      exact h.stream
  | evolve e => exact ⟨h.stream, h.inbox⟩

/-- Only requests that were made have numbers. -/
structure Numbered (s : State β σ) : Prop where
  onLine : OnLine (· < s.sent) s
  handled : ∀ e ∈ s.handled, e.number < s.sent

theorem numbered_start (a : σ) : Numbered (State.start a : State β σ) := ⟨⟨nofun, nofun⟩, nofun⟩

theorem sent_step (event : Event ε) : (step server s event).sent = s.sent := by
  cases event with
  | serve answered =>
      rw [step]
      split <;> rfl
  | lose => rfl
  | arrive n => rfl
  | evolve e => rfl

theorem Numbered.step (h : Numbered s) (event : Event ε) : Numbered (step server s event) := by
  refine ⟨by rw [sent_step]; exact h.onLine.step event, ?_⟩
  rw [sent_step]
  cases event with
  | serve answered =>
      rw [AnswerLine.step]
      split
      · exact h.handled
      · next k frame rest hInbox =>
          intro e he
          rcases List.mem_append.mp he with he | he
          · exact h.handled e he
          · rw [List.mem_singleton.mp he]
            exact h.onLine.inbox (k, frame) (hInbox ▸ List.mem_cons_self)
  | lose => exact h.handled
  | arrive n => exact h.handled
  | evolve e => exact h.handled

theorem Numbered.send (h : Numbered s) (frame : List β) : Numbered (send frame s) where
  onLine := {
    stream o ho := Nat.lt_succ_of_lt (h.onLine.stream o (List.mem_append_right _ ho))
    inbox p hp := by
      rcases List.mem_append.mp hp with hp | hp
      · exact Nat.lt_succ_of_lt (h.onLine.inbox p hp)
      · rw [List.mem_singleton.mp hp]
        exact Nat.lt_succ_self _ }
  handled e he := Nat.lt_succ_of_lt (h.handled e he)

theorem Numbered.run (h : Numbered s) (events : List (Event ε)) :
    Numbered (Runs.run (AnswerLine.step server) s events) :=
  Runs.run_preserves (fun _ event hs => hs.step event) h events

theorem Numbered.wait (h : Numbered s) (frame : List β) (events : List (Event ε)) :
    Numbered (wait server frame events s) := (h.send frame).run events

/-! ### While a request waits -/

/-- Where the last request stands. Its frame waits behind those of other requests, or
it was lost, or it was handled and nothing but its answer comes after the answers to the
others. -/
inductive Waiting (server : Server β σ ε) (k : ℕ) (frame : List β) (s : State β σ) : Prop where
  | pending (earlier : List (ℕ × List β)) (hInbox : s.inbox = earlier ++ [(k, frame)])
      (hEarlier : ∀ p ∈ earlier, p.1 ≠ k) (hStream : ∀ o ∈ stream s, o.origin ≠ k)
      (hHandled : ∀ e ∈ s.handled, e.number ≠ k)
  | lost (hInbox : s.inbox = []) (hStream : ∀ o ∈ stream s, o.origin ≠ k)
      (hHandled : ∀ e ∈ s.handled, e.number ≠ k)
  | served (others : List (Handled β σ)) (before : σ) (old own : List (Octet β))
      (hInbox : s.inbox = []) (hHandled : s.handled = others ++ [⟨k, frame, before⟩])
      (hOthers : ∀ e ∈ others, e.number ≠ k) (hStream : stream s = old ++ own)
      (hOld : ∀ o ∈ old, o.origin ≠ k)
      (hOwn : own = [] ∨ own = octets k ((server.serve before frame).1.getD []))

theorem waiting_send (h : Numbered s) (frame : List β) :
    Waiting server s.sent frame (send frame s) :=
  .pending s.inbox rfl (fun p hp => Nat.ne_of_lt (h.onLine.inbox p hp))
    (fun o ho => Nat.ne_of_lt (h.onLine.stream o (List.mem_append_right _ ho)))
    (fun e he => Nat.ne_of_lt (h.handled e he))

/-- The frame of another request is handled. -/
theorem origin_of_mem_stream_take {k k' : ℕ} {answered : Bool} {frame : List β}
    {rest : List (ℕ × List β)} (hStream : ∀ o ∈ stream s, o.origin ≠ k) (hk : k' ≠ k) :
    ∀ o ∈ stream (s.take server answered k' frame rest), o.origin ≠ k := by
  intro o ho
  rw [stream_take] at ho
  rcases List.mem_append.mp ho with ho | ho
  · exact hStream o ho
  · split_ifs at ho
    · rw [origin_of_mem_octets ho]
      exact hk
    · cases ho

theorem Waiting.serve {k : ℕ} {frame : List β} (h : Waiting server k frame s) (answered : Bool) :
    Waiting server k frame (AnswerLine.step server s (.serve answered)) := by
  cases h with
  | lost hInbox hStream hHandled =>
      rw [AnswerLine.step, hInbox]
      exact .lost hInbox hStream hHandled
  | served others before old own hInbox hHandled hOthers hStream hOld hOwn =>
      rw [AnswerLine.step, hInbox]
      exact .served others before old own hInbox hHandled hOthers hStream hOld hOwn
  | pending earlier hInbox hEarlier hStream hHandled =>
      rw [AnswerLine.step, hInbox]
      cases earlier with
      | nil =>
          refine .served s.handled s.server (stream s)
            (if answered then octets k ((server.serve s.server frame).1.getD []) else [])
            rfl rfl hHandled (stream_take answered k frame []) hStream ?_
          cases answered with
          | false => exact Or.inl rfl
          | true => exact Or.inr rfl
      | cons p earlier =>
          have hp := hEarlier p List.mem_cons_self
          refine .pending earlier rfl (fun q hq => hEarlier q (List.mem_cons_of_mem _ hq))
            (origin_of_mem_stream_take hStream hp) (fun e he => ?_)
          rcases List.mem_append.mp he with he | he
          · exact hHandled e he
          · rw [List.mem_singleton.mp he]
            exact hp

theorem Waiting.step {k : ℕ} {frame : List β} (h : Waiting server k frame s) (event : Event ε) :
    Waiting server k frame (AnswerLine.step server s event) := by
  cases event with
  | serve answered => exact h.serve answered
  | lose =>
      cases h with
      | pending earlier hInbox hEarlier hStream hHandled =>
          cases earlier with
          | nil => exact .lost (congrArg List.tail hInbox) hStream hHandled
          | cons p earlier =>
              exact .pending earlier (congrArg List.tail hInbox)
                (fun q hq => hEarlier q (List.mem_cons_of_mem _ hq)) hStream hHandled
      | lost hInbox hStream hHandled => exact .lost (congrArg List.tail hInbox) hStream hHandled
      | served others before old own hInbox hHandled hOthers hStream hOld hOwn =>
          exact .served others before old own (congrArg List.tail hInbox) hHandled hOthers hStream
            hOld hOwn
  | arrive n =>
      have hSame := stream_arrive server s n
      cases h with
      | pending earlier hInbox hEarlier hStream hHandled =>
          exact .pending earlier hInbox hEarlier (hSame ▸ hStream) hHandled
      | lost hInbox hStream hHandled => exact .lost hInbox (hSame ▸ hStream) hHandled
      | served others before old own hInbox hHandled hOthers hStream hOld hOwn =>
          exact .served others before old own hInbox hHandled hOthers (hSame.trans hStream) hOld
            hOwn
  | evolve e =>
      cases h with
      | pending earlier hInbox hEarlier hStream hHandled =>
          exact .pending earlier hInbox hEarlier hStream hHandled
      | lost hInbox hStream hHandled => exact .lost hInbox hStream hHandled
      | served others before old own hInbox hHandled hOthers hStream hOld hOwn =>
          exact .served others before old own hInbox hHandled hOthers hStream hOld hOwn

theorem waiting_wait (h : Numbered s) (frame : List β) (events : List (Event ε)) :
    Waiting server s.sent frame (wait server frame events s) :=
  Runs.run_preserves (fun _ event hs => hs.step event) (waiting_send h frame) events

/-- When the first byte that arrives is of the own answer, nothing else arrives. -/
theorem Waiting.stream_of_head {k : ℕ} {frame : List β} (h : Waiting server k frame s)
    {o : Octet β} (hHead : s.buf.head? = some o) (hOwn : o.origin = k) :
    ∃ others before, s.handled = others ++ [⟨k, frame, before⟩] ∧
      (∀ e ∈ others, e.number ≠ k) ∧
      stream s = octets k ((server.serve before frame).1.getD []) := by
  obtain ⟨rest, hBuf⟩ := List.head?_eq_some_iff.mp hHead
  have hFirst : stream s = o :: (rest ++ s.line) := by rw [stream, hBuf, List.cons_append]
  have hMem : o ∈ stream s := hFirst ▸ List.mem_cons_self
  cases h with
  | pending earlier hInbox hEarlier hStream hHandled => exact absurd hOwn (hStream o hMem)
  | lost hInbox hStream hHandled => exact absurd hOwn (hStream o hMem)
  | served others before old own hInbox hHandled hOthers hStream hOld hOwned =>
      cases old with
      | cons first old =>
          rw [hFirst, List.cons_append] at hStream
          exact absurd ((List.cons.inj hStream).1 ▸ hOwn) (hOld first List.mem_cons_self)
      | nil =>
          rcases hOwned with rfl | rfl
          · rw [hFirst] at hStream
            cases hStream
          · exact ⟨others, before, hHandled, hOthers, hStream⟩

/-- The requester waits for `n` bytes, and answers are no longer than that. Then the
bytes that complete the wait are the own answer, as soon as the first one is of it. -/
theorem reply_of_head (hNumbered : Numbered s) {frame : List β} {events : List (Event ε)} {n : ℕ}
    (hFits : ∀ before answer, (server.serve before frame).1 = some answer → answer.length ≤ n)
    {o : Octet β} (hHead : (wait server frame events s).buf.head? = some o)
    (hOwn : o.origin = s.sent) (hEnough : n ≤ (wait server frame events s).buf.length) :
    ∃ others before answer,
      (wait server frame events s).handled = others ++ [⟨s.sent, frame, before⟩] ∧
      (∀ e ∈ others, e.number ≠ s.sent) ∧ (server.serve before frame).1 = some answer ∧
      answer.length = n ∧
      (wait server frame events s).buf.take n = octets s.sent answer := by
  obtain ⟨others, before, hHandled, hOthers, hStream⟩ :=
    (waiting_wait hNumbered frame events).stream_of_head hHead hOwn
  cases hAnswer : (server.serve before frame).1 with
  | none =>
      obtain ⟨rest, hBuf⟩ := List.head?_eq_some_iff.mp hHead
      rw [hAnswer, stream, hBuf] at hStream
      cases hStream
  | some answer =>
      rw [hAnswer, Option.getD_some, stream] at hStream
      have hLength := congrArg List.length hStream
      rw [List.length_append, length_octets] at hLength
      have hFit := hFits before answer hAnswer
      have hLine : (wait server frame events s).line = [] :=
        List.length_eq_zero_iff.mp (by omega)
      rw [hLine, List.append_nil] at hStream
      refine ⟨others, before, answer, hHandled, hOthers, hAnswer, ?_, ?_⟩
      · rw [hLine, List.length_nil] at hLength
        omega
      · rw [← hStream, List.take_of_length_le]
        rw [hLine, List.length_nil] at hLength
        omega

/-! ### What the server keeps -/

/-- A property of the server that lasts: no frame and no change undoes it. -/
structure Lasting (server : Server β σ ε) (P : σ → Prop) : Prop where
  serve : ∀ a frame, P a → P (server.serve a frame).2
  evolve : ∀ e a, P a → P (server.evolve e a)

/-- What lasts and came about with a frame is still so. -/
def Remembers (server : Server β σ ε) (s : State β σ) : Prop :=
  ∀ e ∈ s.handled, ∀ P, Lasting server P → P (server.serve e.before e.frame).2 → P s.server

theorem remembers_start (server : Server β σ ε) (a : σ) :
    Remembers server (State.start a : State β σ) := nofun

theorem Remembers.step (h : Remembers server s) (event : Event ε) :
    Remembers server (AnswerLine.step server s event) := by
  cases event with
  | serve answered =>
      rw [AnswerLine.step]
      split
      · exact h
      · next k frame rest hInbox =>
          intro e he P hP hAfter
          rcases List.mem_append.mp he with he | he
          · exact hP.serve s.server frame (h e he P hP hAfter)
          · rw [List.mem_singleton.mp he] at hAfter
            exact hAfter
  | lose => exact h
  | arrive n => exact h
  | evolve e' =>
      intro e he P hP hAfter
      exact hP.evolve e' s.server (h e he P hP hAfter)

theorem Remembers.run (h : Remembers server s) (events : List (Event ε)) :
    Remembers server (Runs.run (AnswerLine.step server) s events) :=
  Runs.run_preserves (fun _ event hs => hs.step event) h events

theorem Remembers.wait (h : Remembers server s) (frame : List β) (events : List (Event ε)) :
    Remembers server (wait server frame events s) :=
  Runs.run_preserves (fun _ event hs => hs.step event) (show Remembers server (send frame s) from h)
    events

/-- What lasts is so after any run. -/
theorem Lasting.run {P : σ → Prop} (hP : Lasting server P) (h : P s.server)
    (events : List (Event ε)) : P (Runs.run (AnswerLine.step server) s events).server := by
  have hStep : ∀ (s : State β σ) (event : Event ε), P s.server →
      P (AnswerLine.step server s event).server := by
    intro s event hs
    cases event with
    | serve answered =>
        rw [AnswerLine.step]
        split
        · exact hs
        · next frame rest hInbox => exact hP.serve s.server frame hs
    | lose => exact hs
    | arrive n => exact hs
    | evolve e => exact hP.evolve e s.server hs
  exact Runs.run_preserves hStep h events

/-- What the server answered, it has answered. -/
theorem Given.run {k : ℕ} {frame answer : List β} (h : Given server s k frame answer)
    (events : List (Event ε)) :
    Given server (Runs.run (AnswerLine.step server) s events) k frame answer := by
  have hStep : ∀ (s : State β σ) (event : Event ε), Given server s k frame answer →
      Given server (AnswerLine.step server s event) k frame answer := by
    rintro s event ⟨before, hMem, hAnswer⟩
    refine ⟨before, ?_, hAnswer⟩
    cases event with
    | serve answered =>
        rw [AnswerLine.step]
        split
        · exact hMem
        · exact List.mem_append_left _ hMem
    | lose => exact hMem
    | arrive n => exact hMem
    | evolve e => exact hMem
  exact Runs.run_preserves hStep h events

/-- With nothing in front of it, a frame is the next one that is handled. -/
theorem given_wait_serve (hInbox : s.inbox = []) {frame answer : List β}
    (hAnswer : (server.serve s.server frame).1 = some answer) (answered : Bool)
    (events : List (Event ε)) :
    Given server (wait server frame (.serve answered :: events) s) s.sent frame answer := by
  have hServed : Given server (AnswerLine.step server (send frame s) (.serve answered)) s.sent
      frame answer := by
    rw [AnswerLine.step, send, hInbox]
    exact ⟨s.server, List.mem_append_right _ (List.mem_singleton_self _), hAnswer⟩
  exact hServed.run events

/-! ### Quiet lines and late answers -/

/-- Nothing is owed to earlier requests. -/
def Quiet (s : State β σ) : Prop := s.inbox = [] ∧ s.line = []

/-- After a quiet moment, only the own answer can arrive. -/
theorem Quiet.origin_of_mem_buf (hQuiet : Quiet s) {frame : List β} {events : List (Event ε)}
    {o : Octet β} (h : o ∈ (wait server frame events s).buf) : o.origin = s.sent := by
  have hSend : OnLine (· = s.sent) (send frame s) := by
    refine ⟨fun o ho => ?_, fun p hp => ?_⟩
    · rw [stream, send, hQuiet.2] at ho
      cases ho
    · rw [send, hQuiet.1] at hp
      rw [List.mem_singleton.mp hp]
  have hWait : OnLine (· = s.sent) (wait server frame events s) :=
    Runs.run_preserves (fun _ event hs => hs.step event) hSend events
  exact hWait.stream o (List.mem_append_left _ h)

/-- What is left of an earlier answer arrives first. -/
theorem buf_wait_late (server : Server β σ ε) (late rest : List (Octet β))
    (hLine : s.line = late ++ rest) (frame : List β) :
    (wait server frame [.arrive late.length] s).buf = late := by
  simp [wait, send, step, Runs.run, hLine]

end AnswerLine
