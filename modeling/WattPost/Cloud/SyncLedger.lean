import WattPost.Cloud.SyncWorld

/-! What a run of the sync keeps true at every await. A ledger says what is
owed to the cloud and when it is settled; the invariant is that everything owed
up to the persisted watermark is settled with the identity that the watermark
stands for. -/
namespace WattPost.Cloud

open Keyed Process Storage

variable {V : Type} [SqlReal V]

/-- What the store owes to the cloud. An item lies in a bucket. It is carried by
fetched rows when settling them settles it. -/
structure Ledger (A : Setting V) where
  Item : Type
  bucket : Item → Int
  Inv : Int → StoreState V → Prop
  Owed : StoreState V → Item → Prop
  Carries : Db V → List (Row V) → Item → Prop
  Settled : List (PostRecord V) → String → Item → Prop
  inv_env : ∀ {now st st'}, Inv now st → A.env st st' → Inv now st'
  inv_commit : ∀ {now st}, Inv now st → Inv now st.commit
  inv_restart : ∀ {now st}, Inv now st → Inv now st.restart
  inv_begins : ∀ {s cfg}, Inv s.run.now s.store → A.begins s cfg →
    s.run.now ≤ cfg.now ∧ Inv cfg.now s.store
  -- what comes to be owed is not yet closed for the run
  owed_env : ∀ {now st st' i}, Inv now st → A.env st st' → Owed st' i →
    Owed st i ∨ now < bucket i + 60
  owed_commit : ∀ {st i}, Owed st.commit i → Owed st i
  owed_restart : ∀ {st i}, Owed st.restart i → Owed st i
  settled_append : ∀ {posts more identity i}, Settled posts identity i →
    Settled (posts ++ more) identity i
  settled_of_carries : ∀ {posts identity source rows i}, Carries source rows i →
    (∀ r ∈ rows, RowSettled posts identity source r) → Settled posts identity i
  carries_of_fetch : ∀ {cfg st afterTs last i}, Inv cfg.now st → A.fetches cfg st afterTs →
    (closedRollupsAfter rollupWindowS st.retention st.visible afterTs cfg.now
      batchRows).getLast? = some last →
    Owed st i → afterTs < bucket i → bucket i ≤ bucketTs last →
    Carries st.visible (closedRollupsAfter rollupWindowS st.retention st.visible afterTs cfg.now
      batchRows) i

section Invariant

variable {A : Setting V} (L : Ledger A)

/-- The invariant of every state. -/
structure Good (s : World V) : Prop where
  inv : L.Inv s.run.now s.store
  writer : s.owner = s.run.identity → s.writer = s.run.identity
  bound : s.writer = s.owner → ∀ w, s.kvWatermark = some (.int w) →
    w ≤ s.start ∨ w + 60 ≤ s.run.now
  settled : s.writer = s.owner → ∀ w, s.kvWatermark = some (.int w) → ∀ i, L.Owed s.store i →
    s.start < L.bucket i → L.bucket i ≤ w → L.Settled s.posts s.owner i

/-- The run may move the watermark to `w`. -/
structure Earned (s : World V) (w : Int) : Prop where
  bound : s.owner = s.run.identity → w ≤ s.base ∨ w + 60 ≤ s.run.now
  settled : s.owner = s.run.identity → ∀ i, L.Owed s.store i →
    s.base < L.bucket i → L.bucket i ≤ w → L.Settled s.posts s.run.identity i

/-- The run may move the watermark to `w` once these rows are settled. -/
structure Pending (s : World V) (rows : List (Row V)) (w : Int) : Prop where
  bound : w + 60 ≤ s.run.now
  settled : s.owner = s.run.identity → ∀ i, L.Owed s.store i →
    s.base < L.bucket i → L.bucket i ≤ w →
      L.Settled s.posts s.run.identity i ∨ L.Carries s.source rows i

/-- Steps that write neither `kv` row and fetch nothing. -/
structure Quiet (s s' : World V) : Prop where
  run : s'.run = s.run
  kvIdentity : s'.kvIdentity = s.kvIdentity
  kvWatermark : s'.kvWatermark = s.kvWatermark
  source : s'.source = s.source
  start : s'.start = s.start
  writer : s'.writer = s.writer
  posts : ∃ more, s'.posts = s.posts ++ more
  inv : L.Inv s'.run.now s'.store
  owed : ∀ i, L.Owed s'.store i → L.Owed s.store i ∨ s.run.now < L.bucket i + 60

variable {L} {s s' s'' : World V} {w : Int} {rows : List (Row V)}

omit [SqlReal V] in
theorem base_congr (hRun : s'.run = s.run) (hWatermark : s'.kvWatermark = s.kvWatermark)
    (hStart : s'.start = s.start) : s'.base = s.base := by
  rw [World.base, World.base, World.usable, World.usable, hRun, hWatermark, hStart]

namespace Quiet

theorem base_eq (h : Quiet L s s') : s'.base = s.base := base_congr h.run h.kvWatermark h.start

theorem owner_eq (h : Quiet L s s') : s'.owner = s.owner := by
  rw [World.owner, World.owner, h.kvIdentity]

theorem refl (h : Good L s) : Quiet L s s :=
  ⟨rfl, rfl, rfl, rfl, rfl, rfl, ⟨[], by simp⟩, h.inv, fun _ => Or.inl⟩

theorem trans (h : Quiet L s s') (h' : Quiet L s' s'') : Quiet L s s'' := by
  obtain ⟨more, hMore⟩ := h.posts
  obtain ⟨more', hMore'⟩ := h'.posts
  refine ⟨h'.run.trans h.run, h'.kvIdentity.trans h.kvIdentity,
    h'.kvWatermark.trans h.kvWatermark, h'.source.trans h.source, h'.start.trans h.start,
    h'.writer.trans h.writer, ⟨more ++ more', ?_⟩, h'.inv, ?_⟩
  · rw [hMore', hMore, List.append_assoc]
  · intro i hi
    rcases h'.owed i hi with hi | hi
    · exact h.owed i hi
    · exact Or.inr (h.run ▸ hi)

theorem settled (h : Quiet L s s') {identity : String} {i : L.Item}
    (hi : L.Settled s.posts identity i) : L.Settled s'.posts identity i := by
  obtain ⟨more, hMore⟩ := h.posts
  rw [hMore]
  exact L.settled_append hi

theorem good (h : Quiet L s s') (hGood : Good L s) : Good L s' := by
  refine ⟨h.inv, ?_, ?_, ?_⟩
  · rw [h.owner_eq, h.writer, h.run]
    exact hGood.writer
  · rw [h.owner_eq, h.writer, h.kvWatermark, h.start, h.run]
    exact hGood.bound
  · rw [h.owner_eq, h.writer, h.kvWatermark, h.start]
    intro hWriter w hw i hi hStart hle
    rcases h.owed i hi with hOld | hNew
    · exact h.settled (hGood.settled hWriter w hw i hOld hStart hle)
    · have := hGood.bound hWriter w hw
      omega

theorem earned (h : Quiet L s s') (hEarned : Earned L s w) : Earned L s' w := by
  constructor
  · rw [h.owner_eq, h.base_eq, h.run]
    exact hEarned.bound
  · rw [h.owner_eq, h.base_eq, h.run]
    intro hOwner i hi hBase hle
    rcases h.owed i hi with hOld | hNew
    · exact h.settled (hEarned.settled hOwner i hOld hBase hle)
    · have := hEarned.bound hOwner
      omega

theorem pending (h : Quiet L s s') (hPending : Pending L s rows w) : Pending L s' rows w := by
  constructor
  · rw [h.run]
    exact hPending.bound
  · rw [h.owner_eq, h.base_eq, h.run, h.source]
    intro hOwner i hi hBase hle
    rcases h.owed i hi with hOld | hNew
    · rcases hPending.settled hOwner i hOld hBase hle with hSettled | hCarries
      · exact Or.inl (h.settled hSettled)
      · exact Or.inr hCarries
    · have := hPending.bound
      omega

theorem rowSettled (h : Quiet L s s') {identity : String} {source : Db V} {r : Row V}
    (hRow : RowSettled s.posts identity source r) : RowSettled s'.posts identity source r := by
  obtain ⟨more, hMore⟩ := h.posts
  rw [hMore]
  exact hRow.append

/-- Between two awaits only the store changes. -/
theorem of_env (hGood : Good L s) {st : StoreState V} (hEnv : A.env s.store st) :
    Quiet L s { s with store := st } :=
  ⟨rfl, rfl, rfl, rfl, rfl, rfl, ⟨[], by simp⟩, L.inv_env hGood.inv hEnv,
    fun _ => L.owed_env hGood.inv hEnv⟩

end Quiet

theorem Pending.earned (h : Pending L s rows w)
    (hRows : ∀ r ∈ rows, RowSettled s.posts s.run.identity s.source r) : Earned L s w := by
  refine ⟨fun _ => Or.inr h.bound, ?_⟩
  intro hOwner i hi hBase hle
  rcases h.settled hOwner i hi hBase hle with hSettled | hCarries
  · exact hSettled
  · exact L.settled_of_carries hCarries hRows

end Invariant

/-! ### Effects -/

section Effects

variable {A : Setting V} {L : Ledger A} {s s' : World V}

/-- The effects that write neither `kv` row and fetch nothing. -/
def Effect.quiet : Effect V → Bool
  | .kvSetIdentity _ => false
  | .kvSetWatermark _ => false
  | .closedRollupsAfter _ => false
  | _ => true

theorem quiet_of_handler (hGood : Good L s) {e : Effect V} (he : e.quiet = true) {a : e.Answer}
    (h : handler A e s a s') : Quiet L s s' := by
  obtain ⟨st, hEnv, _, _, rfl⟩ := h
  have hQuiet := Quiet.of_env hGood hEnv
  cases e with
  | kvSetIdentity _ => cases he
  | kvSetWatermark _ => cases he
  | closedRollupsAfter _ => cases he
  | post rows =>
      exact ⟨rfl, rfl, rfl, rfl, rfl, rfl, ⟨_, rfl⟩, hQuiet.inv, hQuiet.owed⟩
  | setPoison p =>
      exact ⟨rfl, rfl, rfl, rfl, rfl, rfl, ⟨[], by simp [World.perform]⟩, hQuiet.inv, hQuiet.owed⟩
  | _ => exact hQuiet

/-- Writing a watermark that the run has earned. -/
theorem good_of_kvSetWatermark (hGood : Good L s) {w : Int} (hEarned : Earned L s w)
    (hBound : w + 60 ≤ s.run.now) {a : Unit} (h : handler A (.kvSetWatermark w) s a s') :
    Good L s' ∧ Earned L s' w ∧ s'.run = s.run := by
  obtain ⟨st, hEnv, _, _, rfl⟩ := h
  have hQuiet := Quiet.of_env hGood hEnv
  have hNow := hQuiet.earned hEarned
  have hBase : (World.perform { s with store := st } (.kvSetWatermark w) a).base = s.base := by
    have hle : w ≤ s.run.now := by omega
    have hUsable : (World.perform { s with store := st } (.kvSetWatermark w) a).usable = some w :=
      if_pos hle
    rw [World.base, hUsable]
    rfl
  refine ⟨⟨L.inv_commit hQuiet.inv, ?_, ?_, ?_⟩, ⟨?_, ?_⟩, rfl⟩
  · intro _
    rfl
  · intro _ w' hw'
    cases hw'
    exact Or.inr hBound
  · intro hWriter w' hw' i hi hStart hle
    cases hw'
    have hOwner : s.owner = s.run.identity := hWriter.symm
    have hSettled := hNow.settled hOwner i (L.owed_commit hi) hStart hle
    rw [← hOwner] at hSettled
    exact hSettled
  · exact fun _ => Or.inr hBound
  · rw [hBase]
    intro hOwner i hi hStart hle
    exact hNow.settled hOwner i (L.owed_commit hi) hStart hle

/-- Storing the identity of the run, once the watermark is its own to take. -/
theorem good_of_kvSetIdentity (hGood : Good L s) {a : Unit}
    (h : handler A (.kvSetIdentity s.run.identity) s a s') :
    Good L s' ∧ s'.run = s.run ∧ s'.kvWatermark = s.kvWatermark ∧ s'.start = s.adopted := by
  obtain ⟨st, hEnv, _, _, rfl⟩ := h
  have hQuiet := Quiet.of_env hGood hEnv
  have hStart : ∀ w, s.kvWatermark = some (.int w) → s.adopted = w := by
    intro w hw
    rw [World.adopted, hw]
  refine ⟨⟨L.inv_commit hQuiet.inv, fun _ => rfl, ?_, ?_⟩, rfl, rfl, rfl⟩
  · intro _ w hw
    exact Or.inl (le_of_eq (hStart w hw).symm)
  · intro _ w hw i _ hLt hle
    have hAdopted : s.adopted < L.bucket i := hLt
    rw [hStart w hw] at hAdopted
    omega

end Effects

/-! ### Posts -/

theorem PostOutcome.toExcept_ok {o : PostOutcome} {ack : Json} (h : o.toExcept = .ok ack) :
    ∃ status, o = .replied status (some ack) ∧ status < 400 := by
  cases o with
  | raised what => cases h
  | replied status body =>
      simp only [PostOutcome.toExcept] at h
      split_ifs at h with hStatus
      cases body with
      | none => cases h
      | some ack' =>
          cases h
          exact ⟨status, rfl, by omega⟩

theorem PostOutcome.toExcept_httpStatus {o : PostOutcome} {status : Nat}
    (h : o.toExcept = .error (.httpStatus status)) :
    ∃ body, o = .replied status body ∧ 400 ≤ status := by
  cases o with
  | raised what => cases h
  | replied status' body =>
      simp only [PostOutcome.toExcept] at h
      split_ifs at h with hStatus
      · cases h
        exact ⟨body, rfl, hStatus⟩
      · cases body with
        | none => cases h
        | some ack => cases h

theorem get?_of_ackedExactly {fields : List (String × Json)} {last : Int} {u : Unit}
    (h : ackedExactly fields last = .ok u) :
    Json.get? fields "acked_through" = some (.int last) := by
  rw [ackedExactly] at h
  split at h
  · rename_i top hTop
    split_ifs at h with hEq
    rw [hTop, hEq]
  · cases h

section Posts

variable {A : Setting V} {L : Ledger A} {s : World V}

/-- A post adds itself to the posts and changes nothing else of the sync. -/
theorem safe_post (hGood : Good L s) (rows : List (Row V)) :
    Safe (handler A) (Good L) (post rows) s (fun res s' => Quiet L s s' ∧ ∃ outcome,
      s'.posts = s.posts ++ [⟨s.run.identity, rows, s.source, outcome⟩] ∧
        res = outcome.toExcept) := by
  apply Safe.perform hGood
  intro outcome s' hStep
  have hQuiet := quiet_of_handler hGood rfl hStep
  obtain ⟨st, _, _, _, rfl⟩ := hStep
  exact Safe.pure (hQuiet.good hGood) ⟨hQuiet, outcome, rfl, rfl⟩

omit [SqlReal V] in
theorem delivered_of_ack {s' : World V} {rows : List (Row V)} {hne : rows ≠ []}
    {fields : List (String × Json)} {outcome : PostOutcome} {u : Unit}
    (hPosts : s'.posts = s.posts ++ [⟨s.run.identity, rows, s.source, outcome⟩])
    (hOk : .ok (.obj fields) = outcome.toExcept)
    (hAck : ackedExactly fields (bucketTs (rows.getLast hne)) = .ok u) :
    ∀ r ∈ rows, Delivered s'.posts s.run.identity s.source r := by
  intro r hr
  obtain ⟨status, rfl, hStatus⟩ := PostOutcome.toExcept_ok hOk.symm
  rw [hPosts]
  exact ⟨_, List.mem_append_right _ (List.mem_singleton.mpr rfl), rfl, rfl,
    ⟨status, fields, _, rfl, hStatus, List.getLast?_eq_some_getLast hne,
      get?_of_ackedExactly hAck⟩, hr⟩

omit [SqlReal V] in
/-- A row that the cloud refuses by itself, when it takes the empty post that
follows. -/
theorem refusedAlone_of_control {s₁ s₂ : World V} {r : Row V} {refusal control : PostOutcome}
    {source : Db V} {status : Nat} {ack : Json}
    (hPosts : s₁.posts = s.posts ++ [⟨s.run.identity, [r], s.source, refusal⟩])
    (hRefusal : .error (.httpStatus status) = refusal.toExcept) (hRetry : status ∉ retryableStatus)
    (hPosts₂ : s₂.posts = s₁.posts ++ [⟨s.run.identity, [], source, control⟩])
    (hControl : .ok ack = control.toExcept) :
    RefusedAlone s₂.posts s.run.identity r := by
  obtain ⟨body, hOutcome, hStatus⟩ := PostOutcome.toExcept_httpStatus hRefusal.symm
  obtain ⟨status₂, rfl, hStatus₂⟩ := PostOutcome.toExcept_ok hControl.symm
  refine ⟨s.posts, ⟨s.run.identity, [r], s.source, refusal⟩,
    ⟨s.run.identity, [], source, .replied status₂ (some ack)⟩, [], ?_, rfl, rfl,
    ⟨status, body, hOutcome, hStatus, hRetry⟩, rfl, rfl, ⟨status₂, ack, rfl, hStatus₂⟩⟩
  rw [hPosts₂, hPosts, List.append_assoc]
  rfl

/-- Posting these rows wrote no `kv` row, and they are settled if it went
through. -/
structure Settles {ε α : Type} (L : Ledger A) (s : World V) (rows : List (Row V))
    (out : Except ε α) (s' : World V) : Prop where
  quiet : Quiet L s s'
  settled : ∀ a, out = .ok a → ∀ r ∈ rows, RowSettled s'.posts s.run.identity s.source r

namespace Settles

variable {ε ε' α β : Type} {s₁ s₂ : World V} {rows more : List (Row V)} {out : Except ε α}

theorem error (h : Quiet L s s₁) (e : ε) : Settles L s rows (.error e : Except ε α) s₁ :=
  ⟨h, fun _ hOk => nomatch hOk⟩

/-- What comes before changes neither the identity nor the contents read. -/
theorem after (h : Quiet L s s₁) (hRest : Settles L s₁ rows out s₂) : Settles L s rows out s₂ := by
  refine ⟨h.trans hRest.quiet, ?_⟩
  rw [← h.run, ← h.source]
  exact hRest.settled

/-- What comes after leaves settled rows settled. -/
theorem andThen {n : α} (h : Settles L s rows (.ok n : Except ε α) s₁) (hRest : Quiet L s₁ s₂)
    (out : Except ε' β) : Settles L s rows out s₂ :=
  ⟨h.quiet.trans hRest, fun _ _ r hr => hRest.rowSettled (h.settled n rfl r hr)⟩

theorem map (f : α → β) (h : Settles L s rows out s₁) : Settles L s rows (out.map f) s₁ := by
  refine ⟨h.quiet, ?_⟩
  intro b hOk
  cases out with
  | error e => cases hOk
  | ok a => exact h.settled a rfl

/-- One half and then the other. -/
theorem append {n : α} (h : Settles L s rows (.ok n : Except ε α) s₁)
    (hMore : Settles L s₁ more out s₂) : Settles L s (rows ++ more) out s₂ := by
  have hMore' := hMore.after h.quiet
  refine ⟨hMore'.quiet, ?_⟩
  intro a hOk r hr
  rcases List.mem_append.mp hr with hr | hr
  · exact hMore.quiet.rowSettled (h.settled n rfl r hr)
  · exact hMore'.settled a hOk r hr

/-- An exact acknowledgement settles the rows of its post. -/
theorem of_ack (hne : rows ≠ []) {fields : List (String × Json)} {outcome : PostOutcome}
    (h : Quiet L s s₁)
    (hPosts : s₁.posts = s.posts ++ [⟨s.run.identity, rows, s.source, outcome⟩])
    (hOk : .ok (.obj fields) = outcome.toExcept) :
    Settles L s rows (ackedExactly fields (bucketTs (rows.getLast hne))) s₁ :=
  ⟨h, fun _ hAck r hr => Or.inr (Or.inl (delivered_of_ack hPosts hOk hAck r hr))⟩

end Settles

/-- The rows of a chunk that `go` gets through are all settled. -/
theorem safe_isolateGo (hGood : Good L s) (chunk : List (Row V)) (hne : chunk ≠ []) :
    Safe (handler A) (Good L) (isolateGo chunk hne) s (Settles L s chunk) := by
  induction hLen : chunk.length using Nat.strong_induction_on generalizing chunk s with
  | h len ih =>
    rw [isolateGo]
    apply Safe.bind (safe_post hGood chunk)
    rintro res s₁ ⟨hQuiet, outcome, hPosts, hRes⟩
    have hGood₁ := hQuiet.good hGood
    cases res with
    | ok ack =>
        cases ack with
        | obj fields => exact Safe.pure hGood₁ ((Settles.of_ack hne hQuiet hPosts hRes).map _)
        | _ => exact Safe.pure hGood₁ (.error hQuiet _)
    | error e =>
        cases e with
        | httpStatus status =>
            simp only
            split_ifs with hRetry hOne
            · exact Safe.pure hGood₁ (.error hQuiet _)
            · apply Safe.bind (safe_post hGood₁ [])
              rintro control s₂ ⟨hQuiet₂, outcome₂, hPosts₂, hControl⟩
              refine Safe.pure (hQuiet₂.good hGood₁) (Settles.map _ ⟨hQuiet.trans hQuiet₂, ?_⟩)
              intro ack hOk r hr
              obtain ⟨r', rfl⟩ := List.length_eq_one_iff.mp hOne
              obtain rfl : r = r' := by simpa using hr
              subst hOk
              rw [hQuiet.run] at hPosts₂
              exact Or.inr (Or.inr (refusedAlone_of_control hPosts hRes hRetry hPosts₂ hControl))
            · have hTwo : 2 ≤ chunk.length := by
                have := List.length_pos_iff.mpr hne
                omega
              apply Safe.bind (ih _ (by rw [List.length_take]; omega) hGood₁ _ _ rfl)
              intro res₂ s₂ hFirst
              have hGood₂ := hFirst.quiet.good hGood₁
              cases res₂ with
              | error e => exact Safe.pure hGood₂ (.error (hQuiet.trans hFirst.quiet) _)
              | ok n =>
                  apply Safe.bind (ih _ (by rw [List.length_drop]; omega) hGood₂ _ _ rfl)
                  intro res₃ s₃ hSecond
                  have hBoth := (hFirst.append hSecond).after hQuiet
                  rw [List.take_append_drop] at hBoth
                  exact Safe.pure (hSecond.quiet.good hGood₂) (hBoth.map _)
        | _ => exact Safe.pure hGood₁ (.error hQuiet _)

theorem safe_isolate (hGood : Good L s) (rows : List (Row V)) (hne : rows ≠ []) :
    Safe (handler A) (Good L) (isolate rows hne) s (Settles L s rows) := by
  apply Safe.bind (safe_post hGood [])
  rintro res s₁ ⟨hQuiet, _⟩
  have hGood₁ := hQuiet.good hGood
  cases res with
  | error e => exact Safe.pure hGood₁ (.error hQuiet _)
  | ok ack =>
      apply (safe_isolateGo hGood₁ rows hne).mono
      intro res₂ s₂ hRest
      exact hRest.after hQuiet

/-- One quiet effect and then the rest. -/
theorem safe_of_quiet {α : Type} (hGood : Good L s) {e : Effect V} (he : e.quiet = true)
    {f : e.Answer → SyncProc V α} {Q : α → World V → Prop}
    (hf : ∀ a s', Quiet L s s' → Safe (handler A) (Good L) (f a) s' Q) :
    Safe (handler A) (Good L) (Proc.perform e >>= f) s Q :=
  Safe.perform hGood fun a s' hStep => hf a s' (quiet_of_handler hGood he hStep)

/-- A batch that goes through has all its rows settled. -/
theorem safe_deliver (hGood : Good L s) (wm : Int) (rows : List (Row V)) (hne : rows ≠ [])
    (res : SyncResult) :
    Safe (handler A) (Good L) (deliver wm rows hne res) s (Settles L s rows) := by
  apply Safe.bind (safe_post hGood rows)
  rintro out s₁ ⟨hQuiet, outcome, hPosts, hOut⟩
  have hGood₁ := hQuiet.good hGood
  cases out with
  | error e =>
      cases e with
      | httpStatus status =>
          simp only
          split_ifs with hRetry
          · exact Safe.pure hGood₁ (.error hQuiet _)
          · apply safe_of_quiet hGood₁ rfl
            intro poison s₂ hQuiet₂
            have hGood₂ := hQuiet₂.good hGood₁
            apply safe_of_quiet hGood₂ rfl
            intro _ s₃ hQuiet₃
            have hGood₃ := hQuiet₃.good hGood₂
            have hQuiet' := (hQuiet.trans hQuiet₂).trans hQuiet₃
            split_ifs with hFew
            · exact Safe.pure hGood₃ (.error hQuiet' _)
            · apply Safe.bind (safe_isolate hGood₃ rows hne)
              intro res₂ s₄ hIsolated
              have hGood₄ := hIsolated.quiet.good hGood₃
              cases res₂ with
              | error e => exact Safe.pure hGood₄ (.error (hQuiet'.trans hIsolated.quiet) _)
              | ok skipped =>
                  apply safe_of_quiet hGood₄ rfl
                  intro _ s₅ hQuiet₅
                  exact Safe.pure (hQuiet₅.good hGood₄)
                    ((hIsolated.after hQuiet').andThen hQuiet₅ _)
      | _ => exact Safe.pure hGood₁ (.error hQuiet _)
  | ok ack =>
      cases ack with
      | obj fields =>
          apply safe_of_quiet hGood₁ rfl
          intro _ s₂ hQuiet₂
          have hGood₂ := hQuiet₂.good hGood₁
          apply safe_of_quiet hGood₂ rfl
          intro lease s₃ hQuiet₃
          have hGood₃ := hQuiet₃.good hGood₂
          have hQuiet' := (hQuiet.trans hQuiet₂).trans hQuiet₃
          cases lease with
          | error e => exact Safe.pure hGood₃ (.error hQuiet' _)
          | ok _ =>
              have hAcked := Settles.of_ack hne hQuiet hPosts hOut
              cases hAck : ackedExactly fields (bucketTs (rows.getLast hne)) with
              | error e => exact Safe.pure hGood₃ (.error hQuiet' _)
              | ok _ =>
                  rw [hAck] at hAcked
                  exact Safe.pure hGood₃ (hAcked.andThen (hQuiet₂.trans hQuiet₃) _)
      | _ =>
          apply safe_of_quiet hGood₁ rfl
          intro _ s₂ hQuiet₂
          exact Safe.pure (hQuiet₂.good hGood₁) (.error (hQuiet.trans hQuiet₂) _)

theorem safe_firstPost (hGood : Good L s) (res : SyncResult) :
    Safe (handler A) (Good L) (firstPost res) s (fun _ s' => Quiet L s s') := by
  rw [firstPost]
  split_ifs
  · refine ⟨hGood, fun a s' hStep => ?_⟩
    have hQuiet := quiet_of_handler hGood rfl hStep
    exact ⟨hQuiet.good hGood, hQuiet⟩
  · exact Safe.pure hGood (Quiet.refl hGood)

theorem safe_postNothing (hGood : Good L s) (res : SyncResult) :
    Safe (handler A) (Good L) (postNothing res) s (fun _ _ => True) := by
  apply Safe.bind (safe_post hGood [])
  rintro out s₁ ⟨hQuiet, _⟩
  have hGood₁ := hQuiet.good hGood
  cases out with
  | error e => exact Safe.pure hGood₁ trivial
  | ok ack =>
      cases ack with
      | obj fields =>
          apply safe_of_quiet hGood₁ rfl
          intro _ s₂ hQuiet₂
          have hGood₂ := hQuiet₂.good hGood₁
          apply safe_of_quiet hGood₂ rfl
          intro lease s₃ hQuiet₃
          cases lease with
          | error e => exact Safe.pure (hQuiet₃.good hGood₂) trivial
          | ok _ => exact Safe.pure (hQuiet₃.good hGood₂) trivial
      | _ =>
          apply safe_of_quiet hGood₁ rfl
          intro _ s₂ hQuiet₂
          exact Safe.pure (hQuiet₂.good hGood₁) trivial

end Posts

/-! ### Runs -/

section Runs

variable {A : Setting V} {L : Ledger A} {s : World V}

/-- Fetching changes nothing that the invariant speaks of. -/
theorem good_of_fetch (hGood : Good L s) {wm : Int} (hEarned : Earned L s wm)
    {rows : List (Row V)} {s' : World V} (hStep : handler A (.closedRollupsAfter wm) s rows s') :
    Good L s' ∧ Earned L s' wm ∧ s'.run = s.run := by
  obtain ⟨st, hEnv, _, _, rfl⟩ := hStep
  have hQuiet := Quiet.of_env hGood hEnv
  obtain ⟨hInv, hWriter, hBound, hSettled⟩ := hQuiet.good hGood
  obtain ⟨hWm, hOwed⟩ := hQuiet.earned hEarned
  exact ⟨⟨hInv, hWriter, hBound, hSettled⟩, ⟨hWm, hOwed⟩, rfl⟩

/-- A fetched batch carries what is owed up to its last bucket. -/
theorem pending_of_fetch (hGood : Good L s) {wm : Int} (hEarned : Earned L s wm)
    {rows : List (Row V)} {s' : World V} {last : Row V}
    (hStep : handler A (.closedRollupsAfter wm) s rows s') (hLast : rows.getLast? = some last) :
    Pending L s' rows (bucketTs last) := by
  obtain ⟨hGood', hEarned', _⟩ := good_of_fetch hGood hEarned hStep
  obtain ⟨st, hEnv, hFetch, hRows, rfl⟩ := hStep
  subst hRows
  refine ⟨(closed_of_mem_batch (List.mem_of_getLast? hLast)).2, ?_⟩
  intro hOwner i hi hBase hle
  rcases Int.lt_or_le wm (L.bucket i) with hNew | hOld
  · exact Or.inr (L.carries_of_fetch hGood'.inv (hFetch wm rfl) hLast hi hNew hle)
  · exact Or.inl (hEarned'.settled hOwner i hi hBase hOld)

/-- The rows of a batch are settled once those that can be posted are. -/
theorem settled_of_filter {posts : List (PostRecord V)} {identity : String} {source : Db V}
    {rawRows : List (Row V)}
    (h : ∀ r ∈ rawRows.filter rowOk, RowSettled posts identity source r) :
    ∀ r ∈ rawRows, RowSettled posts identity source r := by
  intro r hr
  cases hOk : rowOk r with
  | false => exact Or.inl hOk
  | true => exact h r (List.mem_filter.mpr ⟨hr, hOk⟩)

theorem safe_runBatches (fuel : Nat) (wm : Int) (res : SyncResult) (hGood : Good L s)
    (hEarned : Earned L s wm) :
    Safe (handler A) (Good L) (runBatches fuel wm res) s (fun _ _ => True) := by
  induction fuel generalizing wm res s with
  | zero => exact Safe.pure hGood trivial
  | succ fuel ih =>
      -- the batch is settled, so the watermark moves to its last bucket
      have hNext : ∀ {s₁ s₂ : World V} {rawRows : List (Row V)} {last : Row V} (res : SyncResult),
          Good L s₁ → Pending L s₁ rawRows (bucketTs last) → Quiet L s₁ s₂ →
          (∀ r ∈ rawRows.filter rowOk, RowSettled s₂.posts s₁.run.identity s₁.source r) →
          Safe (handler A) (Good L)
            (do kvSetWatermark (bucketTs last); runBatches fuel (bucketTs last) res) s₂
            (fun _ _ => True) := by
        intro s₁ s₂ rawRows last res hGood₁ hPending hQuiet hRows
        have hGood₂ := hQuiet.good hGood₁
        have hPending₂ := hQuiet.pending hPending
        rw [← hQuiet.run, ← hQuiet.source] at hRows
        apply Safe.perform hGood₂
        intro _ s₃ hStep
        obtain ⟨hGood₃, hEarned₃, _⟩ := good_of_kvSetWatermark hGood₂
          (hPending₂.earned (settled_of_filter hRows)) hPending₂.bound hStep
        exact ih _ _ hGood₃ hEarned₃
      apply Safe.perform hGood
      intro rawRows s₁ hStep
      obtain ⟨hGood₁, _, _⟩ := good_of_fetch hGood hEarned hStep
      cases hLast : rawRows.getLast? with
      | none =>
          simp only
          split_ifs
          · exact Safe.pure hGood₁ trivial
          · apply Safe.bind (safe_firstPost hGood₁ res)
            intro first s₂ hQuiet
            cases first with
            | error e => exact Safe.pure (hQuiet.good hGood₁) trivial
            | ok _ => exact safe_postNothing (hQuiet.good hGood₁) res
      | some last =>
          have hPending := pending_of_fetch hGood hEarned hStep hLast
          simp only
          split_ifs with hNone
          · apply hNext _ hGood₁ hPending (Quiet.refl hGood₁)
            rw [hNone]
            intro r hr
            cases hr
          · apply Safe.bind (safe_firstPost hGood₁ _)
            intro first s₂ hQuiet
            have hGood₂ := hQuiet.good hGood₁
            cases first with
            | error e => exact Safe.pure hGood₂ trivial
            | ok _ =>
                apply Safe.bind (safe_deliver hGood₂ wm _ hNone _)
                rintro out s₃ ⟨hQuiet₃, hSettled⟩
                cases out with
                | error res' => exact Safe.pure (hQuiet₃.good hGood₂) trivial
                | ok res' =>
                    apply hNext res' hGood₁ hPending (hQuiet.trans hQuiet₃)
                    rw [← hQuiet.run, ← hQuiet.source]
                    exact hSettled res' rfl

omit [SqlReal V] in
theorem base_of_usable {w : Int} (hw : s.kvWatermark = some (.int w)) (hle : w ≤ s.run.now) :
    s.base = s.start := by
  rw [World.base, World.usable, hw]
  simp [hle]

omit [SqlReal V] in
theorem base_of_not_usable (h : s.usable = none) : s.base = s.run.fresh := by
  rw [World.base, h]
  rfl

/-- A fresh backfill starts with nothing owed. -/
theorem earned_fresh (hBase : s.base = s.run.fresh) : Earned L s s.run.fresh := by
  refine ⟨fun _ => Or.inl (le_of_eq hBase.symm), ?_⟩
  rw [hBase]
  intro _ i _ hLt hle
  omega

/-- A stored watermark was earned before. -/
theorem earned_stored (hGood : Good L s) {w : Int} (hw : s.kvWatermark = some (.int w))
    (hle : w ≤ s.run.now) : Earned L s w := by
  have hWriter : s.owner = s.run.identity → s.writer = s.owner := by
    intro hOwner
    rw [hGood.writer hOwner, hOwner]
  constructor
  · rw [base_of_usable hw hle]
    intro hOwner
    exact hGood.bound (hWriter hOwner) w hw
  · rw [base_of_usable hw hle]
    intro hOwner i hi hStart hLe
    rw [← hOwner]
    exact hGood.settled (hWriter hOwner) w hw i hi hStart hLe

theorem safe_storedWatermark (hGood : Good L s) :
    Safe (handler A) (Good L) (storedWatermark s.run) s
      (fun wm s' => Good L s' ∧ Earned L s' wm) := by
  apply Safe.perform hGood
  intro stored s' hStep
  have hQuiet := quiet_of_handler hGood rfl hStep
  have hGood' := hQuiet.good hGood
  have hStored : stored = s'.kvWatermark := by
    obtain ⟨st, _, _, hAnswer, rfl⟩ := hStep
    exact hAnswer
  have hFresh : s'.usable = none → Earned L s' s.run.fresh := by
    intro hNone
    rw [← hQuiet.run]
    exact earned_fresh (base_of_not_usable hNone)
  subst hStored
  cases hw : s'.kvWatermark with
  | none =>
      refine Safe.pure hGood' ⟨hGood', hFresh ?_⟩
      rw [World.usable, hw]
  | some stored =>
      cases stored with
      | malformed =>
          refine Safe.pure hGood' ⟨hGood', hFresh ?_⟩
          rw [World.usable, hw]
      | int w =>
          refine Safe.pure hGood' ⟨hGood', ?_⟩
          split_ifs with hle
          · rw [← hQuiet.run] at hle
            exact earned_stored hGood' hw hle
          · apply hFresh
            rw [World.usable, hw, hQuiet.run]
            exact if_neg hle

/-- The first write of a reset leaves a watermark that stands for no identity. -/
theorem good_of_reset (hGood : Good L s) (hOwner : s.owner ≠ s.run.identity) {w : Int} {a : Unit}
    {s' : World V} (hStep : handler A (.kvSetWatermark w) s a s') :
    Good L s' ∧ s'.run = s.run ∧ s'.kvWatermark = some (.int w) := by
  obtain ⟨st, hEnv, _, _, rfl⟩ := hStep
  have hQuiet := Quiet.of_env hGood hEnv
  exact ⟨⟨L.inv_commit hQuiet.inv, fun _ => rfl, fun hWriter => absurd hWriter.symm hOwner,
    fun hWriter => absurd hWriter.symm hOwner⟩, rfl, rfl⟩

theorem safe_watermark (hGood : Good L s) :
    Safe (handler A) (Good L) (watermark s.run) s (fun wm s' => Good L s' ∧ Earned L s' wm) := by
  rw [watermark]
  split_ifs with hEmpty
  · exact safe_storedWatermark hGood
  · apply Safe.perform hGood
    intro stored s₁ hStep
    have hQuiet := quiet_of_handler hGood rfl hStep
    have hGood₁ := hQuiet.good hGood
    have hStored : stored = s₁.kvIdentity := by
      obtain ⟨st, _, _, hAnswer, rfl⟩ := hStep
      exact hAnswer
    rw [← hQuiet.run]
    cases stored with
    | none =>
        apply Safe.perform hGood₁
        intro _ s₂ hStep₂
        obtain ⟨hGood₂, hRun, _, _⟩ := good_of_kvSetIdentity hGood₁ hStep₂
        rw [← hRun]
        exact safe_storedWatermark hGood₂
    | some stored =>
        simp only
        split_ifs with hSame
        · exact safe_storedWatermark hGood₁
        · have hOwner : s₁.owner ≠ s₁.run.identity := by
            rw [World.owner, ← hStored]
            exact hSame
          apply Safe.perform hGood₁
          intro _ s₂ hStep₂
          obtain ⟨hGood₂, hRun₂, hWatermark₂⟩ := good_of_reset hGood₁ hOwner hStep₂
          rw [← hRun₂] at hWatermark₂ ⊢
          apply Safe.perform hGood₂
          intro _ s₃ hStep₃
          obtain ⟨hGood₃, hRun₃, hWatermark₃, hStart₃⟩ := good_of_kvSetIdentity hGood₂ hStep₃
          apply safe_of_quiet hGood₃ rfl
          intro _ s₄ hQuiet₄
          refine Safe.pure (hQuiet₄.good hGood₃) ⟨hQuiet₄.good hGood₃, hQuiet₄.earned ?_⟩
          rw [← hRun₃]
          apply earned_fresh
          rw [World.base, hStart₃, World.adopted, hWatermark₂, hRun₃, ite_self]

/-- Every run keeps the invariant at each of its awaits. -/
theorem safe_runOnce (hGood : Good L s) :
    Safe (handler A) (Good L) (runOnce s.run) s (fun _ _ => True) := by
  apply Safe.bind (safe_watermark hGood)
  rintro wm s' ⟨hGood', hEarned⟩
  exact safe_runBatches _ _ _ hGood' hEarned

theorem good_of_initial (hInitial : Initial s) (hInv : L.Inv s.run.now s.store) : Good L s := by
  refine ⟨hInv, ?_, ?_, ?_⟩
  · intro hOwner
    rw [hInitial.writer, hOwner]
  · intro _ w hw
    exact Or.inl (le_of_eq (hInitial.start w hw).symm)
  · intro _ w hw i _ hStart hle
    rw [hInitial.start w hw] at hStart
    omega

/-- The invariant holds in every reachable state, when no run begins under the
stored identity while another identity has written the watermark last. -/
theorem good_of_reachable {init : World V → Prop}
    (hInit : ∀ s, init s → Initial s ∧ L.Inv s.run.now s.store)
    (hBegins : ∀ s cfg, A.begins s cfg → Good L s → s.owner = cfg.identity →
      s.writer = cfg.identity) (h : Reachable A init s) : Good L s := by
  induction h with
  | init hs => exact good_of_initial (hInit _ hs).1 (hInit _ hs).2
  | env _ hEnv ih => exact (Quiet.of_env ih hEnv).good ih
  | @run s s' o cfg _ hBegin hExec ih =>
      obtain ⟨hNow, hInv⟩ := L.inv_begins ih.inv hBegin
      have hGood : Good L { s with run := cfg } := by
        refine ⟨hInv, hBegins s cfg hBegin ih, ?_, ih.settled⟩
        intro hWriter w hw
        rcases ih.bound hWriter w hw with hStart | hClosed
        · exact Or.inl hStart
        · exact Or.inr (hClosed.trans hNow)
      exact ((safe_runOnce hGood).exec hExec).1
  | restart _ ih =>
      refine ⟨L.inv_restart ih.inv, ih.writer, ih.bound, ?_⟩
      intro hWriter w hw i hi
      exact ih.settled hWriter w hw i (L.owed_restart hi)

end Runs

end WattPost.Cloud
