import WattPost.Cloud.SyncLedger

/-! The bisection that finds the rows the cloud refuses: against a cloud that refuses
them and takes the others it is exact, and against any cloud it gives up, without
moving the watermark, as soon as a post fails in another way. -/
namespace WattPost.Cloud

open Process Storage

variable {V : Type}

/-! ### What a run leaves behind -/

/-- The events of a run that the isolation is about. -/
inductive SyncEvent (V : Type) where
  | posted (rows : List (Row V)) (outcome : PostOutcome)
  | moved (watermark : Int)

/-- A post whose answer acknowledges exactly its rows. -/
def ExactAck (rows : List (Row V)) (body : Option Json) : Prop :=
  ∃ fields, body = some (.obj fields) ∧
    ∀ hne : rows ≠ [], Json.get? fields "acked_through" = some (.int (bucketTs (rows.getLast hne)))

/-- A post that succeeded; for one without rows there is nothing to acknowledge. -/
def PostOutcome.Succeeds (rows : List (Row V)) : PostOutcome → Prop
  | .raised _ => False
  | .replied status body => status < 400 ∧ ExactAck rows body

/-- A transport error, a retryable status, or an answer that acknowledges something
else than the rows posted. -/
def PostOutcome.Fatal (rows : List (Row V)) : PostOutcome → Prop
  | .raised _ => True
  | .replied status body =>
      status ∈ retryableStatus ∨ status < 400 ∧ (body = none ∨ rows ≠ [] ∧ ¬ ExactAck rows body)

def SyncEvent.Fatal : SyncEvent V → Prop
  | .posted rows outcome => outcome.Fatal rows
  | .moved _ => False

/-- Any answer to any effect; posts and moves of the watermark are recorded. -/
def recorder : Handler (Effect V) Effect.Answer (List (SyncEvent V))
  | .post rows, s, outcome, s' => s' = s ++ [.posted rows outcome]
  | .kvSetWatermark w, s, _, s' => s' = s ++ [.moved w]
  | _, s, _, s' => s' = s

/-- Effects that leave no event. -/
def Effect.silent : Effect V → Bool
  | .post _ => false
  | .kvSetWatermark _ => false
  | _ => true

theorem eq_of_silent {e : Effect V} (he : e.silent = true) {s s' : List (SyncEvent V)}
    {a : e.Answer} (hStep : recorder e s a s') : s' = s := by
  cases e <;> first | exact hStep | cases he

/-- A post with a bad row is answered by a fixed status, and any other by success and
the exact acknowledgement. -/
def PoisonAnswer (bad : Row V → Bool) (status : Nat) (rows : List (Row V))
    (outcome : PostOutcome) : Prop :=
  if rows.any bad then ∃ body, outcome = .replied status body else outcome.Succeeds rows

/-- A cloud that refuses the bad rows. -/
def poisonCloud (bad : Row V → Bool) (status : Nat) :
    Handler (Effect V) Effect.Answer (List (SyncEvent V))
  | .post rows, s, outcome, s' => s' = s ++ [.posted rows outcome] ∧
      PoisonAnswer bad status rows outcome
  | e, s, a, s' => recorder e s a s'

/-! ### Against a cloud that refuses the bad rows -/

section Exact

variable {bad : Row V → Bool} {status : Nat}

/-- A success is an answer that acknowledges the rows. -/
theorem PostOutcome.Succeeds.ok {rows : List (Row V)} {outcome : PostOutcome}
    (h : outcome.Succeeds rows) : ∃ fields, outcome.toExcept = .ok (.obj fields) ∧
      ∀ hne : rows ≠ [], ackedExactly fields (bucketTs (rows.getLast hne)) = .ok () := by
  cases outcome with
  | raised what => exact h.elim
  | replied code body =>
      obtain ⟨hCode, fields, rfl, hAck⟩ := h
      refine ⟨fields, if_neg (not_le.mpr hCode), fun hne => ?_⟩
      rw [ackedExactly, hAck hne]
      exact if_pos rfl

/-- What the events of an isolation say of its rows: each good one is in a post that
succeeded, and no bad one is. -/
structure IsolatedBy (bad : Row V → Bool) (rows : List (Row V)) (events : List (SyncEvent V)) :
    Prop where
  delivered : ∀ row ∈ rows, bad row = false → ∃ posted outcome,
    .posted posted outcome ∈ events ∧ outcome.Succeeds posted ∧ row ∈ posted
  refused : ∀ posted outcome, .posted posted outcome ∈ events → outcome.Succeeds posted →
    ∀ row ∈ posted, bad row = false

theorem IsolatedBy.append {rows rows' : List (Row V)} {events events' : List (SyncEvent V)}
    (h : IsolatedBy bad rows events) (h' : IsolatedBy bad rows' events') :
    IsolatedBy bad (rows ++ rows') (events ++ events') where
  delivered row hRow hGood := by
    rcases List.mem_append.mp hRow with hRow | hRow
    · obtain ⟨posted, outcome, hMem, hPost⟩ := h.delivered row hRow hGood
      exact ⟨posted, outcome, List.mem_append_left _ hMem, hPost⟩
    · obtain ⟨posted, outcome, hMem, hPost⟩ := h'.delivered row hRow hGood
      exact ⟨posted, outcome, List.mem_append_right _ hMem, hPost⟩
  refused posted outcome hMem := by
    rcases List.mem_append.mp hMem with hMem | hMem
    · exact h.refused posted outcome hMem
    · exact h'.refused posted outcome hMem

/-- The events of a post that has a bad row say nothing of the others. -/
theorem isolatedBy_refused (rows : List (Row V)) (hStatus : 400 ≤ status) (body : Option Json) :
    IsolatedBy bad [] [.posted rows (.replied status body)] where
  delivered row hRow := by cases hRow
  refused posted outcome hMem hSuccess := by
    cases List.mem_singleton.mp hMem
    exact absurd hSuccess.1 (not_lt.mpr hStatus)

theorem isolatedBy_succeeds (rows : List (Row V)) (hGood : rows.any bad = false)
    {outcome : PostOutcome} (hSuccess : outcome.Succeeds rows) :
    IsolatedBy bad rows [.posted rows outcome] where
  delivered row hRow _ := ⟨rows, outcome, List.mem_singleton.mpr rfl, hSuccess, hRow⟩
  refused posted outcome hMem _ row hRow := by
    cases List.mem_singleton.mp hMem
    simpa using List.any_eq_false.mp hGood row hRow

theorem exists_poisonAnswer (bad : Row V → Bool) (status : Nat) (rows : List (Row V)) :
    ∃ outcome, PoisonAnswer bad status rows outcome := by
  simp only [PoisonAnswer]
  split_ifs
  · exact ⟨_, none, rfl⟩
  · by_cases hne : rows = []
    · exact ⟨.replied 200 (some (.obj [])), by decide, [], rfl, fun hSome => absurd hne hSome⟩
    · exact ⟨.replied 200 (some (.obj [("acked_through", .int (bucketTs (rows.getLast hne)))])),
        by decide, _, rfl, fun _ => rfl⟩

theorem ends_post (rows : List (Row V)) (s : List (SyncEvent V)) :
    Ends (poisonCloud bad status) (post rows) s (fun res s' => ∃ outcome,
      s' = s ++ [.posted rows outcome] ∧ res = outcome.toExcept ∧
        PoisonAnswer bad status rows outcome) := by
  obtain ⟨outcome, hAnswer⟩ := exists_poisonAnswer bad status rows
  refine ⟨⟨outcome, _, rfl, hAnswer⟩, ?_⟩
  rintro outcome s₁ ⟨rfl, hAnswer⟩
  exact ⟨outcome, rfl, rfl, hAnswer⟩

variable (hStatus : 400 ≤ status) (hRetry : status ∉ retryableStatus)

include hStatus hRetry

theorem ends_isolateGo (chunk : List (Row V)) (hne : chunk ≠ []) (s : List (SyncEvent V)) :
    Ends (poisonCloud bad status) (isolateGo chunk hne) s (fun res s' =>
      res = .ok (chunk.countP bad) ∧ ∃ events, s' = s ++ events ∧ IsolatedBy bad chunk events) := by
  induction hLen : chunk.length using Nat.strong_induction_on generalizing chunk s with
  | h len ih =>
    rw [isolateGo]
    apply Ends.bind (ends_post chunk s)
    rintro res s₁ ⟨outcome, rfl, rfl, hAnswer⟩
    rw [PoisonAnswer] at hAnswer
    cases hBad : chunk.any bad with
    | false =>
        rw [hBad, if_neg Bool.false_ne_true] at hAnswer
        obtain ⟨fields, hOk, hAck⟩ := hAnswer.ok
        rw [hOk]
        simp only [hAck hne]
        have hCount : chunk.countP bad = 0 :=
          List.countP_eq_zero.mpr fun row hRow => by simpa using List.any_eq_false.mp hBad row hRow
        refine ⟨?_, _, rfl, isolatedBy_succeeds _ hBad hAnswer⟩
        rw [hCount]
        rfl
    | true =>
        rw [hBad, if_pos rfl] at hAnswer
        obtain ⟨body, rfl⟩ := hAnswer
        have hRaised : (PostOutcome.replied status body).toExcept = .error (.httpStatus status) :=
          if_pos hStatus
        rw [hRaised]
        simp only [if_neg hRetry]
        split_ifs with hOne
        · -- a single row, and it is a bad one
          obtain ⟨row, rfl⟩ := List.length_eq_one_iff.mp hOne
          have hRow : bad row = true := by simpa using hBad
          apply Ends.bind (ends_post [] _)
          rintro res s₂ ⟨outcome, rfl, rfl, hControl⟩
          have hControl : outcome.Succeeds ([] : List (Row V)) := hControl
          obtain ⟨fields, hOk, _⟩ := hControl.ok
          rw [hOk]
          refine ⟨by simp [hRow, Except.map], _, List.append_assoc _ _ _, ?_, ?_⟩
          · intro row' hRow' hGood
            rw [List.mem_singleton.mp hRow', hRow] at hGood
            cases hGood
          · exact ((isolatedBy_refused _ hStatus _).append
              (isolatedBy_succeeds _ rfl hControl)).refused
        · have hTwo : 2 ≤ chunk.length := by
            have := List.length_pos_iff.mpr hne
            omega
          apply Ends.bind (ih _ (by rw [List.length_take]; omega) _ _ _ rfl)
          rintro res s₂ ⟨rfl, events, rfl, hFirst⟩
          apply Ends.bind (ih _ (by rw [List.length_drop]; omega) _ _ _ rfl)
          rintro res s₃ ⟨rfl, events', rfl, hSecond⟩
          have hBoth := hFirst.append hSecond
          rw [List.take_append_drop] at hBoth
          have hAll := (isolatedBy_refused chunk hStatus body).append hBoth
          rw [List.nil_append] at hAll
          refine ⟨?_, _, by simp only [List.append_assoc], hAll⟩
          rw [Except.map, ← List.countP_append, List.take_append_drop]

theorem ends_isolate (rows : List (Row V)) (hne : rows ≠ []) :
    Ends (poisonCloud bad status) (isolate rows hne) [] (fun res events =>
      res = .ok (rows.countP bad) ∧ IsolatedBy bad rows events) := by
  apply Ends.bind (ends_post [] [])
  rintro res s₁ ⟨outcome, rfl, rfl, hControl⟩
  have hControl : outcome.Succeeds ([] : List (Row V)) := hControl
  obtain ⟨fields, hOk, _⟩ := hControl.ok
  rw [hOk]
  apply (ends_isolateGo hStatus hRetry rows hne _).mono
  rintro res events ⟨rfl, new, rfl, hNew⟩
  exact ⟨rfl, (isolatedBy_succeeds [] rfl hControl).append hNew⟩

end Exact

/-! ### Against any cloud -/

def NoFatal (events : List (SyncEvent V)) : Prop := ∀ e ∈ events, ¬ e.Fatal

/-- After a fatal post the watermark is not moved. -/
def HeldBack (events : List (SyncEvent V)) : Prop :=
  ∀ before after e, events = before ++ e :: after → e.Fatal → ∀ w, .moved w ∉ after

theorem NoFatal.heldBack {events : List (SyncEvent V)} (h : NoFatal events) : HeldBack events := by
  rintro before after e rfl hFatal
  exact absurd hFatal (h e (by simp))

theorem NoFatal.heldBack_concat {events : List (SyncEvent V)} (h : NoFatal events)
    (e : SyncEvent V) : HeldBack (events ++ [e]) := by
  intro before after e' hSplit hFatal w hMoved
  obtain ⟨rest, last, rfl⟩ := List.eq_nil_or_concat after |>.resolve_left
    (List.ne_nil_of_mem hMoved)
  rw [List.concat_eq_append, ← List.cons_append, ← List.append_assoc] at hSplit
  obtain ⟨hEvents, _⟩ := List.append_inj' hSplit rfl
  exact h e' (by simp [hEvents]) hFatal

theorem NoFatal.concat {events : List (SyncEvent V)} (h : NoFatal events) {e : SyncEvent V}
    (he : ¬ e.Fatal) : NoFatal (events ++ [e]) := by
  intro e' he'
  rcases List.mem_append.mp he' with he' | he'
  · exact h e' he'
  · rwa [List.mem_singleton.mp he']

/-- What a part of a run leaves behind: no move after a fatal post, and no fatal post
when it did not raise. -/
structure RaisedOrNoFatal {ε α : Type} (res : Except ε α) (events : List (SyncEvent V)) :
    Prop where
  held : HeldBack events
  calm : ∀ a, res = .ok a → NoFatal events

theorem RaisedOrNoFatal.of_calm {ε α : Type} (res : Except ε α) {events : List (SyncEvent V)}
    (h : NoFatal events) : RaisedOrNoFatal res events := ⟨h.heldBack, fun _ _ => h⟩

theorem RaisedOrNoFatal.map {ε α β : Type} {res : Except ε α} {events : List (SyncEvent V)}
    (h : RaisedOrNoFatal res events) (f : α → β) : RaisedOrNoFatal (res.map f) events := by
  refine ⟨h.held, fun b hb => ?_⟩
  cases res with
  | error e => cases hb
  | ok a => exact h.calm a rfl

theorem RaisedOrNoFatal.error {ε α : Type} {events : List (SyncEvent V)} (h : HeldBack events)
    (e : ε) : RaisedOrNoFatal (.error e : Except ε α) events :=
  ⟨h, fun _ hOk => by cases hOk⟩

/-- A status that is raised was answered. -/
theorem PostOutcome.eq_of_httpStatus {outcome : PostOutcome} {status : Nat}
    (h : outcome.toExcept = .error (.httpStatus status)) :
    400 ≤ status ∧ ∃ body, outcome = .replied status body := by
  cases outcome with
  | raised what => cases h
  | replied code body =>
      simp only [PostOutcome.toExcept] at h
      split_ifs at h with hCode
      · cases h
        exact ⟨hCode, body, rfl⟩
      · cases body with
        | none => cases h
        | some ack => cases h

/-- A body that is returned was answered with a status that raises nothing. -/
theorem PostOutcome.eq_of_ok {outcome : PostOutcome} {ack : Json}
    (h : outcome.toExcept = .ok ack) :
    ∃ code < 400, outcome = .replied code (some ack) := by
  cases outcome with
  | raised what => cases h
  | replied code body =>
      simp only [PostOutcome.toExcept] at h
      split_ifs at h with hCode
      cases body with
      | none => cases h
      | some body =>
          cases h
          exact ⟨code, not_le.mp hCode, rfl⟩

/-- A status that is not retried, raised by itself, is not fatal. -/
theorem not_fatal_of_status {rows : List (Row V)} {outcome : PostOutcome} {status : Nat}
    (h : outcome.toExcept = .error (.httpStatus status)) (hRetry : status ∉ retryableStatus) :
    ¬ outcome.Fatal rows := by
  obtain ⟨hStatus, body, rfl⟩ := PostOutcome.eq_of_httpStatus h
  rintro (hFatal | ⟨hFatal, _⟩)
  · exact hRetry hFatal
  · omega

theorem not_retryable_of_lt {code : Nat} (h : code < 400) : code ∉ retryableStatus := by
  simp only [retryableStatus, List.mem_cons, List.not_mem_nil, or_false]
  omega

/-- An answer that parses, to a post with rows only with their acknowledgement. -/
theorem not_fatal_of_ok {rows : List (Row V)} {outcome : PostOutcome} {ack : Json}
    (h : outcome.toExcept = .ok ack)
    (hAck : ∀ hne : rows ≠ [], ∃ fields, ack = .obj fields ∧
      ackedExactly fields (bucketTs (rows.getLast hne)) = .ok ()) : ¬ outcome.Fatal rows := by
  obtain ⟨code, hCode, rfl⟩ := PostOutcome.eq_of_ok h
  rintro (hFatal | ⟨_, hFatal | ⟨hne, hFatal⟩⟩)
  · exact not_retryable_of_lt hCode hFatal
  · cases hFatal
  · obtain ⟨fields, rfl, hExact⟩ := hAck hne
    exact hFatal ⟨fields, rfl, fun _ => get?_of_ackedExactly hExact⟩

section AnyCloud

variable {s : List (SyncEvent V)} (hCalm : NoFatal s)

include hCalm

theorem recorded_post (rows : List (Row V)) :
    Safe recorder HeldBack (post rows) s (fun res s' => ∃ outcome,
      s' = s ++ [.posted rows outcome] ∧ res = outcome.toExcept) := by
  refine ⟨hCalm.heldBack, ?_⟩
  rintro outcome s₁ rfl
  exact ⟨hCalm.heldBack_concat _, outcome, rfl, rfl⟩

theorem recorded_isolateGo (chunk : List (Row V)) (hne : chunk ≠ []) :
    Safe recorder HeldBack (isolateGo chunk hne) s RaisedOrNoFatal := by
  induction hLen : chunk.length using Nat.strong_induction_on generalizing chunk s with
  | h len ih =>
    rw [isolateGo]
    apply Safe.bind (recorded_post hCalm chunk)
    rintro res s₁ ⟨outcome, rfl, hRes⟩
    have hHeld := hCalm.heldBack_concat (.posted chunk outcome)
    cases res with
    | ok ack =>
        cases ack with
        | obj fields =>
            have hAcked : RaisedOrNoFatal (ackedExactly fields (bucketTs (chunk.getLast hne)))
                (s ++ [.posted chunk outcome]) :=
              ⟨hHeld, fun _ hAck =>
                hCalm.concat (not_fatal_of_ok hRes.symm fun _ => ⟨fields, rfl, hAck⟩)⟩
            exact Safe.pure hHeld (hAcked.map _)
        | _ => exact Safe.pure hHeld (.error hHeld _)
    | error e =>
        cases e with
        | httpStatus status =>
            simp only
            split_ifs with hRetry hOne
            · exact Safe.pure hHeld (.error hHeld _)
            · have hCalm₁ : NoFatal (s ++ [.posted chunk outcome]) :=
                hCalm.concat (not_fatal_of_status hRes.symm hRetry)
              apply Safe.bind (recorded_post hCalm₁ [])
              rintro control s₂ ⟨outcome₂, rfl, hControl⟩
              have hHeld₂ := hCalm₁.heldBack_concat (.posted [] outcome₂)
              have hAlive : RaisedOrNoFatal control _ := ⟨hHeld₂, fun ack hOk => by
                rw [hOk] at hControl
                exact hCalm₁.concat (not_fatal_of_ok hControl.symm fun hSome => absurd rfl hSome)⟩
              exact Safe.pure hHeld₂ (hAlive.map _)
            · have hCalm₁ : NoFatal (s ++ [.posted chunk outcome]) :=
                hCalm.concat (not_fatal_of_status hRes.symm hRetry)
              have hTwo : 2 ≤ chunk.length := by
                have := List.length_pos_iff.mpr hne
                omega
              apply Safe.bind (ih _ (by rw [List.length_take]; omega) hCalm₁ _ _ rfl)
              intro res₂ s₂ hFirst
              cases res₂ with
              | error e => exact Safe.pure hFirst.held (.error hFirst.held _)
              | ok n =>
                  apply Safe.bind (ih _ (by rw [List.length_drop]; omega) (hFirst.calm n rfl) _ _
                    rfl)
                  intro res₃ s₃ hSecond
                  exact Safe.pure hSecond.held (hSecond.map _)
        | _ => exact Safe.pure hHeld (.error hHeld _)

theorem recorded_isolate (rows : List (Row V)) (hne : rows ≠ []) :
    Safe recorder HeldBack (isolate rows hne) s RaisedOrNoFatal := by
  apply Safe.bind (recorded_post hCalm [])
  rintro res s₁ ⟨outcome, rfl, hRes⟩
  have hHeld := hCalm.heldBack_concat (.posted [] outcome)
  cases res with
  | error e => exact Safe.pure hHeld (.error hHeld _)
  | ok ack =>
      have hCalm₁ : NoFatal (s ++ [.posted [] outcome]) :=
        hCalm.concat (not_fatal_of_ok hRes.symm fun hSome => absurd rfl hSome)
      exact recorded_isolateGo hCalm₁ rows hne

omit hCalm in
/-- A silent effect and then the rest. -/
theorem recorded_perform {α : Type} (hHeld : HeldBack s) {e : Effect V} (he : e.silent = true)
    {f : e.Answer → SyncProc V α} {Q : α → List (SyncEvent V) → Prop}
    (hf : ∀ a, Safe recorder HeldBack (f a) s Q) :
    Safe recorder HeldBack (Proc.perform e >>= f) s Q := by
  apply Safe.perform hHeld
  intro a s' hStep
  rw [eq_of_silent he hStep]
  exact hf a

theorem recorded_deliver (wm : Int) (rows : List (Row V)) (hne : rows ≠ []) (res : SyncResult) :
    Safe recorder HeldBack (deliver wm rows hne res) s RaisedOrNoFatal := by
  apply Safe.bind (recorded_post hCalm rows)
  rintro out s₁ ⟨outcome, rfl, hOut⟩
  have hHeld := hCalm.heldBack_concat (.posted rows outcome)
  cases out with
  | error e =>
      cases e with
      | httpStatus status =>
          simp only
          split_ifs with hRetry
          · exact Safe.pure hHeld (.error hHeld _)
          · have hCalm₁ : NoFatal (s ++ [.posted rows outcome]) :=
              hCalm.concat (not_fatal_of_status hOut.symm hRetry)
            apply recorded_perform hHeld rfl
            intro poison
            apply recorded_perform hHeld rfl
            intro _
            split_ifs with hFew
            · exact Safe.pure hHeld (.error hHeld _)
            · apply Safe.bind (recorded_isolate hCalm₁ rows hne)
              intro res₂ s₂ hIsolated
              cases res₂ with
              | error e => exact Safe.pure hIsolated.held (.error hIsolated.held _)
              | ok skipped =>
                  have hCalm₂ := hIsolated.calm skipped rfl
                  apply recorded_perform hIsolated.held rfl
                  intro _
                  exact Safe.pure hIsolated.held (.of_calm _ hCalm₂)
      | _ => exact Safe.pure hHeld (.error hHeld _)
  | ok ack =>
      cases ack with
      | obj fields =>
          apply recorded_perform hHeld rfl
          intro _
          apply recorded_perform hHeld rfl
          intro lease
          cases lease with
          | error e => exact Safe.pure hHeld (.error hHeld _)
          | ok _ =>
              cases hAck : ackedExactly fields (bucketTs (rows.getLast hne)) with
              | error e => exact Safe.pure hHeld (.error hHeld _)
              | ok _ =>
                  have hCalm₁ : NoFatal (s ++ [.posted rows outcome]) :=
                    hCalm.concat (not_fatal_of_ok hOut.symm fun _ => ⟨fields, rfl, hAck⟩)
                  exact Safe.pure hHeld (.of_calm _ hCalm₁)
      | _ =>
          apply recorded_perform hHeld rfl
          intro _
          exact Safe.pure hHeld (.error hHeld _)

theorem recorded_firstPost (res : SyncResult) :
    Safe recorder HeldBack (firstPost res) s (fun _ s' => s' = s) := by
  rw [firstPost]
  split_ifs
  · refine ⟨hCalm.heldBack, ?_⟩
    rintro a s' rfl
    exact ⟨hCalm.heldBack, rfl⟩
  · exact Safe.pure hCalm.heldBack rfl

theorem recorded_postNothing (res : SyncResult) :
    Safe recorder HeldBack (postNothing res) s (fun _ _ => True) := by
  apply Safe.bind (recorded_post hCalm [])
  rintro out s₁ ⟨outcome, rfl, _⟩
  have hHeld := hCalm.heldBack_concat (.posted [] outcome)
  cases out with
  | error e => exact Safe.pure hHeld trivial
  | ok ack =>
      cases ack with
      | obj fields =>
          apply recorded_perform hHeld rfl
          intro _
          apply recorded_perform hHeld rfl
          intro lease
          cases lease <;> exact Safe.pure hHeld trivial
      | _ =>
          apply recorded_perform hHeld rfl
          intro _
          exact Safe.pure hHeld trivial

theorem recorded_runBatches [SqlReal V] (fuel : Nat) (wm : Int) (res : SyncResult) :
    Safe recorder HeldBack (runBatches fuel wm res) s (fun _ _ => True) := by
  induction fuel generalizing wm res s with
  | zero => exact Safe.pure hCalm.heldBack trivial
  | succ fuel ih =>
      -- as long as no post was fatal the watermark may move
      have hNext : ∀ {s' : List (SyncEvent V)} (w : Int) (res : SyncResult), NoFatal s' →
          Safe recorder HeldBack (do kvSetWatermark w; runBatches fuel w res) s'
            (fun _ _ => True) := by
        intro s' w res hCalm'
        apply Safe.perform hCalm'.heldBack
        rintro _ _ rfl
        exact ih (hCalm'.concat (e := .moved w) (fun h => h)) w res
      apply recorded_perform hCalm.heldBack rfl
      intro rawRows
      cases hLast : rawRows.getLast? with
      | none =>
          simp only
          split_ifs
          · exact Safe.pure hCalm.heldBack trivial
          · apply Safe.bind (recorded_firstPost hCalm res)
            rintro first s₁ rfl
            cases first with
            | error e => exact Safe.pure hCalm.heldBack trivial
            | ok _ => exact recorded_postNothing hCalm res
      | some last =>
          simp only
          split_ifs with hNone
          · exact hNext _ _ hCalm
          · apply Safe.bind (recorded_firstPost hCalm _)
            rintro first s₁ rfl
            cases first with
            | error e => exact Safe.pure hCalm.heldBack trivial
            | ok _ =>
                apply Safe.bind (recorded_deliver hCalm wm _ hNone _)
                intro out s₂ hOut
                cases out with
                | error res' => exact Safe.pure hOut.held trivial
                | ok res' => exact hNext _ _ (hOut.calm res' rfl)

theorem recorded_storedWatermark (cfg : RunConfig) :
    Safe recorder HeldBack (storedWatermark cfg) s (fun _ s' => NoFatal s') := by
  apply recorded_perform hCalm.heldBack rfl
  intro stored
  cases stored with
  | none => exact Safe.pure hCalm.heldBack hCalm
  | some stored => cases stored <;> exact Safe.pure hCalm.heldBack hCalm

theorem recorded_watermark (cfg : RunConfig) :
    Safe recorder HeldBack (watermark cfg) s (fun _ s' => NoFatal s') := by
  rw [watermark]
  split_ifs
  · exact recorded_storedWatermark hCalm cfg
  · apply recorded_perform hCalm.heldBack rfl
    intro stored
    cases stored with
    | none =>
        apply recorded_perform hCalm.heldBack rfl
        intro _
        exact recorded_storedWatermark hCalm cfg
    | some stored =>
        simp only
        split_ifs
        · exact recorded_storedWatermark hCalm cfg
        · -- another identity: the watermark is set afresh, before any post
          have hMoved : NoFatal (s ++ [.moved cfg.fresh]) :=
            hCalm.concat (e := .moved cfg.fresh) (fun h => h)
          apply Safe.perform hCalm.heldBack
          rintro _ _ rfl
          apply recorded_perform hMoved.heldBack rfl
          intro _
          apply recorded_perform hMoved.heldBack rfl
          intro _
          exact Safe.pure hMoved.heldBack hMoved

end AnyCloud

/-- A run against any cloud moves the watermark after no fatal post. -/
theorem recorded_runOnce [SqlReal V] (cfg : RunConfig) :
    Safe recorder HeldBack (runOnce (V := V) cfg) [] (fun _ _ => True) := by
  have hEmpty : NoFatal ([] : List (SyncEvent V)) := fun e he => by cases he
  apply Safe.bind (recorded_watermark hEmpty cfg)
  intro wm s hCalm
  exact recorded_runBatches hCalm _ wm _

/-- Isolation is exact: against a cloud that refuses the bad rows it ends with their
number, each good row is in a post that succeeded and no bad one is. And it is safe:
against any cloud it raises once a post is fatal, and the run moves the watermark
after none. -/
theorem isolate_exact [SqlReal V] {rows : List (Row V)} (hne : rows ≠ []) (bad : Row V → Bool)
    {status : Nat} (hStatus : 400 ≤ status) (hRetry : status ∉ retryableStatus) :
    Ends (poisonCloud bad status) (isolate rows hne) [] (fun res events =>
        res = .ok (rows.countP bad) ∧ IsolatedBy bad rows events) ∧
      (∀ events res, Exec recorder (isolate rows hne) [] events (some res) →
        (∃ e ∈ events, e.Fatal) → ∃ error, res = .error error) ∧
      ∀ (cfg : RunConfig) (events : List (SyncEvent V)) (o : Option SyncResult),
        Exec recorder (runOnce cfg) [] events o → HeldBack events := by
  have hEmpty : NoFatal ([] : List (SyncEvent V)) := fun e he => by cases he
  refine ⟨ends_isolate hStatus hRetry rows hne, ?_, ?_⟩
  · rintro events res hExec ⟨e, hMem, hFatal⟩
    cases res with
    | error error => exact ⟨error, rfl⟩
    | ok n =>
        have hEnd := ((recorded_isolate hEmpty rows hne).exec hExec).2 _ rfl
        exact absurd hFatal (hEnd.calm n rfl e hMem)
  · intro cfg events o hExec
    exact ((recorded_runOnce cfg).exec hExec).1

/-- Three closed minutes of one metric, the middle one with a negative mean. -/
def threeMinutes : List (Row ℚ) :=
  [(⟨60, "mppt", "pv_power_w"⟩, ⟨5, 5, 5, 1⟩), (⟨120, "mppt", "pv_power_w"⟩, ⟨-1, -1, -1, 1⟩),
    (⟨180, "mppt", "pv_power_w"⟩, ⟨7, 7, 7, 1⟩)]

/-- A cloud that answers 422 to every row with a negative mean. -/
theorem isolate_exact_422 :
    Ends (poisonCloud (fun row => row.2.avg < 0) 422)
      (isolate threeMinutes (List.cons_ne_nil _ _)) [] (fun res _ => res = .ok 1) := by
  have hExact := (isolate_exact (List.cons_ne_nil _ _ : threeMinutes ≠ [])
    (fun row => row.2.avg < 0) (by decide : 400 ≤ 422) (by decide)).1
  apply hExact.mono
  rintro res events ⟨rfl, _⟩
  rfl

end WattPost.Cloud
