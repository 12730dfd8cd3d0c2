import WattPost.Cloud.ViewPublisher
import Mathlib.Data.Finset.Card
import Mathlib.Data.List.Basic
import Mathlib.Data.List.Nodup

/-! Whether every view gets its turn. A round takes the first due views in the order
of the dict, as many as a batch holds, so a view that stands further behind waits as
long as those before it keep coming due again. -/
namespace WattPost.Cloud

open Keyed Runs

section Names

/-- The names of a device's views end differently, and a device has one label. -/
theorem deviceView_inj {label label' ending ending' : String}
    (hEnding : ending ∈ ["/lifetime", "/efficiency", "/charger-stats"])
    (hEnding' : ending' ∈ ["/lifetime", "/efficiency", "/charger-stats"])
    (h : "device/" ++ label ++ ending = "device/" ++ label' ++ ending') :
    label = label' ∧ ending = ending' := by
  have hLast : ∀ (start : String), ∀ e ∈ ["/lifetime", "/efficiency", "/charger-stats"],
      (start ++ e).toList.getLast? = e.toList.getLast? := by
    intro start e he
    rw [String.toList_append, List.getLast?_append]
    simp only [List.mem_cons, List.not_mem_nil, or_false] at he
    rcases he with rfl | rfl | rfl <;> rfl
  have hSame : ending.toList.getLast? = ending'.toList.getLast? := by
    rw [← hLast _ ending hEnding, h, hLast _ ending' hEnding']
  have hEq : ending = ending' := by
    simp only [List.mem_cons, List.not_mem_nil, or_false] at hEnding hEnding'
    rcases hEnding with rfl | rfl | rfl <;> rcases hEnding' with rfl | rfl | rfl <;>
      first | rfl | exact absurd hSame (by decide)
  subst hEq
  exact ⟨by simpa using h, rfl⟩

/-- The views of one device. -/
def viewsOf (m : LatestDevice) : List String :=
  if m.label = "bank" then []
  else
    (if m.kind = "smart_battery" || m.kind = "shunt" || m.metrics.contains "cycle_count" then
      ["device/" ++ m.label ++ "/lifetime", "device/" ++ m.label ++ "/efficiency"]
    else []) ++
    if m.metrics.contains "output_1_power_w" || m.metrics.contains "pv_power_w" then
      ["device/" ++ m.label ++ "/charger-stats"]
    else []

theorem viewsOf_sublist (m : LatestDevice) : (viewsOf m).Sublist
    (["/lifetime", "/efficiency", "/charger-stats"].map fun e => "device/" ++ m.label ++ e) := by
  unfold viewsOf
  split_ifs <;> simp [List.sublist_cons_iff]

theorem nodup_deviceViews {latest : List LatestDevice}
    (hLabels : (latest.map LatestDevice.label).Nodup) : (deviceViews latest).Nodup := by
  change (latest.flatMap viewsOf).Nodup
  apply List.nodup_flatMap.mpr
  constructor
  · intro m _
    apply (viewsOf_sublist m).nodup
    apply List.Nodup.map_on _ (by decide)
    intro e he e' he' h
    exact (deviceView_inj he he' h).2
  · apply (List.pairwise_map.mp hLabels).imp
    intro m m' hLabel name hName hName'
    obtain ⟨e, he, rfl⟩ := List.mem_map.mp ((viewsOf_sublist m).subset hName)
    obtain ⟨e', he', h⟩ := List.mem_map.mp ((viewsOf_sublist m').subset hName')
    exact hLabel (deviceView_inj he' he h).1.symm

theorem deviceViews_start {latest : List LatestDevice} {name : String}
    (h : name ∈ deviceViews latest) : name.toList.head? = some 'd' := by
  obtain ⟨m, _, hName⟩ := List.mem_flatMap.mp h
  obtain ⟨e, _, rfl⟩ := List.mem_map.mp ((viewsOf_sublist m).subset hName)
  simp [String.toList_append]

/-- The keys of the dict are distinct. -/
theorem nodup_viewBuilders (analyticsEvery : Nat) {inputs : ViewInputs}
    (hLabels : (inputs.latest.map LatestDevice.label).Nodup) :
    ((viewBuilders analyticsEvery inputs).map Prod.fst).Nodup := by
  let before := ["snapshot", "today/soc-envelope", "runtime-forecast", "battery-health",
    "load-heatmap"]
  let after := energyRanges.map (fun r => "energy/b" ++ toString r.1) ++ ["forecast/pv"] ++
    (if inputs.configured then ["forecast/accuracy"] else []) ++ ["weather/current"] ++
    if inputs.configured then energyRanges.map (fun r => "weather/history/b" ++ toString r.1)
    else []
  have hNames : (viewBuilders analyticsEvery inputs).map Prod.fst =
      before ++ deviceViews inputs.latest ++ after := by
    simp only [viewBuilders, before, after]
    cases inputs.configured <;> simp [Function.comp_def]
  have hOthers : (before ++ after).Nodup ∧
      (before ++ after).all (fun name => name.toList.head? != some 'd') := by
    simp only [before, after]
    cases inputs.configured <;> decide +kernel
  have hApart : ∀ name ∈ before ++ after, name ∉ deviceViews inputs.latest := by
    intro name hName hDevice
    have hStart := List.all_eq_true.mp hOthers.2 name hName
    rw [deviceViews_start hDevice] at hStart
    cases hStart
  have hMoved : (before ++ deviceViews inputs.latest ++ after).Perm
      (before ++ after ++ deviceViews inputs.latest) := by
    rw [List.append_assoc, List.append_assoc]
    exact List.perm_append_comm.append_left before
  rw [hNames, hMoved.nodup_iff]
  apply List.nodup_append.mpr
  refine ⟨hOthers.1, nodup_deviceViews hLabels, ?_⟩
  rintro name hName _ hOther rfl
  exact hApart name hName hOther

end Names

section Selection

variable {D : Type} [DecidableEq D] (digest : ViewBody → D) (analyticsEvery : Nat)

/-- The interval of a view has elapsed, or the view was never sent. -/
def elapsed (sent : Table String (Sent D)) (now : ℚ) (view : String × Nat) : Bool :=
  !(sent.lookup view.1).any (fun p => view.2 != 0 && decide (now - p.at_ < view.2))

/-- A view is due and can be built. -/
def isReady (p : ViewPublisher D) (inputs : ViewInputs) (view : String × Nat) : Bool :=
  elapsed p.sent inputs.now view && (inputs.build view.1).isSome

/-- The views that could go up in a round, in the order of the dict. -/
def ready (p : ViewPublisher D) (inputs : ViewInputs) : List (String × Nat) :=
  (viewBuilders analyticsEvery inputs).filter (isReady p inputs)

/-- The names that a round returns. -/
def returned (p : ViewPublisher D) (inputs : ViewInputs) : List String :=
  (due digest analyticsEvery inputs p).out.rows.map Prod.fst

/-- `due`, and then `confirm` of what it returned. -/
def confirmedRound (p : ViewPublisher D) (inputs : ViewInputs) : ViewPublisher D :=
  let d := due digest analyticsEvery inputs p
  confirm (returned digest analyticsEvery p inputs) ⟨d.sent, d.pending⟩

/-- The content of every view that can be built has changed since it was last sent. -/
def Changed (p : ViewPublisher D) (inputs : ViewInputs) : Prop :=
  ∀ name body s, inputs.build name = some body → p.sent.lookup name = some s →
    s.digest ≠ digest (stable body)

/-- What the loop has done after the views of a part of the dict. -/
structure TurnInv (p : ViewPublisher D) (inputs : ViewInputs) (done : List (String × Nat))
    (d : DueLoop D) : Prop where
  sent : d.sent = p.sent
  names : ∀ name, name ∈ d.out.rows.map Prod.fst ↔
    name ∈ ((done.filter (isReady p inputs)).take maxViewsPerBatch).map Prod.fst
  length : d.out.rows.length = ((done.filter (isReady p inputs)).take maxViewsPerBatch).length
  pending : ∀ name ∈ d.out.rows.map Prod.fst, ∃ body, inputs.build name = some body ∧
    d.pending.lookup name = some ⟨digest (stable body), inputs.now⟩

variable {digest analyticsEvery} {p : ViewPublisher D} {inputs : ViewInputs}

omit [DecidableEq D] in
theorem TurnInv.skip {done : List (String × Nat)} {d : DueLoop D}
    (h : TurnInv digest p inputs done d) {view : String × Nat}
    (hSkip : isReady p inputs view = false) : TurnInv digest p inputs (done ++ [view]) d := by
  have hFilter : (done ++ [view]).filter (isReady p inputs) = done.filter (isReady p inputs) := by
    rw [List.filter_append, List.filter_singleton, hSkip]
    exact List.append_nil _
  refine ⟨h.sent, ?_, ?_, h.pending⟩
  · rw [hFilter]
    exact h.names
  · rw [hFilter]
    exact h.length

omit [DecidableEq D] in
/-- A full batch takes no further view. -/
theorem TurnInv.full {done : List (String × Nat)} {d : DueLoop D}
    (h : TurnInv digest p inputs done d) (view : String × Nat)
    (hFull : maxViewsPerBatch ≤ (done.filter (isReady p inputs)).length) :
    TurnInv digest p inputs (done ++ [view]) d := by
  have hTake : ((done ++ [view]).filter (isReady p inputs)).take maxViewsPerBatch =
      (done.filter (isReady p inputs)).take maxViewsPerBatch := by
    rw [List.filter_append, List.take_append_of_le_length hFull]
  refine ⟨h.sent, ?_, ?_, h.pending⟩
  · rw [hTake]
    exact h.names
  · rw [hTake]
    exact h.length

omit [DecidableEq D] in
/-- While there is room a ready view is put into the batch. -/
theorem TurnInv.put {done : List (String × Nat)} {d d' : DueLoop D}
    (h : TurnInv digest p inputs done d) {view : String × Nat}
    (hNew : view.1 ∉ done.map Prod.fst) (hReady : isReady p inputs view = true)
    (hRoom : (done.filter (isReady p inputs)).length < maxViewsPerBatch) {body : ViewBody}
    (hBuild : inputs.build view.1 = some body) (hSent : d'.sent = d.sent)
    (hOut : d'.out = d.out.insert view.1 body)
    (hPending : d'.pending = d.pending.insert view.1 ⟨digest (stable body), inputs.now⟩) :
    TurnInv digest p inputs (done ++ [view]) d' := by
  have hBefore : (done.filter (isReady p inputs)).take maxViewsPerBatch =
      done.filter (isReady p inputs) := List.take_of_length_le hRoom.le
  have hAfter : ((done ++ [view]).filter (isReady p inputs)).take maxViewsPerBatch =
      done.filter (isReady p inputs) ++ [view] := by
    rw [List.filter_append, List.filter_singleton, hReady]
    apply List.take_of_length_le
    rw [List.length_append]
    exact hRoom
  have hNotOut : d.out.lookup view.1 = none := by
    by_contra hSome
    obtain ⟨old, hOld⟩ := Option.ne_none_iff_exists'.mp hSome
    have hIn := (h.names view.1).mp (mem_names.mpr ⟨old, hOld⟩)
    rw [hBefore] at hIn
    obtain ⟨earlier, hEarlier, hName⟩ := List.mem_map.mp hIn
    exact hNew (List.mem_map.mpr ⟨earlier, List.mem_of_mem_filter hEarlier, hName⟩)
  refine ⟨hSent.trans h.sent, ?_, ?_, ?_⟩
  · intro other
    rw [hAfter, mem_names, hOut, Table.lookup_insert, List.map_append, List.mem_append, ← hBefore,
      ← h.names other, mem_names]
    by_cases hOther : other = view.1
    · simp [hOther]
    · simp [hOther]
  · rw [hAfter, hOut, Table.length_insert hNotOut, h.length, hBefore, List.length_append]
    rfl
  · intro other hIn
    rw [hPending, Table.lookup_insert]
    by_cases hOther : other = view.1
    · rw [hOther, if_pos rfl]
      exact ⟨body, hBuild, rfl⟩
    · rw [if_neg hOther]
      apply h.pending other
      rw [mem_names, hOut, Table.lookup_insert, if_neg hOther] at hIn
      exact mem_names.mpr hIn

theorem TurnInv.turn {done : List (String × Nat)} {d : DueLoop D}
    (h : TurnInv digest p inputs done d) (hChanged : Changed digest p inputs)
    {view : String × Nat} (hNew : view.1 ∉ done.map Prod.fst) :
    TurnInv digest p inputs (done ++ [view]) (dueTurn digest inputs d view) := by
  obtain ⟨name, every⟩ := view
  have hLength := h.length
  rw [List.length_take] at hLength
  unfold dueTurn
  dsimp only
  split_ifs with hFull hWaits
  · exact h.full _ (by omega)
  · -- the interval has not elapsed
    have hSkip : isReady p inputs (name, every) = false := by
      rw [isReady, elapsed, ← h.sent, hWaits]
      rfl
    exact h.skip hSkip
  · have hElapsed : elapsed p.sent inputs.now (name, every) = true := by
      rw [elapsed, ← h.sent, Bool.eq_false_iff.mpr hWaits]
      rfl
    cases hBuild : inputs.build name with
    | none =>
        have hSkip : isReady p inputs (name, every) = false := by
          rw [isReady, hBuild]
          exact Bool.and_false _
        exact h.skip hSkip
    | some body =>
        have hReady : isReady p inputs (name, every) = true := by
          rw [isReady, hElapsed, hBuild]
          rfl
        have hOther : (d.sent.lookup name).any
            (fun s => s.digest == digest (stable body)) = false := by
          rw [h.sent]
          cases hSent : p.sent.lookup name with
          | none => rfl
          | some s => exact beq_false_of_ne (hChanged name body s hBuild hSent)
        simp only [hOther, Bool.false_and, Bool.false_eq_true, if_false]
        exact h.put hNew hReady (by omega) hBuild rfl rfl rfl

/-- A round returns the first ready views, as many as a batch holds. -/
theorem turnInv_due (hChanged : Changed digest p inputs)
    (hLabels : (inputs.latest.map LatestDevice.label).Nodup) :
    TurnInv digest p inputs (viewBuilders analyticsEvery inputs)
      (due digest analyticsEvery inputs p) := by
  have hLoop : ∀ views done d, ((done ++ views).map Prod.fst).Nodup →
      TurnInv digest p inputs done d →
        TurnInv digest p inputs (done ++ views) (views.foldl (dueTurn digest inputs) d) := by
    intro views
    induction views with
    | nil =>
        intro done d _ h
        rwa [List.append_nil]
    | cons view views ih =>
        intro done d hNames h
        rw [List.append_cons] at hNames ⊢
        apply ih _ _ hNames
        apply h.turn hChanged
        intro hOld
        rw [List.map_append, List.map_append] at hNames
        exact (List.nodup_append.mp (List.nodup_append.mp hNames).1).2.2 _ hOld _
          (List.mem_singleton.mpr rfl) rfl
  apply hLoop _ [] _ (nodup_viewBuilders analyticsEvery hLabels)
  exact ⟨rfl, fun _ => Iff.rfl, rfl, fun name hName => by cases hName⟩

/-- What the rounds of a run have in common: the views, and those of them that can be
built, each with other content than was sent last. -/
structure Steady (digest : ViewBody → D) (analyticsEvery : Nat) (views : List (String × Nat))
    (builds : String → Bool) (p : ViewPublisher D) (inputs : ViewInputs) : Prop where
  labels : (inputs.latest.map LatestDevice.label).Nodup
  views : viewBuilders analyticsEvery inputs = views
  builds : ∀ name, (inputs.build name).isSome = builds name
  changed : Changed digest p inputs

variable {views : List (String × Nat)} {builds : String → Bool}

omit [DecidableEq D] in
theorem Steady.nodup (h : Steady digest analyticsEvery views builds p inputs) :
    (views.map Prod.fst).Nodup := h.views ▸ nodup_viewBuilders analyticsEvery h.labels

theorem Steady.turnInv (h : Steady digest analyticsEvery views builds p inputs) :
    TurnInv digest p inputs views (due digest analyticsEvery inputs p) := by
  rw [← h.views]
  exact turnInv_due h.changed h.labels

omit [DecidableEq D] in
theorem Steady.ready_eq (h : Steady digest analyticsEvery views builds p inputs) :
    ready analyticsEvery p inputs =
      views.filter fun view => elapsed p.sent inputs.now view && builds view.1 := by
  rw [ready, h.views]
  apply List.filter_congr
  intro view _
  rw [isReady, h.builds]

theorem eq_of_name {view other : String × Nat} (hNames : (views.map Prod.fst).Nodup)
    (hView : view ∈ views) (hOther : other ∈ views) (h : view.1 = other.1) : view = other :=
  List.inj_on_of_nodup_map hNames hView hOther h

/-- A view is returned if it has one of the first places. -/
theorem Steady.mem_returned (h : Steady digest analyticsEvery views builds p inputs)
    {view : String × Nat} (hView : view ∈ views) :
    view.1 ∈ returned digest analyticsEvery p inputs ↔
      view ∈ (ready analyticsEvery p inputs).take maxViewsPerBatch := by
  rw [returned, h.turnInv.names, ready, h.views]
  constructor
  · intro hName
    obtain ⟨other, hOther, hEq⟩ := List.mem_map.mp hName
    have hIn := List.mem_of_mem_filter (List.mem_of_mem_take hOther)
    rwa [eq_of_name h.nodup hView hIn hEq.symm]
  · intro hTake
    exact List.mem_map.mpr ⟨view, hTake, rfl⟩

theorem Steady.lookup_of_returned (h : Steady digest analyticsEvery views builds p inputs)
    {name : String} (hName : name ∈ returned digest analyticsEvery p inputs) :
    ∃ body, inputs.build name = some body ∧
      (confirmedRound digest analyticsEvery p inputs).sent.lookup name =
        some ⟨digest (stable body), inputs.now⟩ := by
  obtain ⟨body, hBuild, hPending⟩ := h.turnInv.pending name hName
  refine ⟨body, hBuild, ?_⟩
  rw [confirmedRound, lookup_confirm, if_pos hName, hPending]
  rfl

theorem Steady.lookup_of_not_returned (h : Steady digest analyticsEvery views builds p inputs)
    {name : String} (hName : name ∉ returned digest analyticsEvery p inputs) :
    (confirmedRound digest analyticsEvery p inputs).sent.lookup name = p.sent.lookup name := by
  rw [confirmedRound, lookup_confirm, if_neg hName, h.turnInv.sent]

end Selection

section Turns

variable {D : Type} [DecidableEq D] (digest : ViewBody → D) (analyticsEvery : Nat)

/-- A view was last sent when the interval of another had already elapsed. -/
def SentSince (p : ViewPublisher D) (view other : String × Nat) : Prop :=
  ∃ s, p.sent.lookup view.1 = some s ∧ elapsed p.sent s.at_ other = true

/-- No view that has a place, the snapshot apart, was already sent since a view that is
left without one fell due. -/
def NotAgain (p : ViewPublisher D) (inputs : ViewInputs) : Prop :=
  ∀ view ∈ (ready analyticsEvery p inputs).take maxViewsPerBatch,
    ∀ other ∈ (ready analyticsEvery p inputs).drop maxViewsPerBatch,
      view.1 ≠ "snapshot" → ¬ SentSince p view other

/-- The rounds within which each of `k` views gets its turn, if each round has a place
for the snapshot and 31 others. -/
def turnBound (k : Nat) : Nat := (k - 1 + 30) / 31

/-- Each view that can be built is returned in every so many consecutive rounds in which
its interval has elapsed. -/
def EachGetsItsTurn (views : List (String × Nat)) (builds : String → Bool)
    (p : ViewPublisher D) (rounds : List ViewInputs) : Prop :=
  ∀ before window after, rounds = before ++ window ++ after → window ≠ [] →
    turnBound (views.filter fun view => builds view.1).length ≤ window.length →
      ∀ view ∈ views, builds view.1 = true →
        StepsOk (confirmedRound digest analyticsEvery)
          (fun _ p inputs => elapsed p.sent inputs.now view = true)
          (run (confirmedRound digest analyticsEvery) p before) window →
        ∃ xs inputs ys, window = xs ++ inputs :: ys ∧
          view.1 ∈ returned digest analyticsEvery
            (run (confirmedRound digest analyticsEvery) p (before ++ xs)) inputs

variable {digest analyticsEvery} {views : List (String × Nat)} {builds : String → Bool}
  {p : ViewPublisher D} {inputs : ViewInputs}

/-- A due view is left out. -/
def LeftOut (digest : ViewBody → D) (analyticsEvery : Nat) (view : String × Nat)
    (p : ViewPublisher D) (inputs : ViewInputs) : Prop :=
  elapsed p.sent inputs.now view = true ∧ view.1 ∉ returned digest analyticsEvery p inputs

section LeftOut

variable (hSteady : Steady digest analyticsEvery views builds p inputs) {view : String × Nat}
  (hView : view ∈ views) (hBuilds : builds view.1 = true)
  (hLeft : LeftOut digest analyticsEvery view p inputs)

include hSteady hView hBuilds hLeft

theorem LeftOut.mem_drop : view ∈ (ready analyticsEvery p inputs).drop maxViewsPerBatch := by
  have hReady : view ∈ ready analyticsEvery p inputs := by
    rw [hSteady.ready_eq]
    apply List.mem_filter.mpr
    rw [hLeft.1, hBuilds]
    exact ⟨hView, rfl⟩
  rw [← List.take_append_drop maxViewsPerBatch (ready analyticsEvery p inputs)] at hReady
  rcases List.mem_append.mp hReady with hTake | hDrop
  · exact absurd ((hSteady.mem_returned hView).mpr hTake) hLeft.2
  · exact hDrop

theorem LeftOut.length_take :
    ((ready analyticsEvery p inputs).take maxViewsPerBatch).length = maxViewsPerBatch := by
  have hDrop := List.length_pos_of_mem (hLeft.mem_drop hSteady hView hBuilds)
  rw [List.length_drop] at hDrop
  rw [List.length_take]
  omega

omit hView hBuilds in
/-- While a view waits its own record stays. -/
theorem LeftOut.elapsed_confirmedRound (now : ℚ) :
    elapsed (confirmedRound digest analyticsEvery p inputs).sent now view =
      elapsed p.sent now view := by
  rw [elapsed, hSteady.lookup_of_not_returned hLeft.2]
  rfl

omit hView hBuilds in
/-- What is returned while a view waits is sent since that fell due. -/
theorem LeftOut.sentSince_of_returned {other : String × Nat}
    (hOther : other.1 ∈ returned digest analyticsEvery p inputs) :
    SentSince (confirmedRound digest analyticsEvery p inputs) other view := by
  obtain ⟨body, _, hSent⟩ := hSteady.lookup_of_returned hOther
  refine ⟨_, hSent, ?_⟩
  rw [hLeft.elapsed_confirmedRound hSteady]
  exact hLeft.1

omit hView hBuilds in
theorem LeftOut.sentSince_keeps {other : String × Nat} (h : SentSince p other view) :
    SentSince (confirmedRound digest analyticsEvery p inputs) other view := by
  by_cases hOther : other.1 ∈ returned digest analyticsEvery p inputs
  · exact hLeft.sentSince_of_returned hSteady hOther
  · obtain ⟨s, hSent, hElapsed⟩ := h
    refine ⟨s, ?_, ?_⟩
    · rw [hSteady.lookup_of_not_returned hOther]
      exact hSent
    · rw [hLeft.elapsed_confirmedRound hSteady]
      exact hElapsed

end LeftOut

/-- The entry of the snapshot. -/
def snapshotView : String × Nat := ("snapshot", snapshotEveryS)

omit [DecidableEq D] in
theorem Steady.snapshot_mem (h : Steady digest analyticsEvery views builds p inputs) :
    snapshotView ∈ views := by
  rw [← h.views]
  exact List.mem_cons_self

omit [DecidableEq D] in
/-- The snapshot is always due, and it comes first. -/
theorem Steady.snapshot_mem_take (h : Steady digest analyticsEvery views builds p inputs)
    (hBuilds : builds "snapshot" = true) :
    snapshotView ∈ (ready analyticsEvery p inputs).take maxViewsPerBatch := by
  have hReady : isReady p inputs snapshotView = true := by
    rw [isReady, h.builds, snapshotView, hBuilds, elapsed, snapshotEveryS]
    cases p.sent.lookup "snapshot" <;> rfl
  obtain ⟨rest, hRest⟩ : ∃ rest, viewBuilders analyticsEvery inputs = snapshotView :: rest :=
    ⟨_, rfl⟩
  rw [ready, hRest, List.filter_cons_of_pos hReady, maxViewsPerBatch, List.take_succ_cons]
  exact List.mem_cons_self

/-- The views other than the snapshot and one that waits. -/
def others (views : List (String × Nat)) (builds : String → Bool) (view : String × Nat) :
    Finset (String × Nat) :=
  ((views.filter fun view => builds view.1).toFinset.erase view).erase snapshotView

open Classical in
/-- Those not sent since the view that waits fell due. -/
noncomputable def unsent (views : List (String × Nat)) (builds : String → Bool)
    (view : String × Nat) (p : ViewPublisher D) : Finset (String × Nat) :=
  (others views builds view).filter fun other => ¬ SentSince p other view

omit [DecidableEq D] in
theorem mem_unsent {view other : String × Nat} :
    other ∈ unsent views builds view p ↔
      other ∈ others views builds view ∧ ¬ SentSince p other view := by
  simp only [unsent, Finset.mem_filter]

/-- The places that a full round has for other views than the snapshot. -/
def places (builds : String → Bool) : Nat :=
  if builds "snapshot" then maxViewsPerBatch - 1 else maxViewsPerBatch

/-- Each round that leaves a view out uses up so many others. -/
theorem LeftOut.card_unsent {view : String × Nat}
    (hSteady : Steady digest analyticsEvery views builds p inputs) (hView : view ∈ views)
    (hBuilds : builds view.1 = true) (hNotAgain : NotAgain analyticsEvery p inputs)
    (hLeft : LeftOut digest analyticsEvery view p inputs) :
    (unsent views builds view (confirmedRound digest analyticsEvery p inputs)).card +
      places builds ≤ (unsent views builds view p).card := by
  have hDrop := hLeft.mem_drop hSteady hView hBuilds
  have hLength := hLeft.length_take hSteady hView hBuilds
  let turn := ((ready analyticsEvery p inputs).take maxViewsPerBatch).toFinset.erase snapshotView
  have hTurn : ∀ other ∈ turn, other ∈ views ∧ builds other.1 = true ∧
      other ∈ (ready analyticsEvery p inputs).take maxViewsPerBatch ∧
        other.1 ≠ "snapshot" := by
    intro other hOther
    obtain ⟨hNe, hMem⟩ := Finset.mem_erase.mp hOther
    have hTake := List.mem_toFinset.mp hMem
    have hReady := List.mem_of_mem_take hTake
    rw [hSteady.ready_eq] at hReady
    obtain ⟨hIn, hDue⟩ := List.mem_filter.mp hReady
    refine ⟨hIn, (Bool.and_eq_true_iff.mp hDue).2, hTake, fun hName => hNe ?_⟩
    exact eq_of_name hSteady.nodup hIn hSteady.snapshot_mem hName
  have hNodup : ((ready analyticsEvery p inputs).take maxViewsPerBatch).Nodup := by
    rw [hSteady.ready_eq]
    exact ((hSteady.nodup.of_map _).filter _).sublist (List.take_sublist _ _)
  have hCard : places builds ≤ turn.card := by
    have hAll : ((ready analyticsEvery p inputs).take maxViewsPerBatch).toFinset.card =
        maxViewsPerBatch := by rw [List.toFinset_card_of_nodup hNodup, hLength]
    rw [places]
    split_ifs with hSnapshot
    · rw [← hAll]
      exact Finset.pred_card_le_card_erase
    · have hNotIn : snapshotView ∉
          ((ready analyticsEvery p inputs).take maxViewsPerBatch).toFinset := by
        intro hMem
        have hReady := List.mem_of_mem_take (List.mem_toFinset.mp hMem)
        rw [hSteady.ready_eq] at hReady
        exact hSnapshot (Bool.and_eq_true_iff.mp (List.mem_filter.mp hReady).2).2
      simp only [turn]
      rw [Finset.erase_eq_of_notMem hNotIn, hAll]
  have hTurnSub : turn ⊆ unsent views builds view p := by
    intro other hOther
    obtain ⟨hIn, hOk, hTake, hName⟩ := hTurn other hOther
    apply mem_unsent.mpr
    refine ⟨?_, hNotAgain other hTake view hDrop hName⟩
    apply Finset.mem_erase.mpr
    refine ⟨(Finset.mem_erase.mp hOther).1, ?_⟩
    apply Finset.mem_erase.mpr
    refine ⟨?_, List.mem_toFinset.mpr (List.mem_filter.mpr ⟨hIn, hOk⟩)⟩
    rintro rfl
    exact hLeft.2 ((hSteady.mem_returned hIn).mpr hTake)
  have hRest : unsent views builds view (confirmedRound digest analyticsEvery p inputs) ⊆
      unsent views builds view p \ turn := by
    intro other hOther
    obtain ⟨hIn, hUnsent⟩ := mem_unsent.mp hOther
    apply Finset.mem_sdiff.mpr
    constructor
    · exact mem_unsent.mpr ⟨hIn, fun h => hUnsent (hLeft.sentSince_keeps hSteady h)⟩
    · intro hMem
      obtain ⟨hIn, _, hTake, _⟩ := hTurn other hMem
      exact hUnsent (hLeft.sentSince_of_returned hSteady ((hSteady.mem_returned hIn).mpr hTake))
  calc _ ≤ (unsent views builds view p \ turn).card + turn.card :=
        Nat.add_le_add (Finset.card_le_card hRest) hCard
    _ = (unsent views builds view p).card := Finset.card_sdiff_add_card_eq_card hTurnSub

theorem card_others {view : String × Nat} (hNames : (views.map Prod.fst).Nodup)
    (hSnapshot : snapshotView ∈ views) (hView : view ∈ views) (hBuilds : builds view.1 = true)
    (hOther : view ≠ snapshotView) :
    (others views builds view).card + 1 + (if builds "snapshot" then 1 else 0) =
      (views.filter fun view => builds view.1).length := by
  have hIn : view ∈ (views.filter fun view => builds view.1).toFinset :=
    List.mem_toFinset.mpr (List.mem_filter.mpr ⟨hView, hBuilds⟩)
  have hAll : (views.filter fun view => builds view.1).toFinset.card =
      (views.filter fun view => builds view.1).length :=
    List.toFinset_card_of_nodup ((hNames.of_map _).filter _)
  have hErase := Finset.card_erase_add_one hIn
  rw [others]
  split_ifs with hSnapshotBuilds
  · have hMem : snapshotView ∈ (views.filter fun view => builds view.1).toFinset.erase view :=
      Finset.mem_erase.mpr ⟨hOther.symm,
        List.mem_toFinset.mpr (List.mem_filter.mpr ⟨hSnapshot, hSnapshotBuilds⟩)⟩
    have hEraseBoth := Finset.card_erase_add_one hMem
    omega
  · have hNotIn : snapshotView ∉ (views.filter fun view => builds view.1).toFinset.erase view := by
      intro hMem
      exact hSnapshotBuilds
        (List.mem_filter.mp (List.mem_toFinset.mp (Finset.mem_erase.mp hMem).2)).2
    rw [Finset.erase_eq_of_notMem hNotIn]
    omega

/-- In every run whose rounds return no view again while one waits, each view gets its
turn. -/
theorem each_gets_its_turn {rounds : List ViewInputs}
    (hSteady : StepsOk (confirmedRound digest analyticsEvery)
      (fun _ => Steady digest analyticsEvery views builds) p rounds)
    (hNotAgain : StepsOk (confirmedRound digest analyticsEvery)
      (fun _ => NotAgain analyticsEvery) p rounds) :
    EachGetsItsTurn digest analyticsEvery views builds p rounds := by
  rintro before window after rfl hSome hBound view hView hBuilds hElapsed
  have hSteady := hSteady.of_append.of_append_right
  have hNotAgain := hNotAgain.of_append.of_append_right
  by_contra hNever
  have hLeft : StepsOk (confirmedRound digest analyticsEvery)
      (fun _ p inputs => Steady digest analyticsEvery views builds p inputs ∧
        NotAgain analyticsEvery p inputs ∧ LeftOut digest analyticsEvery view p inputs)
      (run (confirmedRound digest analyticsEvery) p before) window := by
    intro xs inputs ys hSplit
    refine ⟨hSteady xs inputs ys hSplit, hNotAgain xs inputs ys hSplit,
      hElapsed xs inputs ys hSplit, fun hReturned => hNever ⟨xs, inputs, ys, hSplit, ?_⟩⟩
    rwa [run_append]
  have hPos : 0 < window.length := List.length_pos_of_ne_nil hSome
  obtain ⟨first, rest, hWindow⟩ := List.exists_cons_of_ne_nil hSome
  obtain ⟨hFirst, _, hFirstLeft⟩ := hLeft [] first rest hWindow
  by_cases hSnapshot : view = snapshotView
  · subst hSnapshot
    exact hFirstLeft.2 ((hFirst.mem_returned hView).mpr (hFirst.snapshot_mem_take hBuilds))
  · have hUsed : window.length * places builds ≤ (unsent views builds view
        (run (confirmedRound digest analyticsEvery) p before)).card := by
      apply hLeft.length_mul_le (fun p => (unsent views builds view p).card)
      intro _ p inputs h
      exact h.2.2.card_unsent h.1 hView hBuilds h.2.1
    have hOthers := hUsed.trans (Finset.card_le_card fun _ h => (mem_unsent.mp h).1)
    have hCard := card_others hFirst.nodup hFirst.snapshot_mem hView hBuilds hSnapshot
    rw [turnBound] at hBound
    rw [places, maxViewsPerBatch] at hOthers
    split_ifs at hOthers hCard <;> omega

/-- Where every view is due in every round, those behind the first places are never
returned. -/
theorem not_returned_of_behind (hSteady : Steady digest analyticsEvery views builds p inputs)
    (hElapsed : ∀ view ∈ views, elapsed p.sent inputs.now view = true) {view : String × Nat}
    (hBehind : view ∈ (views.filter fun view => builds view.1).drop maxViewsPerBatch) :
    view.1 ∉ returned digest analyticsEvery p inputs := by
  have hReady : ready analyticsEvery p inputs = views.filter fun view => builds view.1 := by
    rw [hSteady.ready_eq]
    apply List.filter_congr
    intro view hView
    rw [hElapsed view hView, Bool.true_and]
  have hNodup : (views.filter fun view => builds view.1).Nodup :=
    (hSteady.nodup.of_map _).filter _
  intro hReturned
  have hTake := (hSteady.mem_returned (List.mem_of_mem_filter (List.mem_of_mem_drop hBehind))).mp
    hReturned
  rw [hReady] at hTake
  exact List.disjoint_take_drop hNodup le_rfl hTake hBehind

/-! ### Six batteries -/

/-- A battery with a charger, which has three views. -/
def batteryWithCharger (label : String) : LatestDevice := ⟨label, "smart_battery", ["pv_power_w"]⟩

/-- A round at a given time in which every view has a given value. -/
def sixBatteries (now : ℚ) (value : Int) : ViewInputs where
  now := now
  latest := ["a", "b", "c", "d", "e", "f"].map batteryWithCharger
  configured := true
  build := fun _ => some (viewOf value)

/-- The thirty-four views of the six batteries. -/
def sixBatteryViews : List (String × Nat) := viewBuilders analyticsEveryS (sixBatteries 0 0)

theorem steady_first : Steady (id : ViewBody → ViewBody) analyticsEveryS sixBatteryViews
    (fun _ => true) .initial (sixBatteries 0 0) where
  labels := by decide +kernel
  views := rfl
  builds _ := rfl
  changed name body s _ hSent := by cases hSent

/-- The publisher after the first round. -/
def afterFirst : ViewPublisher ViewBody :=
  confirmedRound id analyticsEveryS .initial (sixBatteries 0 0)

theorem sent_afterFirst {name : String} {s : Sent ViewBody}
    (h : afterFirst.sent.lookup name = some s) : s = ⟨stable (viewOf 0), 0⟩ := by
  rw [afterFirst] at h
  by_cases hName : name ∈ returned id analyticsEveryS ViewPublisher.initial (sixBatteries 0 0)
  · obtain ⟨body, hBuild, hSent⟩ := steady_first.lookup_of_returned hName
    cases hBuild
    rw [hSent] at h
    exact (Option.some.inj h).symm
  · rw [steady_first.lookup_of_not_returned hName] at h
    cases h

theorem sixBatteryViews_eq (now : ℚ) (value : Int) :
    viewBuilders analyticsEveryS (sixBatteries now value) = sixBatteryViews := by
  simp only [sixBatteryViews, viewBuilders, sixBatteries]

theorem changed_second (now : ℚ) :
    Changed (id : ViewBody → ViewBody) afterFirst (sixBatteries now 1) := by
  intro name body s hBuild hSent
  cases hBuild
  rw [sent_afterFirst hSent]
  decide +kernel

theorem steady_second (now : ℚ) : Steady (id : ViewBody → ViewBody) analyticsEveryS
    sixBatteryViews (fun _ => true) afterFirst (sixBatteries now 1) :=
  ⟨steady_first.labels, sixBatteryViews_eq now 1, fun _ => rfl, changed_second now⟩

theorem elapsed_second {now : ℚ} {view : String × Nat} (h : (view.2 : ℚ) ≤ now) :
    elapsed afterFirst.sent now view = true := by
  rw [elapsed]
  cases hSent : afterFirst.sent.lookup view.1 with
  | none => rfl
  | some s =>
      rw [sent_afterFirst hSent]
      simp [Rat.not_lt.mpr h]

theorem not_elapsed_second {view : String × Nat}
    (hView : view ∈ sixBatteryViews.take maxViewsPerBatch) (hEvery : 60 < view.2) :
    elapsed afterFirst.sent 60 view = false := by
  have hReady : ready analyticsEveryS (ViewPublisher.initial : ViewPublisher ViewBody)
      (sixBatteries 0 0) = sixBatteryViews := by
    rw [steady_first.ready_eq]
    exact List.filter_eq_self.mpr fun _ _ => rfl
  have hReturned : view.1 ∈ returned id analyticsEveryS
      (ViewPublisher.initial : ViewPublisher ViewBody) (sixBatteries 0 0) := by
    rw [steady_first.mem_returned (List.mem_of_mem_take hView), hReady]
    exact hView
  obtain ⟨body, _, hSent⟩ := steady_first.lookup_of_returned hReturned
  have hPositive : view.2 ≠ 0 := by omega
  have hLess : (60 : ℚ) < view.2 := by exact_mod_cast hEvery
  rw [elapsed, afterFirst, hSent]
  simp [hPositive, hLess, sixBatteries]

theorem length_ready_minute :
    (ready analyticsEveryS afterFirst (sixBatteries 60 1)).length ≤ maxViewsPerBatch := by
  have hNodup := (steady_first.nodup.of_map _).filter
    fun view => elapsed afterFirst.sent 60 view && true
  have hSubset : (sixBatteryViews.filter fun view => elapsed afterFirst.sent 60 view && true) ⊆
      (sixBatteryViews.erase ("battery-health", analyticsEveryS)).erase
        ("load-heatmap", analyticsEveryS) := by
    intro view hMem
    obtain ⟨hView, hElapsed⟩ := List.mem_filter.mp hMem
    have hNot : ∀ sent ∈ sixBatteryViews.take maxViewsPerBatch, 60 < sent.2 → view ≠ sent := by
      rintro sent hSent hEvery rfl
      rw [not_elapsed_second hSent hEvery] at hElapsed
      cases hElapsed
    have hHealth := hNot ("battery-health", analyticsEveryS) (by decide +kernel) (by decide)
    have hHeatmap := hNot ("load-heatmap", analyticsEveryS) (by decide +kernel) (by decide)
    exact (List.mem_erase_of_ne hHeatmap).mpr ((List.mem_erase_of_ne hHealth).mpr hView)
  rw [(steady_second 60).ready_eq]
  refine (hNodup.subperm hSubset).length_le.trans ?_
  decide +kernel

theorem steady_rounds (now : ℚ) : StepsOk (confirmedRound id analyticsEveryS)
    (fun _ => Steady id analyticsEveryS sixBatteryViews fun _ => true) .initial
    [sixBatteries 0 0, sixBatteries now 1] := by
  refine stepsOk_cons.mpr ⟨steady_first, ?_⟩
  exact stepsOk_cons.mpr ⟨steady_second now, stepsOk_nil⟩

/-- A minute later only the views that were left out are due, and they get their turn. -/
theorem each_gets_its_turn_minute :
    EachGetsItsTurn (id : ViewBody → ViewBody) analyticsEveryS sixBatteryViews (fun _ => true)
      .initial [sixBatteries 0 0, sixBatteries 60 1] := by
  apply each_gets_its_turn (steady_rounds 60)
  have hFirst : NotAgain analyticsEveryS (ViewPublisher.initial : ViewPublisher ViewBody)
      (sixBatteries 0 0) := by
    rintro view _ other _ _ ⟨s, hSent, _⟩
    cases hSent
  refine stepsOk_cons.mpr ⟨hFirst, stepsOk_cons.mpr ⟨?_, stepsOk_nil⟩⟩
  -- two views that are not due leave room for all others
  intro view _ other
    (hOther : other ∈ (ready analyticsEveryS afterFirst (sixBatteries 60 1)).drop maxViewsPerBatch)
  have hDrop := List.length_pos_of_mem hOther
  rw [List.length_drop] at hDrop
  have hLength := length_ready_minute
  omega

/-- Half an hour later all are due again, and the last two views are left out again. -/
theorem last_view_left_out :
    StepsOk (confirmedRound id analyticsEveryS)
        (fun _ => Steady (id : ViewBody → ViewBody) analyticsEveryS sixBatteryViews fun _ => true)
        .initial [sixBatteries 0 0, sixBatteries 1800 1] ∧
      ¬ EachGetsItsTurn (id : ViewBody → ViewBody) analyticsEveryS sixBatteryViews (fun _ => true)
        .initial [sixBatteries 0 0, sixBatteries 1800 1] := by
  refine ⟨steady_rounds 1800, fun hTurns => ?_⟩
  have hLast : ("weather/history/b21600", weatherHistoryEveryS) ∈
      (sixBatteryViews.filter fun _ => true).drop maxViewsPerBatch := by decide +kernel
  have hEvery : sixBatteryViews.all (fun view => view.2 ≤ 1800) = true := by decide +kernel
  have hElapsed : ∀ view ∈ sixBatteryViews, elapsed afterFirst.sent 1800 view = true := by
    intro view hView
    apply elapsed_second
    have hLe : view.2 ≤ 1800 := by simpa using List.all_eq_true.mp hEvery view hView
    exact_mod_cast hLe
  have hView := List.mem_of_mem_filter (List.mem_of_mem_drop hLast)
  obtain ⟨xs, inputs, ys, hSplit, hReturned⟩ := hTurns [] _ [] (List.append_nil _).symm
    (List.cons_ne_nil _ _) (by decide +kernel) _ hView rfl
    (stepsOk_cons.mpr ⟨rfl, stepsOk_cons.mpr ⟨hElapsed _ hView, stepsOk_nil⟩⟩)
  rw [List.nil_append] at hReturned
  cases xs with
  | nil =>
      obtain ⟨rfl, _⟩ := List.cons.inj hSplit
      exact not_returned_of_behind steady_first (fun _ _ => rfl) hLast hReturned
  | cons first xs =>
      obtain ⟨rfl, hRest⟩ := List.cons.inj hSplit
      cases xs with
      | nil =>
          obtain ⟨rfl, _⟩ := List.cons.inj hRest
          exact not_returned_of_behind (steady_second 1800) hElapsed hLast hReturned
      | cons second xs =>
          have hShort := congrArg List.length hRest
          simp at hShort

end Turns

end WattPost.Cloud
