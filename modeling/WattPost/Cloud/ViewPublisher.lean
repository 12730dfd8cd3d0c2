import WattPost.Cloud.Json
import WattPost.Lib.Runs
import WattPost.Lib.Table
import Mathlib.Data.Rat.Defs
import Mathlib.Data.String.Basic

/-! `ViewPublisher`: which views go up with a sync, and what the appliance
believes that the cloud has. The belief is written only when a response comes
back, so it falls behind when an upload is stored and its response is lost. -/
namespace WattPost.Cloud

open Keyed Runs

section Publisher

/-- The body of a view: a dict. -/
abbrev ViewBody := Table String Json

/-- `_stable`. -/
def stable (body : ViewBody) : ViewBody :=
  body.filterKeys fun name => !(["ts", "now_ts", "since_ts", "until_ts"].contains name)

/-- `_Sent`, for digests of any type. -/
structure Sent (D : Type) where
  digest : D
  at_ : ℚ

/-- `_sent` and `_pending`. -/
structure ViewPublisher (D : Type) where
  sent : Table String (Sent D)
  pending : Table String (Sent D)

def ViewPublisher.initial {D : Type} : ViewPublisher D := ⟨.empty, .empty⟩

def snapshotEveryS : Nat := 0
def analyticsEveryS : Nat := 15 * 60
def energyTodayEveryS : Nat := 5 * 60
def maxViewsPerBatch : Nat := 32
def forecastEveryS : Nat := 30 * 60
def weatherCurrentEveryS : Nat := 10 * 60
def weatherHistoryEveryS : Nat := 30 * 60

/-- `ENERGY_RANGES`. -/
def energyRanges : List (Nat × Option Nat) :=
  [(300, none), (900, some 86400), (3600, some (7 * 86400)), (21600, some (30 * 86400))]

/-- What `get_latest` says about a device, as far as its views depend on it. -/
structure LatestDevice where
  label : String
  kind : String
  metrics : List String

/-- The names of `_device_views`. -/
def deviceViews (latest : List LatestDevice) : List String :=
  latest.flatMap fun m =>
    if m.label = "bank" then []
    else
      (if m.kind = "smart_battery" || m.kind = "shunt" || m.metrics.contains "cycle_count" then
        ["device/" ++ m.label ++ "/lifetime", "device/" ++ m.label ++ "/efficiency"]
      else []) ++
      if m.metrics.contains "output_1_power_w" || m.metrics.contains "pv_power_w" then
        ["device/" ++ m.label ++ "/charger-stats"]
      else []

/-- What a round of `due` finds: the devices, whether the scheduler has a
configuration, and what each builder returns (nothing where it fails, takes too
long or returns no dict). -/
structure ViewInputs where
  now : ℚ
  latest : List LatestDevice
  configured : Bool
  build : String → Option ViewBody

/-- The builders by name, with their intervals, in the order of the dict. -/
def viewBuilders (analyticsEvery : Nat) (inputs : ViewInputs) : List (String × Nat) :=
  [("snapshot", snapshotEveryS)] ++
    (["today/soc-envelope", "runtime-forecast", "battery-health", "load-heatmap"] ++
      deviceViews inputs.latest).map (fun name => (name, analyticsEvery)) ++
    energyRanges.map (fun (bucket, span) =>
      ("energy/b" ++ toString bucket,
        if span.isNone then min energyTodayEveryS analyticsEvery else analyticsEvery)) ++
    [("forecast/pv", forecastEveryS)] ++
    (if inputs.configured then [("forecast/accuracy", forecastEveryS)] else []) ++
    [("weather/current", weatherCurrentEveryS)] ++
    if inputs.configured then
      energyRanges.map (fun (bucket, _) =>
        ("weather/history/b" ++ toString bucket, weatherHistoryEveryS))
    else []

/-- The loop of `due` under way: the publisher, the views to upload, and the
views that were left out because their content is unchanged. -/
structure DueLoop (D : Type) where
  sent : Table String (Sent D)
  pending : Table String (Sent D)
  out : Table String ViewBody
  unchanged : List (String × ViewBody)

variable {D : Type} [DecidableEq D] (digest : ViewBody → D)

/-- One turn of the loop. When the batch is full no later turn does anything. -/
def dueTurn (inputs : ViewInputs) (d : DueLoop D) (view : String × Nat) : DueLoop D :=
  let (name, every) := view
  if d.out.rows.length ≥ maxViewsPerBatch then d
  else
    let prev := d.sent.lookup name
    if prev.any (fun p => every != 0 && decide (inputs.now - p.at_ < every)) then d
    else
      match inputs.build name with
      | none => d
      | some body =>
          let now := Sent.mk (digest (stable body)) inputs.now
          if prev.any (fun p => p.digest == now.digest) && name != "snapshot" then
            { d with
              sent := d.sent.insert name now
              unchanged := (name, body) :: d.unchanged }
          else
            { d with
              pending := d.pending.insert name now
              out := d.out.insert name body }

/-- `due`. -/
def due (analyticsEvery : Nat) (inputs : ViewInputs) (p : ViewPublisher D) : DueLoop D :=
  (viewBuilders analyticsEvery inputs).foldl (dueTurn digest inputs) ⟨p.sent, .empty, .empty, []⟩

/-- `confirm`. -/
def confirm (names : List String) (p : ViewPublisher D) : ViewPublisher D :=
  { p with
    sent := names.foldl (fun sent name =>
      match p.pending.lookup name with
      | some s => sent.insert name s
      | none => sent) p.sent }

/-- `reset`. -/
def ViewPublisher.reset (_p : ViewPublisher D) : ViewPublisher D := .initial

end Publisher

section Rounds

/-- The appliance and the cloud: the last body of each view that the cloud
stored. `lost` are the views of which an upload was stored with its response
lost since an upload was last confirmed. -/
structure ViewWorld (D : Type) where
  publisher : ViewPublisher D
  cloud : Table String ViewBody
  lost : List String

/-- What comes of an upload: the cloud stores it or not, and its response
arrives or not. `_post` raises unless an answer arrives that says it is
stored. -/
structure Upload where
  stored : Bool
  answered : Bool

/-- A round of `due` and, if it is acknowledged, `confirm`; or another cloud
takes the place of this one. -/
inductive ViewEvent where
  | round (inputs : ViewInputs) (upload : Upload)
  | otherCloud (cloud : Table String ViewBody)

variable {D : Type} [DecidableEq D] (digest : ViewBody → D) (analyticsEvery : Nat)

def viewStep (w : ViewWorld D) : ViewEvent → ViewWorld D
  | .round inputs upload =>
      let d := due digest analyticsEvery inputs w.publisher
      let p : ViewPublisher D := ⟨d.sent, d.pending⟩
      let names := d.out.rows.map Prod.fst
      if upload.stored then
        if upload.answered then
          { publisher := confirm names p
            cloud := w.cloud.replaceWith d.out
            lost := w.lost.filter (fun name => !(names.contains name)) }
        else
          { publisher := p
            cloud := w.cloud.replaceWith d.out
            lost := names ++ w.lost }
      else { w with publisher := p }
  | .otherCloud cloud => ⟨w.publisher.reset, cloud, []⟩

/-- A publisher that starts, and whatever the cloud has. -/
def ViewWorld.initial (cloud : Table String ViewBody) : ViewWorld D := ⟨.initial, cloud, []⟩

/-- The cloud's last body of a view is the current one, clock fields apart. -/
def CloudHas (cloud : Table String ViewBody) (view : String × ViewBody) : Prop :=
  ∃ stored, cloud.lookup view.1 = some stored ∧ stable stored = stable view.2

end Rounds

section Due

variable {D : Type} [DecidableEq D] {digest : ViewBody → D} {sent : Table String (Sent D)}

/-- The digest that the appliance last knew the cloud to have. -/
def believed (sent : Table String (Sent D)) (name : String) : Option D :=
  (sent.lookup name).map Sent.digest

omit [DecidableEq D] in
theorem believed_insert (sent : Table String (Sent D)) (name other : String) (s : Sent D) :
    believed (sent.insert name s) other = if other = name then some s.digest else believed sent other := by
  unfold believed
  rw [Table.lookup_insert]
  split <;> rfl

/-- What the loop keeps: it believes what it believed before, views left out are
as believed, and views to upload are not. -/
structure DueInv (digest : ViewBody → D) (sent : Table String (Sent D)) (d : DueLoop D) : Prop where
  same : ∀ name, believed d.sent name = believed sent name
  unchanged : ∀ v ∈ d.unchanged,
    v.1 ≠ "snapshot" ∧ believed sent v.1 = some (digest (stable v.2))
  changed : ∀ name body, d.out.lookup name = some body → name ≠ "snapshot" →
    believed sent name ≠ some (digest (stable body))
  pending : ∀ name, believed d.pending name = (d.out.lookup name).map (fun b => digest (stable b))

theorem DueInv.turn {d : DueLoop D} (h : DueInv digest sent d) (inputs : ViewInputs)
    (view : String × Nat) : DueInv digest sent (dueTurn digest inputs d view) := by
  obtain ⟨name, every⟩ := view
  unfold dueTurn
  dsimp only
  split
  · exact h
  · split
    · exact h
    · split
      · exact h
      case h_2 body _ =>
        have hBelieved : (d.sent.lookup name).any (fun p => p.digest == digest (stable body)) = true ↔
            believed sent name = some (digest (stable body)) := by
          rw [← h.same name]
          unfold believed
          cases d.sent.lookup name <;> simp
        split
        case isTrue hSame =>
          simp only [Bool.and_eq_true, bne_iff_ne] at hSame
          have hName := hBelieved.mp hSame.1
          refine ⟨?_, ?_, h.changed, h.pending⟩
          · intro other
            rw [believed_insert]
            split
            case isTrue hEq =>
              rw [hEq, hName]
            case isFalse => exact h.same other
          · intro v hv
            rcases List.mem_cons.mp hv with rfl | hOld
            · exact ⟨hSame.2, hName⟩
            · exact h.unchanged v hOld
        case isFalse hNew =>
          refine ⟨h.same, h.unchanged, ?_, ?_⟩
          · intro other body' hOut hSnapshot
            rw [Table.lookup_insert] at hOut
            split at hOut
            case isTrue hEq =>
              cases hOut
              intro hAs
              rw [hEq] at hAs hSnapshot
              apply hNew
              simp only [Bool.and_eq_true, bne_iff_ne]
              exact ⟨hBelieved.mpr hAs, hSnapshot⟩
            case isFalse => exact h.changed other body' hOut hSnapshot
          · intro other
            rw [believed_insert, Table.lookup_insert]
            split
            · rfl
            · exact h.pending other

theorem dueInv_due (digest : ViewBody → D) (analyticsEvery : Nat) (inputs : ViewInputs)
    (p : ViewPublisher D) : DueInv digest p.sent (due digest analyticsEvery inputs p) := by
  have hLoop : ∀ (views : List (String × Nat)) (d : DueLoop D), DueInv digest p.sent d →
      DueInv digest p.sent (views.foldl (dueTurn digest inputs) d) := by
    intro views
    induction views with
    | nil => exact fun _ h => h
    | cons view views ih => exact fun d h => ih _ (h.turn inputs view)
  apply hLoop
  exact ⟨fun _ => rfl, by simp, by simp, fun _ => rfl⟩

omit [DecidableEq D] in
/-- `confirm` takes what is pending under the confirmed names. -/
theorem lookup_confirm (names : List String) (p : ViewPublisher D) (name : String) :
    (confirm names p).sent.lookup name =
      if name ∈ names then (p.pending.lookup name).or (p.sent.lookup name)
      else p.sent.lookup name := by
  have hFold : ∀ (names : List String) (sent : Table String (Sent D)),
      (names.foldl (fun sent name =>
        match p.pending.lookup name with
        | some s => sent.insert name s
        | none => sent) sent).lookup name =
      if name ∈ names then (p.pending.lookup name).or (sent.lookup name)
      else sent.lookup name := by
    intro names
    induction names with
    | nil => intro sent; simp
    | cons first names ih =>
        intro sent
        rw [List.foldl_cons, ih]
        cases hPending : p.pending.lookup first with
        | none =>
            by_cases hEq : name = first
            · subst hEq
              simp [hPending]
            · simp [hEq]
        | some s =>
            by_cases hEq : name = first
            · subst hEq
              simp [hPending, Table.lookup_insert]
            · simp [hEq, Table.lookup_insert]
  exact hFold names p.sent

omit [DecidableEq D] in
theorem believed_confirm (names : List String) (p : ViewPublisher D) (name : String) :
    believed (confirm names p).sent name =
      if name ∈ names then (believed p.pending name).or (believed p.sent name)
      else believed p.sent name := by
  unfold believed
  rw [lookup_confirm]
  split
  · cases p.pending.lookup name <;> rfl
  · rfl

end Due

section Belief

variable {D : Type} [DecidableEq D] {digest : ViewBody → D} {analyticsEvery : Nat}

/-- What the appliance believes of a view other than the snapshot is what the
cloud has, unless an upload of it was stored with its response lost. -/
def BeliefInv (digest : ViewBody → D) (w : ViewWorld D) : Prop :=
  ∀ name, name ≠ "snapshot" → ∀ known, believed w.publisher.sent name = some known →
    ∃ stored, w.cloud.lookup name = some stored ∧
      (name ∈ w.lost ↔ digest (stable stored) ≠ known)

theorem mem_names {out : Table String ViewBody} {name : String} :
    name ∈ out.rows.map Prod.fst ↔ ∃ body, out.lookup name = some body := by
  simp only [List.mem_map, Prod.exists, exists_and_right, exists_eq_right, Table.lookup_eq_some_iff]

theorem BeliefInv.step {w : ViewWorld D} (h : BeliefInv digest w) (event : ViewEvent) :
    BeliefInv digest (viewStep digest analyticsEvery w event) := by
  cases event with
  | otherCloud cloud =>
      intro name _ known hKnown
      cases hKnown
  | round inputs upload =>
      have hDue := dueInv_due digest analyticsEvery inputs w.publisher
      unfold viewStep
      dsimp only
      split
      case isFalse =>
        intro name hName known hKnown
        exact h name hName known ((hDue.same name).symm.trans hKnown)
      case isTrue =>
        split
        case isTrue =>
          -- Stored and confirmed: belief and cloud both take the uploaded bodies.
          intro name hName known hKnown
          rw [believed_confirm] at hKnown
          simp only [Table.lookup_replaceWith, List.mem_filter]
          cases hOut : (due digest analyticsEvery inputs w.publisher).out.lookup name with
          | some body =>
              have hIn := mem_names.mpr ⟨body, hOut⟩
              rw [if_pos hIn, hDue.pending, hOut] at hKnown
              cases hKnown
              refine ⟨body, rfl, ?_⟩
              simp [hIn]
          | none =>
              have hNotIn : name ∉ (due digest analyticsEvery inputs w.publisher).out.rows.map
                  Prod.fst := by simp [mem_names, hOut]
              rw [if_neg hNotIn] at hKnown
              obtain ⟨stored, hStored, hIff⟩ :=
                h name hName known ((hDue.same name).symm.trans hKnown)
              refine ⟨stored, hStored, ?_⟩
              rw [← hIff]
              simp [hNotIn]
        case isFalse =>
          -- Stored, but the response is lost: only the cloud takes them.
          intro name hName known hKnown
          have hBefore := (hDue.same name).symm.trans hKnown
          simp only [Table.lookup_replaceWith, List.mem_append, mem_names]
          cases hOut : (due digest analyticsEvery inputs w.publisher).out.lookup name with
          | some body =>
              refine ⟨body, rfl, ?_⟩
              have hDiffers : digest (stable body) ≠ known := fun hEq =>
                hDue.changed name body hOut hName (by rw [hBefore, hEq])
              simp [hDiffers]
          | none =>
              obtain ⟨stored, hStored, hIff⟩ := h name hName known hBefore
              refine ⟨stored, hStored, ?_⟩
              rw [← hIff]
              simp

theorem beliefInv_run (digest : ViewBody → D) (analyticsEvery : Nat)
    (cloud : Table String ViewBody) (events : List ViewEvent) :
    BeliefInv digest (run (viewStep digest analyticsEvery) (.initial cloud) events) := by
  have hInit : BeliefInv digest (.initial cloud) := by
    intro name _ known hKnown
    cases hKnown
  exact @run_preserves _ _ (viewStep digest analyticsEvery) (BeliefInv digest)
    (fun _ event h => h.step event) _ hInit events

/-- In every history, the views that a round leaves out as unchanged are what
the cloud has if and only if none of them was stored with its response lost
since it was last confirmed. -/
theorem omitted_views_current_iff (hDigest : Function.Injective digest)
    (cloud : Table String ViewBody) (events : List ViewEvent) (inputs : ViewInputs)
    (w : ViewWorld D) (hRun : w = run (viewStep digest analyticsEvery) (.initial cloud) events) :
    (∀ v ∈ (due digest analyticsEvery inputs w.publisher).unchanged, CloudHas w.cloud v) ↔
      ∀ v ∈ (due digest analyticsEvery inputs w.publisher).unchanged, v.1 ∉ w.lost := by
  have hBelief : BeliefInv digest w := hRun ▸ beliefInv_run digest analyticsEvery cloud events
  have hDue := dueInv_due digest analyticsEvery inputs w.publisher
  have hView : ∀ v ∈ (due digest analyticsEvery inputs w.publisher).unchanged,
      (CloudHas w.cloud v ↔ v.1 ∉ w.lost) := by
    intro v hv
    obtain ⟨hName, hKnown⟩ := hDue.unchanged v hv
    obtain ⟨stored, hStored, hIff⟩ := hBelief v.1 hName _ hKnown
    rw [hIff, not_not]
    constructor
    · rintro ⟨body, hBody, hSame⟩
      rw [hStored] at hBody
      cases hBody
      rw [hSame]
    · intro hSame
      exact ⟨stored, hStored, hDigest hSame⟩
  exact forall₂_congr hView

/-- A body with one field beside the clock. -/
def viewOf (value : Int) : ViewBody :=
  (Table.empty.insert "value" (.int value)).insert "ts" (.int 0)

/-- A round at a given time in which only the health view can be built. -/
def healthInputs (now : ℚ) (value : Int) : ViewInputs where
  now := now
  latest := []
  configured := false
  build := fun name => if name = "battery-health" then some (viewOf value) else none

/-- A confirmed upload of 1. -/
def confirmedOne : List ViewEvent := [.round (healthInputs 0 1) ⟨true, true⟩]

/-- Then 2 is uploaded and stored, and its response is lost. -/
def lostTwo : List ViewEvent := confirmedOne ++ [.round (healthInputs 1000 2) ⟨true, false⟩]

theorem omitted_views_current_iff_confirmed :
    ∃ w : ViewWorld ViewBody,
      (due id analyticsEveryS (healthInputs 2000 1) w.publisher).unchanged.length = 1 ∧
        ∀ v ∈ (due id analyticsEveryS (healthInputs 2000 1) w.publisher).unchanged,
          CloudHas w.cloud v := by
  let w := run (viewStep id analyticsEveryS) (.initial .empty) confirmedOne
  have hLost : w.lost = [] := by decide +kernel
  have hIff := omitted_views_current_iff (D := ViewBody) Function.injective_id .empty confirmedOne
    (healthInputs 2000 1) w rfl
  refine ⟨w, by decide +kernel, hIff.mpr ?_⟩
  intro v _
  rw [hLost]
  exact List.not_mem_nil

/-- The content goes back to 1: the view is left out as unchanged while the
cloud has 2. -/
theorem omitted_view_stale :
    ∃ w : ViewWorld ViewBody,
      w = run (viewStep id analyticsEveryS) (.initial .empty) lostTwo ∧
        ∃ v ∈ (due id analyticsEveryS (healthInputs 2000 1) w.publisher).unchanged,
          v.1 ≠ "snapshot" ∧ ¬ CloudHas w.cloud v := by
  let w := run (viewStep id analyticsEveryS) (.initial .empty) lostTwo
  have hUnchanged : (due id analyticsEveryS (healthInputs 2000 1) w.publisher).unchanged =
      [("battery-health", viewOf 1)] := by decide +kernel
  have hCloud : w.cloud.lookup "battery-health" = some (viewOf 2) := by decide +kernel
  refine ⟨w, rfl, ("battery-health", viewOf 1), ?_, by decide, ?_⟩
  · rw [hUnchanged]
    exact List.mem_singleton.mpr rfl
  · rintro ⟨stored, hStored, hSame⟩
    rw [hCloud] at hStored
    cases hStored
    exact absurd hSame (by decide +kernel)

end Belief

end WattPost.Cloud
