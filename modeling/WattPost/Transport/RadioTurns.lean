import WattPost.Transport.SharedRadio

/-! What whole runs of the radio keep. Where nothing fails and nobody is cancelled before its
discovery, every scanner that is wanted listens again when the lock is free, whatever came in
between. A scanner that was lost stays silent until a transport registers with it anew. -/
namespace WattPost.Transport.SharedRadio

open Runs

/-! ### Scanners that wait to be resumed -/

def Phase.flagged : Phase → List Scanner
  | .pausing paused _ => paused
  | .discovering paused => paused
  | .resuming paused => paused

/-- The scanners that the holder has paused and not resumed yet. -/
def flaggedBy : Option Holder → List Scanner
  | none => []
  | some holder => holder.phase.flagged

@[simp] theorem flaggedBy_leaving (use : Use) (paused : List Scanner) :
    flaggedBy (leaving use paused) = paused := by
  cases paused <;> rfl

@[simp] theorem flagged_paused (use : Use) (paused next : List Scanner) :
    (Holder.paused use paused next).phase.flagged = paused := by
  cases next <;> rfl

variable {r : Radio}

/-- The scanner of `s` and the holder become other ones. -/
def Radio.set (r : Radio) (s : Scanner) (x : ScannerState) (holder : Option Holder) : Radio :=
  ⟨Function.update r.scanners s x, holder⟩

@[simp] theorem Radio.set_self (s : Scanner) (x : ScannerState) (holder : Option Holder) :
    (r.set s x holder).scanners s = x := Function.update_self ..

theorem Radio.set_of_ne {s t : Scanner} (h : t ≠ s) (x : ScannerState) (holder : Option Holder) :
    (r.set s x holder).scanners t = r.scanners t := Function.update_of_ne h ..

/-! ### What a turn does -/

inductive Effect (r : Radio) : Turn → Radio → Prop where
  | same (t : Turn) : Effect r t r
  | acquire (use : Use) (hFree : r.holder = none) :
      Effect r (.acquire use) { r with holder := some ⟨use, .pausing [] use.pauses⟩ }
  | pause (ok : Bool) {use : Use} {paused next : List Scanner} {s : Scanner}
      (hHolder : r.holder = some ⟨use, .pausing paused (s :: next)⟩) :
      Effect r (.pause ok) (r.set s ((r.scanners s).pause ok).2
        (some (.paused use (if (r.scanners s).listed then paused ++ [s] else paused) next)))
  | leave (t : Turn) {use : Use} {paused : List Scanner}
      (hHolder : r.holder = some ⟨use, .discovering paused⟩) :
      Effect r t { r with holder := leaving use paused }
  | resume (ok : Bool) {use : Use} {rest : List Scanner} {s : Scanner}
      (hHolder : r.holder = some ⟨use, .resuming (s :: rest)⟩) :
      Effect r (.resume ok) (r.set s ((r.scanners s).resume s ok) (leaving use rest))
  | abandon (hOut : ∀ use paused, r.holder ≠ some ⟨use, .discovering paused⟩) :
      Effect r .cancel { r with holder := none }
  | register (s : Scanner) (who : String) (ok : Bool) :
      Effect r (.register s who ok) (r.set s ((r.scanners s).register s who ok) r.holder)
  | unregister (s : Scanner) (who : String) (ok : Bool) :
      Effect r (.unregister s who ok) (r.set s ((r.scanners s).unregister s who ok) r.holder)

theorem turn_effect (r : Radio) (t : Turn) : Effect r t (r.turn t) := by
  cases t with
  | acquire use =>
      rw [Radio.turn]
      split
      · exact .same _
      case h_2 hFree => exact .acquire use hFree
  | pause ok =>
      rw [Radio.turn]
      split
      case h_1 hHolder =>
        dsimp only
        rw [ScannerState.pause_fst]
        exact .pause ok hHolder
      · exact .same _
  | discovered =>
      rw [Radio.turn]
      split
      case h_1 hHolder => exact .leave _ hHolder
      · exact .same _
  | resume ok =>
      rw [Radio.turn]
      split
      case h_1 hHolder => exact .resume ok hHolder
      · exact .same _
  | cancel =>
      rw [Radio.turn]
      split
      case h_1 hHolder => exact .leave _ hHolder
      case h_2 hOut => exact .abandon hOut
  | register s who ok => exact .register s who ok
  | unregister s who ok => exact .unregister s who ok

/-! ### Orderly runs -/

/-- Nothing fails, and nobody is cancelled while it pauses the scanners or resumes them. -/
def Orderly (_before : List Turn) (r : Radio) : Turn → Prop
  | .acquire _ | .discovered => True
  | .pause ok | .resume ok | .register _ _ ok | .unregister _ _ ok => ok = true
  | .cancel => ∀ holder, r.holder = some holder → ∃ paused, holder.phase = .discovering paused

/-- What holds of every scanner: what it holds is heard, it holds nothing that nobody wants, and
one that is wanted is held or waits to be resumed. -/
structure Kept (r : Radio) : Prop where
  hears : ∀ s, (r.scanners s).Hears
  needed : ∀ s, (r.scanners s).Needed s
  kept : ∀ s, (r.scanners s).wanted ≠ [] →
    (r.scanners s).listed = true ∨ s ∈ flaggedBy r.holder

theorem kept_start : Kept .start where
  hears _ := rfl
  needed _ _ _ := rfl
  kept _ h := absurd rfl h

/-- A turn that changes one scanner. -/
theorem Kept.set (h : Kept r) {s : Scanner} {x : ScannerState} {holder : Option Holder}
    (hHears : x.Hears) (hNeeded : x.Needed s)
    (hKept : x.wanted ≠ [] → x.listed = true ∨ s ∈ flaggedBy holder)
    (hOthers : ∀ t ∈ flaggedBy r.holder, t = s ∨ t ∈ flaggedBy holder) :
    Kept (r.set s x holder) where
  hears t := by
    by_cases hSame : t = s
    · rw [hSame, Radio.set_self]
      exact hHears
    · rw [Radio.set_of_ne hSame]
      exact h.hears t
  needed t := by
    by_cases hSame : t = s
    · rw [hSame, Radio.set_self]
      exact hNeeded
    · rw [Radio.set_of_ne hSame]
      exact h.needed t
  kept t hWanted := by
    by_cases hSame : t = s
    · rw [hSame, Radio.set_self] at hWanted ⊢
      exact hKept hWanted
    · rw [Radio.set_of_ne hSame] at hWanted ⊢
      exact (h.kept t hWanted).imp id fun hWaits => (hOthers t hWaits).resolve_left hSame

/-- A turn that changes nothing but how far the holder is. -/
theorem Kept.hold (h : Kept r) {holder : Option Holder}
    (hFlagged : flaggedBy r.holder ⊆ flaggedBy holder) : Kept { r with holder := holder } where
  hears := h.hears
  needed := h.needed
  kept s hWanted := (h.kept s hWanted).imp id fun hWaits => hFlagged hWaits

/-- What is wanted and does not run was paused before. -/
theorem Kept.pause (h : Kept r) {use : Use} {paused next : List Scanner} {s : Scanner}
    (hHolder : r.holder = some ⟨use, .pausing paused (s :: next)⟩) :
    Kept (r.set s ((r.scanners s).pause true).2
      (some (.paused use (if (r.scanners s).listed then paused ++ [s] else paused) next))) := by
  have hWaiting : flaggedBy r.holder = paused := by
    rw [hHolder]
    rfl
  refine h.set (ScannerState.hears_pause (h.hears s)) (fun _ _ => ScannerState.listed_pause) ?_ ?_
  · intro hWanted
    rw [ScannerState.wanted_pause] at hWanted
    refine Or.inr ?_
    rw [flaggedBy, flagged_paused]
    split
    · exact List.mem_append_right _ (List.mem_singleton.mpr rfl)
    case isFalse hIdle => exact hWaiting ▸ (h.kept s hWanted).resolve_left hIdle
  · intro t hWaits
    rw [hWaiting] at hWaits
    refine Or.inr ?_
    rw [flaggedBy, flagged_paused]
    split
    · exact List.mem_append_left _ hWaits
    · exact hWaits

theorem Kept.resume (h : Kept r) {use : Use} {rest : List Scanner} {s : Scanner}
    (hHolder : r.holder = some ⟨use, .resuming (s :: rest)⟩) :
    Kept (r.set s ((r.scanners s).resume s true) (leaving use rest)) := by
  refine h.set (ScannerState.hears_resume (h.hears s)) (ScannerState.needed_resume (h.needed s))
    ?_ ?_
  · intro hWanted
    rw [ScannerState.wanted_resume] at hWanted
    exact Or.inl (ScannerState.listed_resume hWanted)
  · intro t hWaits
    rw [hHolder] at hWaits
    rw [flaggedBy_leaving]
    exact List.mem_cons.mp hWaits

theorem Kept.register (h : Kept r) (s : Scanner) (who : String) :
    Kept (r.set s ((r.scanners s).register s who true) r.holder) := by
  refine h.set (ScannerState.hears_register (h.hears s)) ?_
    (fun _ => Or.inl ScannerState.listed_register) fun t hWaits => Or.inr hWaits
  intro _ hNobody
  rw [ScannerState.wanted_register] at hNobody
  exact absurd hNobody (ScannerState.insert_ne_nil _ _)

theorem Kept.unregister (h : Kept r) (s : Scanner) (who : String) :
    Kept (r.set s ((r.scanners s).unregister s who true) r.holder) := by
  refine h.set (ScannerState.hears_unregister (h.hears s)) ScannerState.needed_unregister ?_
    fun t hWaits => Or.inr hWaits
  intro hWanted
  obtain ⟨hSame, hBefore⟩ := ScannerState.listed_unregister hWanted
  rw [hSame]
  exact h.kept s hBefore

theorem Kept.effect (h : Kept r) {before : List Turn} {t : Turn} {r' : Radio}
    (hEffect : Effect r t r') (hOk : Orderly before r t) : Kept r' := by
  cases hEffect with
  | same => exact h
  | acquire use hFree =>
      refine h.hold ?_
      rw [hFree]
      exact List.nil_subset _
  | pause ok hHolder =>
      obtain rfl : ok = true := hOk
      exact h.pause hHolder
  | leave t hHolder =>
      refine h.hold ?_
      rw [hHolder, flaggedBy_leaving]
      exact List.Subset.refl _
  | resume ok hHolder =>
      obtain rfl : ok = true := hOk
      exact h.resume hHolder
  | abandon hOut =>
      -- nobody who is cancelled here held the lock
      have hFree : r.holder = none := by
        refine Option.eq_none_iff_forall_ne_some.mpr fun holder hHolder => ?_
        obtain ⟨paused, hPhase⟩ := hOk holder hHolder
        exact hOut holder.use paused (by rw [hHolder, ← hPhase])
      refine h.hold ?_
      rw [hFree]
      exact List.Subset.refl _
  | register s who ok =>
      obtain rfl : ok = true := hOk
      exact h.register s who
  | unregister s who ok =>
      obtain rfl : ok = true := hOk
      exact h.unregister s who

theorem kept_run {turns : List Turn} (h : StepsOk Radio.turn Orderly .start turns) :
    Kept (run Radio.turn .start turns) :=
  h.preserves kept_start fun _ r t hKept hOk => hKept.effect (turn_effect r t) hOk

/-- After a run in which nothing fails and nobody is cancelled while pausing or resuming: when
the lock is free, every scanner that is wanted listens, and of those that keep a record only
these. -/
theorem scanners_kept {turns : List Turn} (h : StepsOk Radio.turn Orderly .start turns)
    (hFree : (run Radio.turn .start turns).holder = none) (s : Scanner) :
    (((run Radio.turn .start turns).scanners s).wanted ≠ [] →
        ((run Radio.turn .start turns).scanners s).scanning = true) ∧
      (s ≠ .discovery → ((run Radio.turn .start turns).scanners s).scanning = true →
        ((run Radio.turn .start turns).scanners s).wanted ≠ []) := by
  have hKept := kept_run h
  constructor
  · intro hWanted
    rw [hKept.hears s]
    refine (hKept.kept s hWanted).resolve_right ?_
    rw [hFree]
    exact List.not_mem_nil
  · intro hOwn hScanning hNobody
    rw [hKept.hears s, hKept.needed s hOwn hNobody] at hScanning
    cases hScanning

/-- A SmartShunt registers and a BT-2 is connected. -/
def shuntThenConnect : List Turn :=
  [.register .victron "C0:FF:EE:00:00:01" true, .acquire .openOnce, .pause true, .pause true,
    .pause true, .pause true]

theorem scanners_kept_shunt :
    ((run Radio.turn .start (shuntThenConnect ++ [.discovered, .resume true])).scanners
      .victron).scanning = true := by
  refine (scanners_kept ?_ rfl .victron).1 (by decide)
  intro before t rest hSplit
  have hMem : t ∈ shuntThenConnect ++ [.discovered, .resume true] := by
    rw [hSplit]
    exact List.mem_append_right _ List.mem_cons_self
  simp only [shuntThenConnect, List.cons_append, List.nil_append, List.mem_cons,
    List.not_mem_nil, or_false] at hMem
  rcases hMem with rfl | rfl | rfl | rfl | rfl | rfl | rfl | rfl <;> first | rfl | trivial

/-! ### Discoveries -/

/-- An orderly run in which transports register only while the lock is free. -/
def Quiet (before : List Turn) (r : Radio) (t : Turn) : Prop :=
  Orderly before r t ∧ ∀ s who ok, t = .register s who ok → r.holder = none

/-- The scanners that the holder has paused or has still to pause. -/
def Phase.touched : Phase → List Scanner
  | .pausing paused next => paused ++ next
  | .discovering paused => paused
  | .resuming paused => paused

/-- The holder is behind the pause of `s` and in front of the end of its discovery. -/
def Phase.passed (s : Scanner) : Phase → Prop
  | .pausing _ next => s ∉ next
  | .discovering _ => True
  | .resuming _ => False

/-- What the holder has paused does not run. -/
structure Holder.Alone (holder : Holder) (scanners : Scanner → ScannerState) : Prop where
  own : holder.phase.touched ⊆ holder.use.pauses
  silent : ∀ s ∈ holder.use.pauses, holder.phase.passed s → (scanners s).listed = false

def Radio.Alone (r : Radio) : Prop :=
  ∀ holder, r.holder = some holder → holder.Alone r.scanners

theorem alone_of_free (h : r.holder = none) : r.Alone := by
  intro holder hHolder
  rw [h] at hHolder
  cases hHolder

theorem alone_leaving {use : Use} {paused : List Scanner} (h : paused ⊆ use.pauses)
    (scanners : Scanner → ScannerState) :
    Radio.Alone { scanners := scanners, holder := leaving use paused } := by
  intro holder hHolder
  cases paused with
  | nil => cases hHolder
  | cons s rest =>
      cases hHolder
      exact ⟨h, fun t _ hPassed => hPassed.elim⟩

theorem alone_acquire (scanners : Scanner → ScannerState) (use : Use) :
    Radio.Alone { scanners := scanners, holder := some ⟨use, .pausing [] use.pauses⟩ } := by
  intro holder hHolder
  cases hHolder
  exact ⟨List.Subset.refl _, fun s hOwn hPassed => absurd hOwn hPassed⟩

theorem Radio.Alone.pause (h : r.Alone) {use : Use} {paused next : List Scanner} {s : Scanner}
    (hHolder : r.holder = some ⟨use, .pausing paused (s :: next)⟩) (ok : Bool) :
    Radio.Alone (r.set s ((r.scanners s).pause ok).2
      (some (.paused use (if (r.scanners s).listed then paused ++ [s] else paused) next))) := by
  have hAlone := h _ hHolder
  intro holder hNow
  obtain rfl := Option.some.inj hNow
  have hListed : ∀ t ∈ use.pauses, t ∉ next →
      ((r.set s ((r.scanners s).pause ok).2 none).scanners t).listed = false := by
    intro t hOwn hNext
    by_cases hSame : t = s
    · rw [hSame, Radio.set_self]
      exact ScannerState.listed_pause
    · rw [Radio.set_of_ne hSame]
      exact hAlone.silent t hOwn fun hMem => (List.mem_cons.mp hMem).elim hSame hNext
  have hTouched : (if (r.scanners s).listed then paused ++ [s] else paused) ++ next ⊆
      use.pauses := by
    have hSame : (if (r.scanners s).listed then paused ++ [s] else paused) ++ next ⊆
        paused ++ s :: next := by
      split
      · rw [List.append_assoc, List.singleton_append]
        exact List.Subset.refl _
      · exact List.append_subset.mpr ⟨List.subset_append_left _ _,
          List.Subset.trans (List.subset_cons_self s next) (List.subset_append_right _ _)⟩
    exact List.Subset.trans hSame hAlone.own
  cases next with
  | nil =>
      rw [List.append_nil] at hTouched
      exact ⟨hTouched, fun t hOwn _ => hListed t hOwn List.not_mem_nil⟩
  | cons next rest => exact ⟨hTouched, hListed⟩

theorem Radio.Alone.unregister (h : r.Alone) (s : Scanner) (who : String) (ok : Bool) :
    (r.set s ((r.scanners s).unregister s who ok) r.holder).Alone := by
  intro holder hHolder
  have hAlone := h holder hHolder
  refine ⟨hAlone.own, ?_⟩
  intro t hOwn hPassed
  have hSilent := hAlone.silent t hOwn hPassed
  by_cases hSame : t = s
  · subst hSame
    rw [Radio.set_self]
    exact (ScannerState.unregister_idle hSilent).1
  · rw [Radio.set_of_ne hSame]
    exact hSilent

theorem Radio.Alone.effect (h : r.Alone) {before : List Turn} {t : Turn} {r' : Radio}
    (hEffect : Effect r t r') (hOk : Quiet before r t) : r'.Alone := by
  cases hEffect with
  | same => exact h
  | acquire use hFree => exact alone_acquire _ _
  | pause ok hHolder => exact h.pause hHolder ok
  | leave t hHolder => exact alone_leaving (h _ hHolder).own _
  | resume ok hHolder =>
      exact alone_leaving (List.Subset.trans (List.subset_cons_self _ _) (h _ hHolder).own) _
  | abandon hOut => exact alone_of_free rfl
  | register s who ok => exact alone_of_free (hOk.2 s who ok rfl)
  | unregister s who ok => exact h.unregister s who ok

/-- What is on the way to be resumed is one of the scanners that the caller pauses. -/
theorem flagged_touched (phase : Phase) : phase.flagged ⊆ phase.touched := by
  cases phase with
  | pausing paused next => exact List.subset_append_left _ _
  | discovering paused => exact List.Subset.refl _
  | resuming paused => exact List.Subset.refl _

/-- After an orderly run in which nobody has registered while the lock was held: while someone
discovers, none of the scanners that it pauses is heard, and those that it does not pause go
on. -/
theorem discovery_alone {turns : List Turn} (h : StepsOk Radio.turn Quiet .start turns)
    {use : Use} {paused : List Scanner}
    (hHolder : (run Radio.turn .start turns).holder = some ⟨use, .discovering paused⟩)
    (s : Scanner) :
    (s ∈ use.pauses → ((run Radio.turn .start turns).scanners s).scanning = false) ∧
      (s ∉ use.pauses → ((run Radio.turn .start turns).scanners s).wanted ≠ [] →
        ((run Radio.turn .start turns).scanners s).scanning = true) := by
  have hKept := kept_run fun before op rest hSplit => (h before op rest hSplit).1
  have hAlone : (run Radio.turn .start turns).Alone :=
    h.preserves (alone_of_free rfl) fun _ r t hAlone hOk => hAlone.effect (turn_effect r t) hOk
  have hOwn := hAlone _ hHolder
  constructor
  · intro hPaused
    rw [hKept.hears s]
    exact hOwn.silent s hPaused trivial
  · intro hOther hWanted
    rw [hKept.hears s]
    refine (hKept.kept s hWanted).resolve_right fun hWaits => ?_
    rw [hHolder] at hWaits
    exact hOther (hOwn.own (flagged_touched _ hWaits))

theorem discovery_alone_shunt :
    ((run Radio.turn .start shuntThenConnect).scanners .victron).scanning = false := by
  refine (discovery_alone ?_ rfl .victron).1 (by decide)
  refine stepsOk_cons.mpr ⟨⟨rfl, fun _ _ _ _ => rfl⟩, ?_⟩
  refine stepsOk_cons.mpr ⟨⟨trivial, nofun⟩, ?_⟩
  refine stepsOk_cons.mpr ⟨⟨rfl, nofun⟩, ?_⟩
  refine stepsOk_cons.mpr ⟨⟨rfl, nofun⟩, ?_⟩
  refine stepsOk_cons.mpr ⟨⟨rfl, nofun⟩, ?_⟩
  exact stepsOk_cons.mpr ⟨⟨rfl, nofun⟩, stepsOk_nil⟩

/-! ### Lost scanners -/

/-- Nothing runs, and nobody is going to resume it. -/
structure Lost (s : Scanner) (r : Radio) : Prop where
  listed : (r.scanners s).listed = false
  silent : (r.scanners s).scanning = false
  nobody : s ∉ flaggedBy r.holder

theorem Lost.set {s t : Scanner} {x : ScannerState} {holder : Option Holder} (h : Lost s r)
    (hSame : t = s → x.listed = false ∧ x.scanning = false) (hNobody : s ∉ flaggedBy holder) :
    Lost s (r.set t x holder) := by
  by_cases hOther : s = t
  · subst hOther
    obtain ⟨hListed, hSilent⟩ := hSame rfl
    exact ⟨by rw [Radio.set_self, hListed], by rw [Radio.set_self, hSilent], hNobody⟩
  · refine ⟨?_, ?_, hNobody⟩
    · rw [Radio.set_of_ne hOther]
      exact h.listed
    · rw [Radio.set_of_ne hOther]
      exact h.silent

theorem Lost.hold {s : Scanner} {holder : Option Holder} (h : Lost s r)
    (hFlagged : flaggedBy holder ⊆ flaggedBy r.holder) : Lost s { r with holder := holder } :=
  ⟨h.listed, h.silent, fun hMem => h.nobody (hFlagged hMem)⟩

/-- A pause does not find what is lost, so that nobody resumes it. -/
theorem Lost.effect {s : Scanner} (h : Lost s r) {t : Turn} {r' : Radio}
    (hEffect : Effect r t r') (hOther : ∀ who ok, t ≠ .register s who ok) : Lost s r' := by
  cases hEffect with
  | same => exact h
  | acquire use hFree => exact h.hold (List.nil_subset _)
  | pause ok hHolder =>
      have hBefore := h.nobody
      rw [hHolder] at hBefore
      refine h.set ?_ ?_
      · rintro rfl
        rw [ScannerState.pause, h.listed, if_neg (by decide)]
        exact ⟨h.listed, h.silent⟩
      · rw [flaggedBy, flagged_paused]
        split
        case isTrue hListed =>
          intro hMem
          rcases List.mem_append.mp hMem with hOld | hNew
          · exact hBefore hOld
          · rw [← List.mem_singleton.mp hNew, h.listed] at hListed
            cases hListed
        case isFalse => exact hBefore
  | leave t hHolder =>
      refine h.hold ?_
      rw [flaggedBy_leaving, hHolder]
      exact List.Subset.refl _
  | resume ok hHolder =>
      have hBefore := h.nobody
      rw [hHolder] at hBefore
      refine h.set ?_ ?_
      · rintro rfl
        exact absurd List.mem_cons_self hBefore
      · rw [flaggedBy_leaving]
        exact fun hMem => hBefore (List.mem_cons_of_mem _ hMem)
  | abandon hOut => exact h.hold (List.nil_subset _)
  | register t who ok =>
      refine h.set ?_ h.nobody
      rintro rfl
      exact absurd rfl (hOther who ok)
  | unregister t who ok =>
      refine h.set ?_ h.nobody
      rintro rfl
      obtain ⟨hListed, hSame⟩ := ScannerState.unregister_idle h.listed
      exact ⟨hListed, hSame.trans h.silent⟩

/-- A lost scanner stays silent until someone registers with it, whoever connects or searches in
the meantime and however that goes. -/
theorem lost_until_registered {s : Scanner} (h : Lost s r) {turns : List Turn}
    (hOther : ∀ t ∈ turns, ∀ who ok, t ≠ .register s who ok) :
    ((run Radio.turn r turns).scanners s).scanning = false := by
  have hLost : Lost s (run Radio.turn r turns) := by
    induction turns generalizing r with
    | nil => exact h
    | cons t turns ih =>
        exact ih (h.effect (turn_effect r t) (hOther t List.mem_cons_self)) fun t' hMem =>
          hOther t' (List.mem_cons_of_mem _ hMem)
  exact hLost.silent

/-- The startup window of the connect closes while it pauses the scanners. -/
def cancelledConnect : List Turn :=
  [.register .victron "C0:FF:EE:00:00:01" true, .acquire .openOnce, .pause true, .cancel]

/-- The next connect succeeds, and the SmartShunt is still wanted and not heard. -/
theorem lost_until_registered_shunt :
    ((run Radio.turn (run Radio.turn .start cancelledConnect) [.acquire .openOnce, .pause true,
        .pause true, .pause true, .pause true, .discovered]).scanners .victron).scanning = false ∧
      ((run Radio.turn (run Radio.turn .start cancelledConnect) [.acquire .openOnce, .pause true,
        .pause true, .pause true, .pause true, .discovered]).scanners .victron).wanted =
          ["C0:FF:EE:00:00:01"] := by
  refine ⟨lost_until_registered ⟨rfl, rfl, by decide⟩ ?_, by decide⟩
  intro t hMem who ok
  simp only [List.mem_cons, List.not_mem_nil, or_false] at hMem
  rcases hMem with rfl | rfl | rfl | rfl | rfl | rfl
  all_goals exact Turn.noConfusion

end WattPost.Transport.SharedRadio
