import WattPost.Backup.Staging

/-! What a restore leaves alone: the components that were not asked for, and
everything when it fails. What SQLite reads from the database and its log is a
parameter. -/
namespace WattPost.Backup

open FileProgram

/-! ### The swap -/

def ConfigFile (file : File) : Prop := file = .config ∨ file = .configBak ∨ file = .configRestoring

def PasswordFile (file : File) : Prop :=
  file = .pwHash ∨ file = .pwHashRestoring ∨ file = .pwPlain ∨ file = .pwPlainRestoring

def RestoringFile (file : File) : Prop :=
  file = .dbRestoring ∨ file = .configRestoring ∨ file = .pwHashRestoring ∨
    file = .pwPlainRestoring

def DbFile (file : File) : Prop :=
  file = .db ∨ file = .dbWal ∨ file = .dbShm ∨ file = .dbRestoring

instance : DecidablePred ConfigFile := fun _ => inferInstanceAs (Decidable (_ ∨ _))

instance : DecidablePred PasswordFile := fun _ => inferInstanceAs (Decidable (_ ∨ _))

instance : DecidablePred RestoringFile := fun _ => inferInstanceAs (Decidable (_ ∨ _))

instance : DecidablePred DbFile := fun _ => inferInstanceAs (Decidable (_ ∨ _))

theorem touches_swapDb (faults : Faults) (summary : Summary) :
    Touches DbFile (swapDb faults summary) := by
  refine (Touches.read _).bind fun content => ?_
  cases content with
  | none => exact Touches.pure _
  | some content =>
      exact (Touches.unlink _ (by decide)).bind fun _ => (Touches.unlink _ (by decide)).bind
        fun _ => (Touches.replace _ (by decide) (by decide)).bind fun _ => Touches.pure _

theorem touches_copyConfig {S : File → Prop} (hS : S .configBak) (faults : Faults) :
    Touches S (copyConfig faults) := by
  refine (Touches.read _).bind fun content => ?_
  cases content with
  | none => exact Touches.pure _
  | some content => exact Touches.orElse (Touches.write _ hS _) (Touches.pure _)

theorem touches_swapConfig (faults : Faults) (haveCfg : Bool) (summary : Summary) :
    Touches ConfigFile (swapConfig faults haveCfg summary) := by
  unfold swapConfig
  split
  · exact (touches_copyConfig (by decide) faults).bind fun _ =>
      (Touches.replace _ (by decide) (by decide)).bind fun _ => Touches.pure _
  · exact Touches.pure _

/-- The two password files, if they were staged. -/
theorem touches_swapPasswords (faults : Faults) (staged : Staged) (summary : Summary) :
    Touches (fun f => PasswordFile f ∧ (staged.havePwHash = true ∨ staged.havePwPlain = true))
      (do
        let summary ← swapPassword (faults .replaceHash) staged.havePwHash .pwHashRestoring .pwHash
          summary
        swapPassword (faults .replacePlain) staged.havePwPlain .pwPlainRestoring .pwPlain
          summary) := by
  refine Touches.bind ?_ fun summary => ?_
  · unfold swapPassword
    split
    case isTrue h =>
      exact (Touches.replace _ ⟨by decide, Or.inl h⟩ ⟨by decide, Or.inl h⟩).bind
        fun _ => Touches.pure _
    case isFalse => exact Touches.pure _
  · unfold swapPassword
    split
    case isTrue h =>
      exact (Touches.replace _ ⟨by decide, Or.inr h⟩ ⟨by decide, Or.inr h⟩).bind
        fun _ => Touches.pure _
    case isFalse => exact Touches.pure _

theorem touches_cleanup (faults : Faults) : Touches RestoringFile (cleanup faults) :=
  (Touches.unlink _ (by decide)).bind fun _ => (Touches.unlink _ (by decide)).bind fun _ =>
    (Touches.unlink _ (by decide)).bind fun _ => Touches.unlink _ (by decide)

/-- The first part of the swap gets through, for what stands beside the database. -/
def DbSwapped (faults : Faults) (new : Option Content) : Prop :=
  new = none ∨
    ¬ (faults .unlinkWal).Fails ∧ ¬ (faults .unlinkShm).Fails ∧ ¬ (faults .replaceDb).Fails

/-- Whether the first part gets through, and what it leaves of the database. -/
theorem swapDb_spec (faults : Faults) (summary : Summary) (files : Files File Content) :
    ((∃ summary', (swapDb faults summary files).1 = .ok summary') ↔
        DbSwapped faults (files .dbRestoring)) ∧
      ((swapDb faults summary files).2 .db, (swapDb faults summary files).2 .dbWal) =
        match files .dbRestoring with
        | none => (files .db, files .dbWal)
        | some content =>
            if (faults .unlinkWal).Fails then (files .db, files .dbWal)
            else if (faults .unlinkShm).Fails ∨ (faults .replaceDb).Fails then (files .db, none)
            else (some content, none) := by
  unfold swapDb DbSwapped
  rw [bind_of_ok (show read File.dbRestoring files = (.ok (files .dbRestoring), files) from rfl)]
  cases hNew : files .dbRestoring with
  | none => simp [pure, FileM.pure]
  | some content =>
      cases hWal : faults .unlinkWal <;> cases hShm : faults .unlinkShm <;>
        cases hReplace : faults .replaceDb <;>
          simp [bind, FileM.bind, pure, FileM.pure, unlink, replace, Function.update, hNew]

/-- The database and its log after the first part of the swap, however it ends. -/
theorem swapDb_files (faults : Faults) (summary : Summary) (files : Files File Content) :
    let after := (swapDb faults summary files).2
    (after .db, after .dbWal) =
      match files .dbRestoring with
      | none => (files .db, files .dbWal)
      | some content =>
          if (faults .unlinkWal).Fails then (files .db, files .dbWal)
          else if (faults .unlinkShm).Fails ∨ (faults .replaceDb).Fails then (files .db, none)
          else (some content, none) := (swapDb_spec faults summary files).2

theorem swapDb_result (faults : Faults) (summary : Summary) (files : Files File Content) :
    (∃ summary', (swapDb faults summary files).1 = .ok summary') ↔
      DbSwapped faults (files .dbRestoring) := (swapDb_spec faults summary files).1

/-- The configuration after the second part, however it ends. -/
theorem swapConfig_file (faults : Faults) (haveCfg : Bool) (summary : Summary)
    (files : Files File Content) :
    (swapConfig faults haveCfg summary files).2 .config =
      if haveCfg = true ∧ ¬ (faults .replaceConfig).Fails then
        (files .configRestoring).or (files .config)
      else files .config := by
  cases haveCfg with
  | false => simp [swapConfig, pure, FileM.pure]
  | true =>
      have hCopied : ∃ mid, copyConfig faults files = (.ok (), mid) ∧ mid .config = files .config ∧
          mid .configRestoring = files .configRestoring := by
        have hTouches : Touches (fun f => f = .configBak) (copyConfig faults) :=
          touches_copyConfig (S := fun f => f = .configBak) rfl faults
        have hOk : (copyConfig faults files).1 = .ok () := by
          unfold copyConfig
          rw [bind_of_ok (show read File.config files = (.ok (files .config), files) from rfl)]
          cases files .config with
          | none => rfl
          | some content =>
              dsimp only
              unfold FileM.orElse
              split
              · rfl
              · rfl
        exact ⟨(copyConfig faults files).2, Prod.ext hOk rfl,
          hTouches files _ (by decide), hTouches files _ (by decide)⟩
      obtain ⟨mid, hCopy, hConfig, hNew⟩ := hCopied
      unfold swapConfig
      rw [if_pos rfl, bind_of_ok hCopy, ← hConfig, ← hNew]
      cases hReplace : faults .replaceConfig <;> cases hContent : mid .configRestoring <;>
        simp [bind, FileM.bind, pure, FileM.pure, replace, Function.update, hContent]

/-- What follows the database in the swap. -/
def swapRest (faults : Faults) (staged : Staged) (summary : Summary) : RestoreM Summary := do
  let summary ← swapConfig faults staged.haveCfg summary
  let summary ← swapPassword (faults .replaceHash) staged.havePwHash .pwHashRestoring .pwHash
    summary
  swapPassword (faults .replacePlain) staged.havePwPlain .pwPlainRestoring .pwPlain summary

theorem swap_eq (faults : Faults) (staged : Staged) :
    swap faults staged = swapDb faults staged.summary >>= swapRest faults staged := rfl

theorem touches_swapRest (faults : Faults) (staged : Staged) (summary : Summary) :
    Touches (fun f => ConfigFile f ∨
        (PasswordFile f ∧ (staged.havePwHash = true ∨ staged.havePwPlain = true)))
      (swapRest faults staged summary) := by
  refine Touches.bind ?_ fun summary' => ?_
  · exact (touches_swapConfig faults staged.haveCfg summary).mono fun _ hf => Or.inl hf
  · exact (touches_swapPasswords faults staged summary').mono fun _ hf => Or.inr hf

theorem touches_swap (faults : Faults) (staged : Staged) :
    Touches (fun f => DbFile f ∨ ConfigFile f ∨
        (PasswordFile f ∧ (staged.havePwHash = true ∨ staged.havePwPlain = true)))
      (swap faults staged) :=
  ((touches_swapDb faults staged.summary).mono fun _ hf => Or.inl hf).bind fun summary =>
    (touches_swapRest faults staged summary).mono fun _ hf => Or.inr hf

theorem swap_db (faults : Faults) (staged : Staged) (files : Files File Content) :
    let after := (swap faults staged files).2
    (after .db, after .dbWal) =
      match files .dbRestoring with
      | none => (files .db, files .dbWal)
      | some content =>
          if (faults .unlinkWal).Fails then (files .db, files .dbWal)
          else if (faults .unlinkShm).Fails ∨ (faults .replaceDb).Fails then (files .db, none)
          else (some content, none) := by
  have hRest : ∀ file, file = .db ∨ file = .dbWal →
      (swap faults staged files).2 file = (swapDb faults staged.summary files).2 file := by
    intro file hFile
    rw [swap_eq]
    refine snd_bind_of_touches (touches_swapRest faults staged) ?_ files
    rcases hFile with rfl | rfl <;> simp [ConfigFile, PasswordFile]
  have hDb := swapDb_files faults staged.summary files
  dsimp only at hDb ⊢
  rw [hRest .db (Or.inl rfl), hRest .dbWal (Or.inr rfl), hDb]

open Classical in
theorem swap_config (faults : Faults) (staged : Staged) (files : Files File Content) :
    (swap faults staged files).2 .config =
      if DbSwapped faults (files .dbRestoring) ∧ staged.haveCfg = true ∧
          ¬ (faults .replaceConfig).Fails then
        (files .configRestoring).or (files .config)
      else files .config := by
  have hDbTouches := touches_swapDb faults staged.summary files
  rw [swap_eq]
  by_cases hSwapped : DbSwapped faults (files .dbRestoring)
  · obtain ⟨summary, hOk⟩ := (swapDb_result faults staged.summary files).mpr hSwapped
    rw [bind_of_ok (show swapDb faults staged.summary files =
      (.ok summary, (swapDb faults staged.summary files).2) from Prod.ext hOk rfl)]
    unfold swapRest
    rw [snd_bind_of_touches (touches_swapPasswords faults staged) (by simp [PasswordFile]),
      swapConfig_file, hDbTouches .config (by decide), hDbTouches .configRestoring (by decide)]
    simp only [hSwapped, true_and]
  · cases hResult : (swapDb faults staged.summary files).1 with
    | ok summary =>
        exact absurd ((swapDb_result faults staged.summary files).mp ⟨summary, hResult⟩) hSwapped
    | error e =>
        rw [bind_of_error (show swapDb faults staged.summary files =
          (.error e, (swapDb faults staged.summary files).2) from Prod.ext hResult rfl)]
        simp only [hSwapped, false_and, if_false]
        exact hDbTouches .config (by decide)

/-! ### The whole call -/

/-- What SQLite reads. -/
def dbView {V : Type} (view : Option Content → Option Content → V) (files : Files File Content) :
    V := view (files .db) (files .dbWal)

section Call

variable {V : Type} (view : Option Content → Option Content → V) {yaml : Yaml} {faults : Faults}
  {components : Option (List String)} {archive : Option (List Member)}
  {files files' : Files File Content}

/-- The live files after a call are those after its swap. -/
theorem stageAndSwap_snd {staged : Staged} {mid : Files File Content}
    (h : prepare yaml faults components archive files = (.ok staged, mid)) {f : File}
    (hf : ¬ RestoringFile f) :
    (stageAndSwap yaml faults components archive files).2 f = (swap faults staged mid).2 f := by
  unfold stageAndSwap
  rw [bind_of_ok h]
  exact snd_thenAlways_of_touches (touches_cleanup faults) hf mid

/-- When SQLite reads after the swap what it read before. -/
theorem dbView_swap_iff (staged : Staged) {mid : Files File Content}
    (hDb : mid .db = files .db) (hWal : mid .dbWal = files .dbWal) :
    dbView view (swap faults staged mid).2 = dbView view files ↔
      ∀ new, mid .dbRestoring = some new → ¬ (faults .unlinkWal).Fails →
        if (faults .unlinkShm).Fails ∨ (faults .replaceDb).Fails then
          view (files .db) none = dbView view files
        else view (some new) none = dbView view files := by
  have hSwap := swap_db faults staged mid
  dsimp only at hSwap
  rw [hDb, hWal] at hSwap
  cases hNew : mid .dbRestoring with
  | none =>
      rw [hNew] at hSwap
      obtain ⟨hAfterDb, hAfterWal⟩ := Prod.mk.inj hSwap
      simp [dbView, hAfterDb, hAfterWal]
  | some new =>
      rw [hNew] at hSwap
      dsimp only at hSwap
      by_cases hLocked : (faults .unlinkWal).Fails
      · rw [if_pos hLocked] at hSwap
        obtain ⟨hAfterDb, hAfterWal⟩ := Prod.mk.inj hSwap
        simp [dbView, hAfterDb, hAfterWal, hLocked]
      · rw [if_neg hLocked] at hSwap
        by_cases hLater : (faults .unlinkShm).Fails ∨ (faults .replaceDb).Fails
        · rw [if_pos hLater] at hSwap
          obtain ⟨hAfterDb, hAfterWal⟩ := Prod.mk.inj hSwap
          simp [dbView, hAfterDb, hAfterWal, hLocked, hLater]
        · rw [if_neg hLater] at hSwap
          obtain ⟨hAfterDb, hAfterWal⟩ := Prod.mk.inj hSwap
          simp only [dbView, hAfterDb, hAfterWal, Option.some.injEq, forall_eq', hLocked,
            not_false_eq_true, true_implies, if_neg hLater]

/-- The same for the configuration. -/
theorem config_swap_iff (staged : Staged) {mid : Files File Content}
    (hConfig : mid .config = files .config) :
    (swap faults staged mid).2 .config = files .config ↔
      (DbSwapped faults (mid .dbRestoring) → ¬ (faults .replaceConfig).Fails →
        ∀ new, staged.config mid = some new → files .config = some new) := by
  rw [swap_config, hConfig]
  unfold Staged.config
  split_ifs with hDone hHave
  · cases hNew : mid .configRestoring with
    | none => simp
    | some new => simp [hDone, eq_comm]
  · exact absurd hDone.2.1 hHave
  · simp only [true_iff]
    intro hSwapped hReplace
    exact absurd ⟨hSwapped, by assumption, hReplace⟩ hDone
  · simp

theorem dbView_stageAndSwap {staged : Staged} {mid : Files File Content}
    (h : prepare yaml faults components archive files = (.ok staged, mid)) :
    dbView view (stageAndSwap yaml faults components archive files).2 =
      dbView view (swap faults staged mid).2 := by
  rw [dbView, dbView, stageAndSwap_snd h (by decide), stageAndSwap_snd h (by decide)]

/-- The components that were not asked for are as they were. -/
structure UnwantedKept (components : Option (List String)) (files files' : Files File Content) :
    Prop where
  data : wants components "data" = false → dbView view files' = dbView view files
  config : wants components "config" = false → files' .config = files .config
  password : wants components "password" = false →
    files' .pwHash = files .pwHash ∧ files' .pwPlain = files .pwPlain

/-- A successful restore without the database keeps it exactly when no staged
database was left behind, or one that reads the same; the other components it
always keeps. -/
theorem unwanted_kept_iff {summary : Summary}
    (h : stageAndSwap yaml faults components archive files = (.ok summary, files')) :
    UnwantedKept view components files files' ↔
      (wants components "data" = false → ∀ debris, files .dbRestoring = some debris →
        view (some debris) none = dbView view files) := by
  obtain ⟨staged, mid, hPrepare, hSwap⟩ := bind_ok h
  have hMid : ∀ f, ¬ StageTarget components f → mid f = files f := by
    intro f hf
    have hTouches := touches_prepare yaml faults components archive files f hf
    rwa [hPrepare] at hTouches
  have hFlags : FlagsOff components staged :=
    returns_prepare yaml faults components archive files staged (by rw [hPrepare])
  have hAfter : ∀ f, ¬ RestoringFile f → files' f = (swap faults staged mid).2 f := by
    intro f hf
    have hSnd := stageAndSwap_snd hPrepare hf
    rwa [h] at hSnd
  have hSwapped : DbSwapped faults (mid .dbRestoring) := by
    have hReturned := thenAlways_ok hSwap
    obtain ⟨summary', mid', hDb, _⟩ := bind_ok (m := swapDb faults staged.summary)
      (show swap faults staged mid = (.ok summary, (swap faults staged mid).2) from
        Prod.ext hReturned rfl)
    exact (swapDb_result faults staged.summary mid).mp ⟨summary', by rw [hDb]⟩
  have hData : wants components "data" = false →
      (dbView view files' = dbView view files ↔ ∀ debris, files .dbRestoring = some debris →
        view (some debris) none = dbView view files) := by
    intro hUnwanted
    have hDebris : mid .dbRestoring = files .dbRestoring :=
      hMid .dbRestoring (by simp [StageTarget, hUnwanted])
    have hView := dbView_stageAndSwap view hPrepare
    rw [h] at hView
    rw [hView, dbView_swap_iff view staged (hMid .db (by simp [StageTarget]))
      (hMid .dbWal (by simp [StageTarget])), hDebris]
    rw [hDebris] at hSwapped
    refine forall₂_congr fun debris hSome => ?_
    obtain ⟨hNoWal, hNoShm, hNoReplace⟩ := hSwapped.resolve_left (by simp [hSome])
    simp [hNoWal, hNoShm, hNoReplace]
  have hConfig : wants components "config" = false → files' .config = files .config := by
    intro hUnwanted
    rw [hAfter .config (by decide), swap_config, hFlags.1 hUnwanted]
    simp only [Bool.false_eq_true, false_and, and_false, if_false]
    exact hMid .config (by simp [StageTarget])
  have hPassword : wants components "password" = false → ∀ f, f = .pwHash ∨ f = .pwPlain →
      files' f = files f := by
    intro hUnwanted f hf
    obtain ⟨hHash, hPlain⟩ := hFlags.2 hUnwanted
    have hTouches := touches_swap faults staged mid f
      (by rcases hf with rfl | rfl <;> simp [hHash, hPlain, DbFile, ConfigFile])
    rw [hAfter f (by rcases hf with rfl | rfl <;> decide), hTouches]
    exact hMid f (by rcases hf with rfl | rfl <;> simp [StageTarget])
  constructor
  · intro hKept hUnwanted
    exact (hData hUnwanted).mp (hKept.data hUnwanted)
  · intro hDebris
    exact ⟨fun hUnwanted => (hData hUnwanted).mpr (hDebris hUnwanted), hConfig,
      fun hUnwanted => ⟨hPassword hUnwanted _ (Or.inl rfl), hPassword hUnwanted _ (Or.inr rfl)⟩⟩

end Call

/-- YAML on the empty mapping, in its short form. -/
def emptyYaml : Yaml where
  safeLoad := fun content => if content = [123, 125, 10] then some (.obj []) else none
  safeDump := fun _ => [123, 125, 10]

/-- A database with a log, and a configuration. -/
def sampleFiles : Files File Content
  | .db => some [1]
  | .dbWal => some [2]
  | .config => some [123, 125, 10]
  | _ => none

def noFaults : Faults := fun _ => .none

def configMember : Member := ⟨"config/config.yaml", .bytes [123, 125, 10]⟩

def dataMember : Member := ⟨"data.sqlite", .bytes [9, 9]⟩

theorem unwanted_kept_configOnly :
    ∃ summary after,
      stageAndSwap emptyYaml noFaults (some ["config"]) (some [configMember, dataMember])
          sampleFiles = (.ok summary, after) ∧
        UnwantedKept Prod.mk (some ["config"]) sampleFiles after := by
  obtain ⟨summary, hSummary⟩ : ∃ summary,
      (stageAndSwap emptyYaml noFaults (some ["config"]) (some [configMember, dataMember])
        sampleFiles).1 = .ok summary := ⟨_, rfl⟩
  have hRun : stageAndSwap emptyYaml noFaults (some ["config"])
      (some [configMember, dataMember]) sampleFiles = (.ok summary, _) := Prod.ext hSummary rfl
  have hClean : sampleFiles .dbRestoring = none := rfl
  refine ⟨summary, _, hRun, (unwanted_kept_iff Prod.mk hRun).mpr ?_⟩
  intro _ debris hDebris
  rw [hClean] at hDebris
  cases hDebris

/-- The disk is full while the database is staged. -/
def fullDisk : Faults := fun point =>
  if point = .stageDb 0 then .failed (some [9]) else .none

/-- A restore of the data fails half-way through the staged file; the next
restore, of the configuration alone, puts that half over the database. -/
theorem configOnly_restores_debris :
    ∃ between,
      stageAndSwap emptyYaml fullDisk (some ["data"]) (some [dataMember]) sampleFiles =
          (.error "OSError", between) ∧
        ∃ summary after,
          stageAndSwap emptyYaml noFaults (some ["config"]) (some [configMember]) between =
              (.ok summary, after) ∧
            ¬ UnwantedKept Prod.mk (some ["config"]) between after := by
  refine ⟨_, rfl, _, _, rfl, ?_⟩
  intro hKept
  exact absurd (hKept.data rfl) (by decide +kernel)

section Raised

variable {V : Type} (view : Option Content → Option Content → V) {yaml : Yaml} {faults : Faults}
  {components : Option (List String)} {archive : Option (List Member)}
  {files files' : Files File Content}

/-- The live files do not show the failure: what is staged cannot be staged; or the
swap stops before the log is removed; or what it does before it stops changes neither
what SQLite reads nor the configuration. -/
def FailsInTime (yaml : Yaml) (faults : Faults) (components : Option (List String))
    (archive : Option (List Member)) (files : Files File Content) : Prop :=
  let call := callOf yaml faults components files
  Stages call archive → ∀ members, archive = some members →
    let newDb := (dbFrom call (lastFile "data.sqlite" 0 members)).or (files .dbRestoring)
    let newConfig := configFrom call (lastFile "config/config.yaml" 0 members)
    (∀ new, newDb = some new → ¬ (faults .unlinkWal).Fails →
      if (faults .unlinkShm).Fails ∨ (faults .replaceDb).Fails then
        view (files .db) none = dbView view files
      else view (some new) none = dbView view files) ∧
    (DbSwapped faults newDb → ¬ (faults .replaceConfig).Fails →
      ∀ new, newConfig = some new → files .config = some new)

/-- A restore that raised left the database, as SQLite reads it, and the
configuration as they were exactly when it failed in time. -/
theorem raised_keeps_live_iff {e : String}
    (h : stageAndSwap yaml faults components archive files = (.error e, files')) :
    (dbView view files' = dbView view files ∧ files' .config = files .config) ↔
      FailsInTime view yaml faults components archive files := by
  have hTouches := touches_prepare yaml faults components archive files
  have hThrough := prepare_through yaml faults components archive files
  have hFiles' : files' = (stageAndSwap yaml faults components archive files).2 := by rw [h]
  cases hPrepare : prepare yaml faults components archive files with
  | mk result mid =>
      rw [hPrepare] at hTouches
      have hDb : mid .db = files .db := hTouches .db (by simp [StageTarget])
      have hWal : mid .dbWal = files .dbWal := hTouches .dbWal (by simp [StageTarget])
      have hConfig : mid .config = files .config := hTouches .config (by simp [StageTarget])
      cases result with
      | error message =>
          have hStopped : stageAndSwap yaml faults components archive files =
              (.error message, mid) := bind_of_error hPrepare _
          rw [hStopped] at hFiles'
          subst hFiles'
          have hKept : dbView view files' = dbView view files ∧
              files' .config = files .config := by
            simp [dbView, hDb, hWal, hConfig]
          exact iff_of_true hKept fun hStages => absurd hStages (hThrough.of_error hPrepare)
      | ok staged =>
          obtain ⟨hStages, hLeft⟩ := hThrough.of_ok hPrepare
          obtain ⟨members, rfl⟩ : ∃ members, archive = some members :=
            hStages.2.imp fun _ hMembers => hMembers.1
          obtain ⟨hNewDb, hNewConfig⟩ := hLeft members rfl
          rw [hFiles', dbView_stageAndSwap view hPrepare,
            stageAndSwap_snd hPrepare (by decide), dbView_swap_iff view staged hDb hWal,
            config_swap_iff staged hConfig, hNewDb, hNewConfig]
          constructor
          · rintro hBoth _ _ ⟨⟩
            exact hBoth
          · intro hInTime
            exact hInTime hStages members rfl

end Raised

/-- The log cannot be removed. -/
def lockedLog : Faults := fun point => if point = .unlinkWal then .failed none else .none

theorem raised_keeps_live_lockedLog :
    ∃ after,
      stageAndSwap emptyYaml lockedLog none (some [dataMember, configMember]) sampleFiles =
          (.error "OSError", after) ∧
        dbView Prod.mk after = dbView Prod.mk sampleFiles ∧
          after .config = sampleFiles .config := by
  have hRun : stageAndSwap emptyYaml lockedLog none (some [dataMember, configMember])
      sampleFiles = (.error "OSError", _) := Prod.ext rfl rfl
  refine ⟨_, hRun, (raised_keeps_live_iff Prod.mk hRun).mpr ?_⟩
  rintro _ _ ⟨⟩
  constructor
  · intro new _ hWal
    exact absurd trivial hWal
  · rintro (hNone | ⟨hWal, _⟩)
    · cases hNone
    · exact absurd trivial hWal

/-- The database cannot be replaced. -/
def lockedDb : Faults := fun point => if point = .replaceDb then .failed none else .none

/-- The log is gone by then, and what was in it. -/
theorem raised_loses_log :
    ∃ after,
      stageAndSwap emptyYaml lockedDb none (some [dataMember, configMember]) sampleFiles =
          (.error "OSError", after) ∧
        ¬ (dbView Prod.mk after = dbView Prod.mk sampleFiles ∧
          after .config = sampleFiles .config) := by
  refine ⟨_, rfl, ?_⟩
  intro hKept
  exact absurd hKept.1 (by decide +kernel)

end WattPost.Backup
