import WattPost.Update.Slots

/-! What holds of the live slot, whichever updates and rollbacks run and wherever they are cut
off. -/
namespace WattPost.Update

open Process

variable {R : Type} {versionOf : R → String}

/-- A slot with the release `r` whole. -/
def SlotDir.whole (versionOf : R → String) (r : R) : SlotDir R :=
  { src := some r, venv := some r, version := some (versionOf r), owned := true }

/-- The slot holds a whole release that has passed its probe. -/
def Disk.Good (versionOf : R → String) (w : Disk R) (s : SlotName) : Prop :=
  w.probed s = true ∧ ∃ r, w.slots s = some (SlotDir.whole versionOf r)

/-- The recorded slot is there and is not the live one, so that a rollback swaps the link. -/
def Disk.Flips (w : Disk R) : Prop :=
  ∃ s, w.previous = some s ∧ (w.slots s).isSome = true ∧ s ≠ w.live

/-- When a script may start: an update always, and a rollback that would swap the link only
while no update is broken off between the wipe of a slot and its end. What comes of a rollback
that starts all the same is told by `rollback_good_iff`. -/
def Starts : Job → Disk R → Prop
  | .update, _ => True
  | .rollback _, w => w.Flips → w.brokenOff = false

/-- What the installer leaves: slot `a`, live, and no other. -/
def installed (versionOf : R → String) (r : R) : Disk R where
  slots := Function.update (fun _ => none) .a (some (SlotDir.whole versionOf r))
  live := .a
  appNew := none
  previous := none
  tarball := none
  probed := Function.update (fun _ => false) .a true
  brokenOff := false

structure Disk.Inv (versionOf : R → String) (w : Disk R) : Prop where
  live : w.Good versionOf w.live
  recorded : w.brokenOff = false → ∀ s, w.previous = some s → w.Good versionOf s
  broken : w.brokenOff = true → w.probed w.live.other = false

theorem installed_inv (r : R) : (installed versionOf r).Inv versionOf where
  live := ⟨rfl, r, rfl⟩
  recorded := by
    intro _ s hs
    cases hs
  broken := by
    intro hBroken
    cases hBroken

/-- Both slots good, and no update broken off. -/
structure Disk.Settled (versionOf : R → String) (w : Disk R) : Prop where
  good : ∀ s, w.Good versionOf s
  whole : w.brokenOff = false

theorem Disk.Settled.inv {w : Disk R} (h : w.Settled versionOf) : w.Inv versionOf where
  live := h.good _
  recorded := fun _ s _ => h.good s
  broken := by
    intro hBroken
    rw [h.whole] at hBroken
    cases hBroken

/-! ### Rules for the scripts -/

section Rules

variable {I : Disk R → Prop} {Q : Nat → Disk R → Prop} {w : Disk R}

theorem safe_run {c : Action} {next : Bool → Script} (hI : I w)
    (hNext : ∀ ok w', Acts versionOf c w ok w' → Safe (effect versionOf) I (next ok) w' Q) :
    Safe (effect versionOf) I (run c next) w Q :=
  ⟨hI, hNext⟩

theorem safe_must {c : Action} {rest : Script} (hI : I w)
    (hFail : ∀ w', Acts versionOf c w false w' → I w' ∧ Q 1 w')
    (hRest : ∀ w', Acts versionOf c w true w' → Safe (effect versionOf) I rest w' Q) :
    Safe (effect versionOf) I (must c rest) w Q := by
  apply safe_run hI
  intro ok w' hActs
  cases ok with
  | true => exact hRest w' hActs
  | false => exact hFail w' hActs

/-- A command that leaves the disk alone. -/
def Action.Quiet (versionOf : R → String) (c : Action) : Prop :=
  ∀ w ok w', Acts versionOf c w ok w' → w' = w

theorem safe_quiet {c : Action} (hQuiet : c.Quiet versionOf) {next : Bool → Script} (hI : I w)
    (hNext : ∀ ok, Safe (effect versionOf) I (next ok) w Q) :
    Safe (effect versionOf) I (run c next) w Q := by
  apply safe_run hI
  intro ok w' hActs
  rw [hQuiet w ok w' hActs]
  exact hNext ok

theorem safe_mustQuiet {c : Action} (hQuiet : c.Quiet versionOf) {rest : Script} (hI : I w)
    (hFail : Q 1 w) (hRest : Safe (effect versionOf) I rest w Q) :
    Safe (effect versionOf) I (must c rest) w Q := by
  apply safe_quiet hQuiet hI
  intro ok
  cases ok with
  | true => exact hRest
  | false => exact ⟨hI, hFail⟩

theorem safe_waitFor {c : Action} (hQuiet : c.Quiet versionOf) {next : Bool → Script} (hI : I w)
    (hNext : ∀ ok, Safe (effect versionOf) I (next ok) w Q) (tries : Nat) :
    Safe (effect versionOf) I (waitFor c tries next) w Q := by
  induction tries with
  | zero => exact hNext false
  | succ tries ih =>
      apply safe_quiet hQuiet hI
      intro ok
      cases ok with
      | true => exact hNext true
      | false => exact ih

theorem quiet_curlProbe (e : String) : (Action.curlProbe e).Quiet versionOf :=
  fun _ _ _ h => h

theorem quiet_startProbe (s : SlotName) : (Action.startProbe s).Quiet versionOf :=
  fun _ _ _ h => h

theorem quiet_outside {c : Action} (h : c ∈ [Action.curlSha256, .sha256sum, .curlManifest,
    .syncPrivileged, .restart, .startNoBlock, .curlHealth]) : c.Quiet versionOf := by
  intro w ok w' hActs
  simp only [List.mem_cons, List.not_mem_nil, or_false] at h
  rcases h with rfl | rfl | rfl | rfl | rfl | rfl | rfl <;> exact hActs

theorem safe_probeAll {next : Bool → Script} (hI : I w)
    (hNext : ∀ ok, Safe (effect versionOf) I (next ok) w Q) (es : List String) (ok : Bool) :
    Safe (effect versionOf) I (probeAll es ok next) w Q := by
  induction es generalizing ok with
  | nil => exact hNext ok
  | cons e es ih =>
      apply safe_quiet (quiet_curlProbe e) hI
      intro up
      exact ih (ok && up)

theorem safe_readApp {next : SlotName → Script} (hI : I w)
    (hNext : Safe (effect versionOf) I (next w.live) w Q) :
    Safe (effect versionOf) I (.eff .readApp next) w Q := by
  refine ⟨hI, ?_⟩
  rintro s w' ⟨rfl, rfl⟩
  exact hNext

theorem safe_readPrevious {next : Option SlotName → Script} (hI : I w)
    (hNext : Safe (effect versionOf) I (next w.previous) w Q) :
    Safe (effect versionOf) I (.eff .readPrevious next) w Q := by
  refine ⟨hI, ?_⟩
  rintro s w' ⟨rfl, rfl⟩
  exact hNext

theorem safe_checkManifest {rest : Script} (hI : I w) (hFail : Q 1 w)
    (hRest : Safe (effect versionOf) I rest w Q) :
    Safe (effect versionOf) I (checkManifest rest) w Q := by
  apply safe_quiet (quiet_outside (by decide)) hI
  intro fetched
  cases fetched with
  | false => exact hRest
  | true =>
      refine ⟨hI, ?_⟩
      rintro (rc : Nat) w' rfl
      show Safe (effect versionOf) I (if rc = 8 || rc = 9 || rc = 10 then .ret 1 else rest) _ Q
      split
      · exact ⟨hI, hFail⟩
      · exact hRest

end Rules

/-! ### The update -/

/-- `w'` is `w` with an update at work in slot `s`. -/
structure Building (w : Disk R) (s : SlotName) (w' : Disk R) : Prop where
  slots : ∀ t, t ≠ s → w'.slots t = w.slots t
  live : w'.live = w.live
  previous : w'.previous = w.previous
  probed : w'.probed = Function.update w.probed s false
  broken : w'.brokenOff = true

section Build

variable {w w₁ w₂ : Disk R} {s : SlotName}

theorem Building.put (h : Building w s w₁) (d : Option (SlotDir R)) :
    Building w s (w₁.put s d) where
  slots := by
    intro t ht
    rw [← h.slots t ht]
    exact Function.update_of_ne ht _ _
  live := h.live
  previous := h.previous
  probed := h.probed
  broken := h.broken

theorem building_wiped (left : Option (SlotDir R)) :
    Building w s
      { w.put s left with probed := Function.update w.probed s false, brokenOff := true } where
  slots := fun _ ht => Function.update_of_ne ht _ _
  live := rfl
  previous := rfl
  probed := rfl
  broken := rfl

theorem Building.tarball (h : Building w s w₁) (t : Option R) :
    Building w s { w₁ with tarball := t } :=
  ⟨h.slots, h.live, h.previous, h.probed, h.broken⟩

/-- An update at work in the other slot keeps the invariant. -/
theorem Building.inv (h : Building w w.live.other w₁) (hLive : w.Good versionOf w.live) :
    w₁.Inv versionOf where
  live := by
    obtain ⟨hProbed, r, hWhole⟩ := hLive
    rw [h.live]
    refine ⟨?_, r, ?_⟩
    · rw [h.probed, Function.update_of_ne (SlotName.ne_other _), hProbed]
    · rw [h.slots _ (SlotName.ne_other _), hWhole]
  recorded := by
    intro hBroken
    rw [h.broken] at hBroken
    cases hBroken
  broken := by
    intro _
    rw [h.live, h.probed, Function.update_self]

variable {I : Disk R → Prop} {Q : Nat → Disk R → Prop}

theorem safe_buildAll (hI : ∀ w', Building w s w' → I w' ∧ Q 1 w') {rest : Script} {t : Option R}
    (steps : List BuildStep) {d : SlotDir R}
    (hRest : ∀ w', Building w s w' → w'.tarball = t →
      w'.slots s = some (steps.foldl (built versionOf t) d) →
        Safe (effect versionOf) I rest w' Q)
    (hBuilding : Building w s w₁) (hTar : w₁.tarball = t) (hSlot : w₁.slots s = some d) :
    Safe (effect versionOf) I (buildAll s steps rest) w₁ Q := by
  induction steps generalizing d w₁ with
  | nil => exact hRest w₁ hBuilding hTar hSlot
  | cons step steps ih =>
      apply safe_must (hI _ hBuilding).1
      · rintro w' ⟨left, _, rfl⟩
        exact hI _ (hBuilding.put left)
      · rintro w' ⟨left, hLeft, rfl⟩
        obtain ⟨d', hd', rfl⟩ := hLeft rfl
        obtain rfl : d' = d := Option.some.inj (hd'.symm.trans hSlot)
        refine ih hRest (hBuilding.put _) hTar ?_
        rw [hTar]
        exact Function.update_self _ _ _

/-- All the steps put the release whole into an empty slot. -/
theorem installSteps_whole (r : R) :
    installSteps.foldl (built versionOf (some r)) {} = SlotDir.whole versionOf r := rfl

theorem safe_buildSlot (hI : ∀ w', Building w s w' → I w' ∧ Q 1 w') (hw : I w) {rest : Script}
    (hRest : ∀ w' r, Building w s w' → w'.tarball = some r →
      w'.slots s = some (SlotDir.whole versionOf r) → Safe (effect versionOf) I rest w' Q) :
    Safe (effect versionOf) I (buildSlot s rest) w Q := by
  apply safe_must hw
  · rintro w₁ ⟨left, _, rfl⟩
    exact hI _ (building_wiped left)
  rintro w₁ ⟨left, hLeft, rfl⟩
  obtain rfl := hLeft rfl
  have hWiped := building_wiped (w := w) (s := s) none
  apply safe_must (hI _ hWiped).1
  · rintro w₂ ⟨left, _, rfl⟩
    exact hI _ (hWiped.put left)
  rintro w₂ ⟨left, hLeft, rfl⟩
  obtain rfl := hLeft rfl
  have hMade := hWiped.put (some {})
  have hEmpty : (w.put s none).slots s = none := Function.update_self _ _ _
  rw [hEmpty]
  apply safe_must (hI _ hMade).1
  · rintro w₃ ⟨t, _, rfl⟩
    exact hI _ (hMade.tarball t)
  rintro w₃ ⟨t, ht, rfl⟩
  obtain ⟨r, rfl⟩ := Option.isSome_iff_exists.mp (ht rfl)
  have hFetched := hMade.tarball (some r)
  obtain ⟨hHere, hOut⟩ := hI _ hFetched
  apply safe_mustQuiet (quiet_outside (by decide)) hHere hOut
  apply safe_mustQuiet (quiet_outside (by decide)) hHere hOut
  apply safe_checkManifest hHere hOut
  refine safe_buildAll hI installSteps ?_ hFetched rfl (Function.update_self _ _ _)
  intro w' hBuilding hTar hSlot
  exact hRest w' r hBuilding hTar (by rw [hSlot, installSteps_whole])

/-- The probe changes nothing before it is passed. -/
theorem safe_healthProbe {rest : Script} (hHere : I w) (hOut : Q 1 w)
    (hRest : Safe (effect versionOf) I rest
      { w with probed := Function.update w.probed s true, brokenOff := false } Q) :
    Safe (effect versionOf) I (healthProbe s rest) w Q := by
  apply safe_mustQuiet (quiet_startProbe s) hHere hOut
  apply safe_waitFor (quiet_curlProbe _) hHere
  intro up
  cases up with
  | false => exact ⟨hHere, hOut⟩
  | true =>
      apply safe_probeAll hHere
      intro ok
      cases ok with
      | false => exact ⟨hHere, hOut⟩
      | true =>
          apply safe_must hHere
          · rintro w' rfl
            exact ⟨hHere, hOut⟩
          · rintro w' rfl
            exact hRest

end Build

/-! ### The links -/

section Links

variable {I : Disk R → Prop} {Q : Nat → Disk R → Prop} {w : Disk R} {s : SlotName}

theorem safe_flip (hHere : I w)
    (hLink : ∀ left, I { w with appNew := left } ∧ Q 1 { w with appNew := left }) {rest : Script}
    (hRest : Safe (effect versionOf) I rest { w with live := s, appNew := none } Q) :
    Safe (effect versionOf) I (flip s rest) w Q := by
  apply safe_must hHere
  · rintro w' ⟨left, _, rfl⟩
    exact hLink left
  rintro w₁ ⟨left, hLeft, rfl⟩
  obtain rfl := hLeft rfl
  apply safe_must (hLink _).1
  · rintro w' rfl
    exact hLink _
  rintro w₂ ⟨s', hNew, rfl⟩
  obtain rfl : s = s' := Option.some.inj hNew
  exact hRest

theorem safe_linkPrevious (hHere : I w)
    (hFail : ∀ left, left = w.previous ∨ left = none ∨ left = some s →
      I { w with previous := left } ∧ Q 1 { w with previous := left })
    {rest : Script} (hRest : Safe (effect versionOf) I rest { w with previous := some s } Q) :
    Safe (effect versionOf) I (must (.linkPrevious s) rest) w Q := by
  apply safe_must hHere
  · rintro w' ⟨left, _, hLeft, rfl⟩
    exact hFail left hLeft
  · rintro w' ⟨left, hOk, _, rfl⟩
    obtain rfl := hOk rfl
    exact hRest

end Links

/-- What an update has done when it ends well. -/
structure Updated (versionOf : R → String) (w w' : Disk R) : Prop where
  live : w'.live = w.live.other
  previous : w'.previous = some w.live
  kept : w'.slots w.live = w.slots w.live
  release : ∃ r, w'.tarball = some r ∧
    w'.slots w.live.other = some (SlotDir.whole versionOf r)
  settled : w'.Settled versionOf

/-- What an update keeps at every point. -/
structure Underway (versionOf : R → String) (w w' : Disk R) : Prop where
  inv : w'.Inv versionOf
  kept : w'.slots w.live = w.slots w.live
  live : w'.live = w.live ∨ (w'.live = w.live.other ∧ w'.Settled versionOf)

section Update

variable {w w₁ w₂ : Disk R}

theorem Building.underway (h : Building w w.live.other w₁) (hLive : w.Good versionOf w.live) :
    Underway versionOf w w₁ :=
  ⟨h.inv hLive, h.slots _ (SlotName.ne_other _), Or.inl h.live⟩

/-- `w₂` differs from `w₁` in its links at most. -/
structure Relinked (w₁ w₂ : Disk R) : Prop where
  slots : w₂.slots = w₁.slots
  probed : w₂.probed = w₁.probed
  broken : w₂.brokenOff = w₁.brokenOff
  tarball : w₂.tarball = w₁.tarball

theorem Relinked.good (h : Relinked w₁ w₂) {s : SlotName} (hGood : w₁.Good versionOf s) :
    w₂.Good versionOf s := by
  obtain ⟨hProbed, r, hWhole⟩ := hGood
  exact ⟨by rw [h.probed, hProbed], r, by rw [h.slots, hWhole]⟩

theorem Relinked.settled (h : Relinked w₁ w₂) (hSettled : w₁.Settled versionOf) :
    w₂.Settled versionOf :=
  ⟨fun s => h.good (hSettled.good s), by rw [h.broken, hSettled.whole]⟩

/-- Once its probe is passed, an update is at a safe point whatever the links say. -/
theorem Relinked.underway (h : Relinked w₁ w₂) (hSettled : w₁.Settled versionOf)
    (hKept : w₁.slots w.live = w.slots w.live) : Underway versionOf w w₂ where
  inv := (h.settled hSettled).inv
  kept := by rw [h.slots, hKept]
  live := by
    by_cases hLive : w₂.live = w.live
    · exact Or.inl hLive
    · exact Or.inr ⟨SlotName.eq_other_of_ne hLive, h.settled hSettled⟩

/-- The probe is what makes the slot good that an update has built. -/
theorem Building.settled (h : Building w w.live.other w₁) (hLive : w.Good versionOf w.live) {r : R}
    (hWhole : w₁.slots w.live.other = some (SlotDir.whole versionOf r)) :
    Disk.Settled versionOf
      { w₁ with
        probed := Function.update w₁.probed w.live.other true
        brokenOff := false } where
  good := by
    intro s
    by_cases hs : s = w.live.other
    · subst hs
      exact ⟨Function.update_self _ _ _, r, hWhole⟩
    · obtain ⟨hProbed, r', hWhole'⟩ := hLive
      have hSame : s = w.live := by
        rw [SlotName.eq_other_of_ne hs, SlotName.other_other]
      subst hSame
      refine ⟨?_, r', ?_⟩
      · show Function.update w₁.probed _ true _ = true
        rw [Function.update_of_ne hs, h.probed, Function.update_of_ne hs, hProbed]
      · show w₁.slots _ = _
        rw [h.slots _ hs, hWhole']
  whole := rfl

/-- The end of an update changes nothing but the links. -/
theorem safe_restartChecked {I : Disk R → Prop} {Q : Nat → Disk R → Prop} (w₁ : Disk R)
    {active : SlotName} (hSame : Relinked w₁ w₂)
    (hSafe : ∀ w₃, Relinked w₁ w₃ → I w₃ ∧ Q 1 w₃ ∧ Q 2 w₃) (hDone : Q 0 w₂) :
    Safe (effect versionOf) I (restartChecked active) w₂ Q := by
  obtain ⟨hHere, hOut, _⟩ := hSafe w₂ hSame
  apply safe_quiet (quiet_outside (by decide)) hHere
  intro _
  apply safe_mustQuiet (quiet_outside (by decide)) hHere hOut
  apply safe_waitFor (quiet_outside (by decide)) hHere
  intro ok
  cases ok with
  | true => exact ⟨hHere, hDone⟩
  | false =>
      have hLinked : ∀ live new, Relinked w₁ { w₂ with live := live, appNew := new } :=
        fun _ _ => ⟨hSame.slots, hSame.probed, hSame.broken, hSame.tarball⟩
      apply safe_flip hHere
      · intro left
        obtain ⟨hI, hOut, _⟩ := hSafe _ (hLinked w₂.live left)
        exact ⟨hI, hOut⟩
      obtain ⟨hHere, hOut, hBack⟩ := hSafe _ (hLinked active none)
      exact safe_mustQuiet (quiet_outside (by decide)) hHere hOut ⟨hHere, hBack⟩

/-- From a state with the invariant an update keeps the live slot it started with, keeps a good
slot live, and ends with status 0 only when the new release is live. -/
theorem update_safe (hInv : w.Inv versionOf) :
    Safe (effect versionOf) (Underway versionOf w) update w
      fun code w' => code = 0 → Updated versionOf w w' := by
  have hStart : Underway versionOf w w := ⟨hInv, rfl, Or.inl rfl⟩
  apply safe_readApp hStart
  refine safe_buildSlot ?_ hStart ?_
  · intro w' hBuilding
    exact ⟨hBuilding.underway hInv.live, fun h => absurd h (by decide)⟩
  intro w₁ r hBuilding hTar hWhole
  apply safe_healthProbe (hBuilding.underway hInv.live) (fun h => absurd h (by decide))
  have hSettled := hBuilding.settled hInv.live hWhole
  generalize hPassed : ({ w₁ with
    probed := Function.update w₁.probed w.live.other true
    brokenOff := false } : Disk R) = w₂ at hSettled ⊢
  have hKept : w₂.slots w.live = w.slots w.live := by
    rw [← hPassed]
    exact hBuilding.slots _ (SlotName.ne_other _)
  have hRelease : w₂.tarball = some r ∧
      w₂.slots w.live.other = some (SlotDir.whole versionOf r) := by
    rw [← hPassed]
    exact ⟨hTar, hWhole⟩
  have hSafe : ∀ w₃, Relinked w₂ w₃ → Underway versionOf w w₃ ∧
      ((1 : Nat) = 0 → Updated versionOf w w₃) := fun w₃ h =>
    ⟨h.underway hSettled hKept, fun h => absurd h (by decide)⟩
  have hSame : Relinked w₂ w₂ := ⟨rfl, rfl, rfl, rfl⟩
  have hFlipped : Relinked w₂ { w₂ with live := w.live.other, appNew := none } :=
    ⟨rfl, rfl, rfl, rfl⟩
  have hSwapped : Relinked w₂
      { w₂ with live := w.live.other, appNew := none, previous := some w.live } :=
    ⟨rfl, rfl, rfl, rfl⟩
  apply safe_flip (hSafe _ hSame).1
  · intro left
    exact hSafe _ ⟨rfl, rfl, rfl, rfl⟩
  apply safe_linkPrevious (hSafe _ hFlipped).1
  · intro left _
    exact hSafe _ ⟨rfl, rfl, rfl, rfl⟩
  apply safe_restartChecked w₂ hSwapped
  · intro w₃ h₃
    exact ⟨h₃.underway hSettled hKept, fun h => absurd h (by decide), fun h => absurd h (by decide)⟩
  · intro _
    exact ⟨rfl, rfl, hKept, ⟨r, hRelease⟩, hSwapped.settled hSettled⟩

end Update

/-! ### The rollback -/

/-- Where a rollback to `s` may stand. -/
structure Amid (w : Disk R) (s : SlotName) (w' : Disk R) : Prop where
  relinked : Relinked w w'
  live : w'.live = w.live ∨ w'.live = s
  previous : ∀ t, w'.previous = some t → t = w.live ∨ t = s

/-- The disk after a rollback to `s`. -/
def Disk.swapped (w : Disk R) (s : SlotName) : Disk R :=
  { w with live := s, appNew := none, previous := some w.live }

/-- What a rollback has done when it ends well. -/
inductive RolledBack (w : Disk R) : Disk R → Prop where
  | already (hFlips : ¬ w.Flips) : RolledBack w w
  | swapped {s : SlotName} (hPrevious : w.previous = some s) (hThere : (w.slots s).isSome = true)
      (hLive : s ≠ w.live) : RolledBack w (w.swapped s)

theorem safe_startAgain {I : Disk R → Prop} {Q : Nat → Disk R → Prop} {w : Disk R} (hHere : I w)
    (hOut : Q 1 w) (hDone : Q 0 w) (auto : Bool) :
    Safe (effect versionOf) I (startAgain auto) w Q := by
  cases auto with
  | true => exact safe_mustQuiet (quiet_outside (by decide)) hHere hOut ⟨hHere, hDone⟩
  | false => exact safe_mustQuiet (quiet_outside (by decide)) hHere hOut ⟨hHere, hDone⟩

theorem safe_rollback {I : Disk R → Prop} {w : Disk R} (auto : Bool) (hHere : I w)
    (hAmid : w.Flips → ∀ s w', w.previous = some s → Amid w s w' → I w') :
    Safe (effect versionOf) I (rollback auto) w fun code w' => code = 0 → RolledBack w w' := by
  apply safe_readPrevious hHere
  apply safe_readApp hHere
  cases hPrevious : w.previous with
  | none => exact ⟨hHere, fun h => absurd h (by decide)⟩
  | some s =>
      apply safe_run hHere
      rintro _ w' ⟨rfl, rfl⟩
      cases hThere : (w'.slots s).isSome with
      | false => exact ⟨hHere, fun h => absurd h (by decide)⟩
      | true =>
          rw [if_pos rfl]
          split
          case isTrue hSame =>
            refine ⟨hHere, fun _ => .already ?_⟩
            rintro ⟨t, ht, _, hOther⟩
            obtain rfl := Option.some.inj (hPrevious.symm.trans ht)
            exact hOther hSame.symm
          case isFalse hOther =>
            have hFlips : w'.Flips := ⟨s, hPrevious, hThere, fun h => hOther h.symm⟩
            have hSafe : ∀ w₂, Amid w' s w₂ → I w₂ ∧ ((1 : Nat) = 0 → RolledBack w' w₂) :=
              fun w₂ h => ⟨hAmid hFlips s w₂ hPrevious h, fun h => absurd h (by decide)⟩
            have hRecorded : ∀ t, w'.previous = some t → t = w'.live ∨ t = s := by
              intro t ht
              exact Or.inr (Option.some.inj (ht.symm.trans hPrevious))
            have hFlipped : Amid w' s { w' with live := s, appNew := none } :=
              ⟨⟨rfl, rfl, rfl, rfl⟩, Or.inr rfl, hRecorded⟩
            apply safe_flip hHere
            · intro left
              exact hSafe _ ⟨⟨rfl, rfl, rfl, rfl⟩, Or.inl rfl, hRecorded⟩
            apply safe_linkPrevious (hSafe _ hFlipped).1
            · intro left hLeft
              refine hSafe _ ⟨⟨rfl, rfl, rfl, rfl⟩, Or.inr rfl, ?_⟩
              rintro t rfl
              rcases hLeft with hOld | hNone | hNew
              · exact hRecorded t hOld.symm
              · cases hNone
              · exact Or.inl (Option.some.inj hNew)
            have hDone : Amid w' s (w'.swapped s) := by
              refine ⟨⟨rfl, rfl, rfl, rfl⟩, Or.inr rfl, ?_⟩
              intro t ht
              exact Or.inl (Option.some.inj ht).symm
            exact safe_startAgain (hSafe _ hDone).1 (hSafe _ hDone).2
              (fun _ => .swapped hPrevious hThere fun h => hOther h.symm) auto

theorem rolledBack_of_exec {w w' : Disk R} {auto : Bool}
    (hExec : Exec (effect versionOf) (rollback auto) w w' (some 0)) : RolledBack w w' := by
  have hSafe : Safe (effect versionOf) (fun _ => True) (rollback auto) w
      fun code w' => code = 0 → RolledBack w w' :=
    safe_rollback auto trivial fun _ _ _ _ _ => trivial
  exact (hSafe.exec hExec).2 0 rfl rfl

/-- A rollback between two good slots may stand anywhere. -/
theorem Amid.inv {w w' : Disk R} {s : SlotName} (h : Amid w s w')
    (hLive : w.Good versionOf w.live) (hGood : w.Good versionOf s) (hWhole : w.brokenOff = false) :
    w'.Inv versionOf where
  live := by
    rcases h.live with hl | hl <;> rw [hl]
    · exact h.relinked.good hLive
    · exact h.relinked.good hGood
  recorded := by
    intro _ t ht
    rcases h.previous t ht with rfl | rfl
    · exact h.relinked.good hLive
    · exact h.relinked.good hGood
  broken := by
    intro hBroken
    rw [h.relinked.broken, hWhole] at hBroken
    cases hBroken

/-- Every script keeps the invariant from the states it may start in. -/
theorem script_safe (j : Job) (w : Disk R) (hStarts : Starts j w) (hInv : w.Inv versionOf) :
    Safe (effect versionOf) (Disk.Inv versionOf) j.script w fun _ _ => True := by
  cases j with
  | update =>
      have hUpdate := update_safe hInv
      exact (hUpdate.weaken fun w' h => h.inv).mono fun _ _ _ => trivial
  | rollback auto =>
      refine Safe.mono (safe_rollback auto hInv ?_) fun _ _ _ => trivial
      intro hFlips s w' hPrevious hAmid
      have hWhole := hStarts hFlips
      exact hAmid.inv hInv.live (hInv.recorded hWhole s hPrevious) hWhole

/-! ### Whole runs -/

/-- The pools that updates and rollbacks lead to, from what the installer leaves, where no
rollback has swapped the link after a broken off update (`Starts`). -/
abbrev SlotsReachable (versionOf : R → String) (r : R) (P : Pool Cmd Cmd.Answer (Disk R) Job Nat) :
    Prop :=
  Pool.Reachable (effect versionOf) Job.script Starts (installed versionOf r) P

theorem SlotsReachable.inv {r : R} {P : Pool Cmd Cmd.Answer (Disk R) Job Nat}
    (hReach : SlotsReachable versionOf r P) : P.state.Inv versionOf :=
  Pool.Reachable.inv (installed_inv r) script_safe hReach

/-- In every run of updates and rollbacks, cut off wherever they may be, in which no rollback
swaps the link while an update is broken off, the live slot holds a whole release that has
passed its probe. -/
theorem live_slot_good {r : R} {P : Pool Cmd Cmd.Answer (Disk R) Job Nat}
    (hReach : SlotsReachable versionOf r P) : P.state.Good versionOf P.state.live :=
  hReach.inv.live

/-- A script run to its end, where the commands in `fails` fail and release 2 is offered. -/
def runScript (fails : Action → Bool) (p : Script) (w : Disk Nat) : Option Nat × Disk Nat :=
  p.runWith (respond toString fails 2) 60 w

theorem exec_runScript (fails : Action → Bool) (p : Script) (w : Disk Nat) (code : Nat)
    (hCode : (runScript fails p w).1 = some code) :
    Exec (effect toString) p w (runScript fails p w).2 (some code) := by
  rw [← hCode]
  exact exec_respond toString fails 2 60 p w

/-- Every command succeeds. -/
def allWell (_ : Action) : Bool := false

/-- The release cannot be downloaded. -/
def offline (c : Action) : Bool := c = .curlTarball

/-- The first update of an installation. -/
def firstUpdate (fails : Action → Bool) : Disk Nat :=
  (runScript fails update (installed toString 1)).2

theorem reachable_firstUpdate (fails : Action → Bool) :
    SlotsReachable toString 1 ⟨firstUpdate fails, [], none⟩ :=
  Pool.Reachable.init.exec (j := .update) trivial (exec_respond toString fails 2 60 update _)

/-- The download fails after the slot is wiped. -/
theorem live_slot_good_offline :
    (firstUpdate offline).Good toString (firstUpdate offline).live :=
  live_slot_good (reachable_firstUpdate offline)

/-- After such a run, a rollback that ends well leaves a good slot live, unless it swaps the
link to a slot that an update has wiped and not finished. -/
theorem rollback_good_iff {r : R} {P : Pool Cmd Cmd.Answer (Disk R) Job Nat}
    (hReach : SlotsReachable versionOf r P) {auto : Bool} {w' : Disk R}
    (hExec : Exec (effect versionOf) (rollback auto) P.state w' (some 0)) :
    w'.Good versionOf w'.live ↔ (P.state.Flips → P.state.brokenOff = false) := by
  have hInv := hReach.inv
  cases rolledBack_of_exec hExec with
  | already hFlips => exact ⟨fun _ h => absurd h hFlips, fun _ => hInv.live⟩
  | @swapped s hPrevious hThere hLive =>
      constructor
      · rintro ⟨hProbed, _⟩ _
        have hOther : s = P.state.live.other := SlotName.eq_other_of_ne hLive
        have hUnbroken : ¬ P.state.brokenOff = true := by
          intro hBroken
          have hUnprobed := hInv.broken hBroken
          rw [← hOther] at hUnprobed
          exact absurd (hProbed.symm.trans hUnprobed) (by decide)
        exact Bool.eq_false_iff.mpr hUnbroken
      · intro hFlips
        exact hInv.recorded (hFlips ⟨s, hPrevious, hThere, hLive⟩) s hPrevious

/-- The second update of an installation fails to download its release. -/
def secondUpdate : Disk Nat := (runScript offline update (firstUpdate allWell)).2

theorem reachable_secondUpdate : SlotsReachable toString 1 ⟨secondUpdate, [], none⟩ :=
  (reachable_firstUpdate allWell).exec (j := .update) trivial
    (exec_respond toString offline 2 60 update _)

/-- A rollback then makes the wiped slot live. -/
theorem rollback_good_iff_wiped :
    ¬ (runScript allWell (rollback true) secondUpdate).2.Good toString
      (runScript allWell (rollback true) secondUpdate).2.live := by
  intro hGood
  have hExec := exec_runScript allWell (rollback true) secondUpdate 0 rfl
  have hWhole := (rollback_good_iff reachable_secondUpdate hExec).mp hGood
  exact absurd (hWhole ⟨.a, rfl, rfl, by decide⟩) (by decide)

/-- After such a run, an update that ends well can be rolled back and the rollback undone, and
both slots stay as the update has left them. -/
theorem update_rollback_redo {r : R} {P : Pool Cmd Cmd.Answer (Disk R) Job Nat}
    (hReach : SlotsReachable versionOf r P) {auto auto' : Bool} {w₁ w₂ w₃ : Disk R}
    (hUpdate : Exec (effect versionOf) update P.state w₁ (some 0))
    (hBack : Exec (effect versionOf) (rollback auto) w₁ w₂ (some 0))
    (hRedo : Exec (effect versionOf) (rollback auto') w₂ w₃ (some 0)) :
    (∃ r', w₁.slots w₁.live = some (SlotDir.whole versionOf r')) ∧
      w₂.live = P.state.live ∧ w₂.slots w₂.live = P.state.slots P.state.live ∧
        w₃.live = w₁.live ∧ w₃.slots = w₁.slots ∧ ∀ s, w₃.Good versionOf s := by
  have hUpdated := ((update_safe hReach.inv).exec hUpdate).2 0 rfl rfl
  have hGood₁ := hUpdated.settled.good
  have hThere : ∀ s, (w₁.slots s).isSome = true := by
    intro s
    obtain ⟨_, r', hWhole⟩ := hGood₁ s
    rw [hWhole]
    rfl
  have hOther : P.state.live ≠ w₁.live := by
    rw [hUpdated.live]
    exact SlotName.ne_other _
  obtain rfl : w₂ = w₁.swapped P.state.live := by
    cases rolledBack_of_exec hBack with
    | already hFlips =>
        exact absurd ⟨P.state.live, hUpdated.previous, hThere _, hOther⟩ hFlips
    | swapped hPrevious _ _ =>
        obtain rfl := Option.some.inj (hUpdated.previous.symm.trans hPrevious)
        rfl
  obtain rfl : w₃ = (w₁.swapped P.state.live).swapped w₁.live := by
    cases rolledBack_of_exec hRedo with
    | already hFlips => exact absurd ⟨w₁.live, rfl, hThere _, hOther.symm⟩ hFlips
    | swapped hPrevious _ _ =>
        obtain rfl := Option.some.inj hPrevious
        rfl
  obtain ⟨r', _, hRelease⟩ := hUpdated.release
  refine ⟨⟨r', ?_⟩, rfl, hUpdated.kept, rfl, rfl, hGood₁⟩
  rw [hUpdated.live, hRelease]

/-- The first update is rolled back. -/
def firstRollback : Disk Nat := (runScript allWell (rollback false) (firstUpdate allWell)).2

theorem update_rollback_redo_first :
    ∃ w₁ w₂ w₃ : Disk Nat, w₁.live = .b ∧ w₂.live = .a ∧ w₃.live = w₁.live ∧
      w₃.slots = w₁.slots := by
  have hUpdate := exec_runScript allWell update (installed toString 1) 0 rfl
  have hBack := exec_runScript allWell (rollback false) (firstUpdate allWell) 0 rfl
  have hRedo := exec_runScript allWell (rollback false) firstRollback 0 rfl
  obtain ⟨_, hLive, _, hAgain, hSlots, _⟩ :=
    update_rollback_redo (P := ⟨installed toString 1, [], none⟩) .init hUpdate hBack hRedo
  exact ⟨_, _, _, rfl, hLive, hAgain, hSlots⟩

end WattPost.Update
