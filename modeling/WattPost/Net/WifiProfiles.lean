import WattPost.Net.WifiKeyfile

/-! What a join does to the profiles that are already there. It truncates the file of its name
before it knows whether the network can be joined, and on a failure it removes that file and
every profile with the SSID as its name. -/
namespace WifiJoin

open FileProgram NmProfile

/-- The SSID that a profile is for. -/
def profileSsid (content : String) : Option ByteArray := (KeyFile.load content).bind wifiSsid

/-- Whatever a join runs into: when it fails, no profile is lost or changed. -/
def FailureKeeps (host : Host) (args : Args) (files : Files String String) : Prop :=
  ∀ faults answer after, actWifiJoin host faults args files = (.ok answer, after) →
    answer.ok = false → ∀ f content, files f = some content → after f = some content

/-- When it succeeds, the profiles of all other SSIDs are as before. -/
def SuccessKeeps (host : Host) (args : Args) (files : Files String String) : Prop :=
  ∀ faults answer after, actWifiJoin host faults args files = (.ok answer, after) →
    answer.ok = true → ∀ f content, files f = some content →
      profileSsid content ≠ some args.ssid.given.toUTF8 → after f = some content

/-- A join puts no saved network at risk. -/
def KeepsNetworks (host : Host) (args : Args) (files : Files String String) : Prop :=
  FailureKeeps host args files ∧ SuccessKeeps host args files

/-! ### What a join leaves alone -/

section Frame

variable {host : Host} {f content : String}

theorem keeps_runNmcli (run : Nmcli) :
    Keeps (fun files => files f = some content) (runNmcli run) := by
  cases run with
  | succeeds => exact Keeps.pure _
  | fails stderr => exact Keeps.pure _
  | raises message => exact Keeps.raise _

theorem keeps_dropNamed {id : String} (hName : profileName host.fileId f content ≠ some id)
    (gone : String → Bool) :
    Keeps (fun files => files f = some content) (dropNamed host id gone) := by
  intro files hFile
  show (files f).filter _ = some content
  rw [hFile, Option.filter_some]
  simp [hName]

theorem touches_removeQuietly (fault : Fault String) (path : String) :
    Touches (· = path) (removeQuietly fault path) :=
  Touches.orElse (Touches.unlink fault rfl) (Touches.pure _)

theorem keeps_writeKeyfile (faults : Faults) {p : Plan} (hPath : f ≠ p.path) :
    Keeps (fun files => files f = some content) (writeKeyfile faults p) := by
  have hWrite : Touches (· = p.path) (write faults.write p.path p.body) :=
    Touches.write (S := (· = p.path)) _ rfl _
  refine Keeps.handle (Keeps.bind (Keeps.attempt _) fun _ => Keeps.bind ?_ fun _ => Keeps.pure _)
    fun _ => Keeps.pure _
  exact Keeps.of_touches hWrite hPath _

/-- A profile in another file and under another name stays, however the join ends. -/
theorem keeps_activate (faults : Faults) {p : Plan} (hPath : f ≠ p.path)
    (hName : profileName host.fileId f content ≠ some p.ssid) :
    Keeps (fun files => files f = some content) (activate host faults p) := by
  have hRemove : Keeps (fun files => files f = some content)
      (removeQuietly faults.remove p.path) :=
    Keeps.of_touches (touches_removeQuietly _ _) hPath _
  unfold activate
  refine Keeps.bind (keeps_writeKeyfile faults hPath) fun written => ?_
  cases written with
  | some answer => exact Keeps.pure _
  | none =>
      refine Keeps.bind (keeps_runNmcli _) fun load => ?_
      cases load with
      | some stderr => exact Keeps.bind hRemove fun _ => Keeps.pure _
      | none =>
          refine Keeps.bind (keeps_runNmcli _) fun up => ?_
          cases up with
          | none => exact Keeps.pure _
          | some stderr =>
              refine Keeps.bind ?_ fun _ => Keeps.bind hRemove fun _ => Keeps.pure _
              exact Keeps.bind (keeps_dropNamed hName _) fun _ => keeps_runNmcli _

end Frame

/-! ### What it can lose -/

/-- The network is refused: nothing else fails. -/
def refused (load up : Nmcli) : Faults where
  makedirs := .none
  write := .none
  load := load
  up := up
  delete := .succeeds
  gone := fun _ => true
  remove := .none

section Loss

variable {host : Host} {args : Args} {p : Plan} {files : Files String String}

theorem actWifiJoin_of_plan (h : plan host args = .ok p) (faults : Faults) :
    actWifiJoin host faults args = activate host faults p := by
  unfold actWifiJoin
  rw [h]

/-- When nmcli does not load the file, what was in it before is gone. -/
theorem activate_unloaded (host : Host) (files : Files String String) (p : Plan)
    (stderr : String) :
    ∃ answer after, activate host (refused (.fails stderr) .succeeds) p files =
        (.ok answer, after) ∧ answer.ok = false ∧ after p.path = none :=
  ⟨_, _, rfl, rfl, Function.update_self ..⟩

/-- When the network cannot be joined, the profiles of its name are gone too. -/
theorem activate_unjoined {f content : String} (hPath : f ≠ p.path) (hFile : files f = some content)
    (hName : profileName host.fileId f content = some p.ssid) (stderr : String) :
    ∃ answer after, activate host (refused .succeeds (.fails stderr)) p files =
        (.ok answer, after) ∧ answer.ok = false ∧ after f = none := by
  refine ⟨_, _, rfl, rfl, ?_⟩
  rw [Function.update_of_ne hPath]
  show (Function.update files p.path (some p.body) f).filter _ = none
  rw [Function.update_of_ne hPath, hFile, Option.filter_some]
  simp [refused, hName]

theorem path_free_of_keeps (h : plan host args = .ok p) (hKeeps : FailureKeeps host args files) :
    files p.path = none := by
  cases hFile : files p.path with
  | none => rfl
  | some content =>
      obtain ⟨answer, after, hRun, hFailed, hGone⟩ :=
        activate_unloaded host files p ""
      rw [← actWifiJoin_of_plan h] at hRun
      have hKept := hKeeps _ _ _ hRun hFailed _ _ hFile
      rw [hGone] at hKept
      cases hKept

theorem name_free_of_keeps (h : plan host args = .ok p) (hKeeps : FailureKeeps host args files)
    {f content : String} (hFile : files f = some content) :
    profileName host.fileId f content ≠ some p.ssid := by
  intro hName
  have hPath : f ≠ p.path := by
    rintro rfl
    rw [path_free_of_keeps h hKeeps] at hFile
    cases hFile
  obtain ⟨answer, after, hRun, hFailed, hGone⟩ := activate_unjoined hPath hFile hName ""
  rw [← actWifiJoin_of_plan h] at hRun
  have hKept := hKeeps _ _ _ hRun hFailed _ _ hFile
  rw [hGone] at hKept
  cases hKept

/-- A failed join is harmless exactly when no file has the name that it gives its own, and no
profile has the SSID as its name. -/
theorem failureKeeps_iff (h : plan host args = .ok p) :
    FailureKeeps host args files ↔ files p.path = none ∧
      ∀ f content, files f = some content → profileName host.fileId f content ≠ some p.ssid := by
  constructor
  · intro hKeeps
    exact ⟨path_free_of_keeps h hKeeps, fun f content hFile => name_free_of_keeps h hKeeps hFile⟩
  · rintro ⟨hFree, hNames⟩ faults answer after hRun _ f content hFile
    have hOther : f ≠ p.path := by
      rintro rfl
      rw [hFree] at hFile
      cases hFile
    have hAfter := keeps_activate faults hOther (hNames f content hFile) files hFile
    rw [← actWifiJoin_of_plan h, hRun] at hAfter
    exact hAfter

/-- All that a successful join does is to write its file. -/
theorem activate_joined {faults : Faults} {answer : Answer} {after : Files String String}
    (hRun : activate host faults p files = (.ok answer, after)) (hOk : answer.ok = true) :
    after = Function.update files p.path (some p.body) := by
  obtain ⟨makedirs, write, load, up, delete, gone, remove⟩ := faults
  cases makedirs with
  | failed _ =>
      cases hRun
      cases hOk
  | none =>
      cases write with
      | failed leftover => cases leftover <;> cases hRun <;> cases hOk
      | none =>
          cases load with
          | raises message => cases hRun
          | fails stderr => cases remove <;> cases hRun <;> cases hOk
          | succeeds =>
              cases up with
              | raises message => cases hRun
              | fails stderr => cases delete <;> cases remove <;> cases hRun <;> cases hOk
              | succeeds =>
                  cases hRun
                  rfl

/-- A successful join is harmless to the other SSIDs exactly when the file that it writes was
not the profile of one of them, or says the same. -/
theorem successKeeps_iff (h : plan host args = .ok p) :
    SuccessKeeps host args files ↔ ∀ content, files p.path = some content →
      profileSsid content = some args.ssid.given.toUTF8 ∨ content = p.body := by
  constructor
  · intro hKeeps content hFile
    by_contra hOther
    obtain ⟨hSsid, hBody⟩ := not_or.mp hOther
    have hRun : actWifiJoin host (refused .succeeds .succeeds) args files =
        (.ok { ok := true, out := "connected", err := "" },
          Function.update files p.path (some p.body)) := by
      rw [actWifiJoin_of_plan h]
      rfl
    have hKept := hKeeps _ _ _ hRun rfl _ _ hFile hSsid
    rw [Function.update_self] at hKept
    exact hBody (Option.some.inj hKept).symm
  · intro hSame faults answer after hRun hOk f content hFile hSsid
    rw [actWifiJoin_of_plan h] at hRun
    rw [activate_joined hRun hOk]
    by_cases hPath : f = p.path
    · subst hPath
      rw [Function.update_self, (hSame content hFile).resolve_left hSsid]
    · rw [Function.update_of_ne hPath, hFile]

/-- A join puts no saved network at risk exactly when no file has the name that it gives its
own, and no profile has the SSID as its name. -/
theorem join_keeps_networks_iff (h : plan host args = .ok p) :
    KeepsNetworks host args files ↔
      files (keyfilePath host args.ssid.given) = none ∧
        ∀ f content, files f = some content →
          profileName host.fileId f content ≠ some args.ssid.given := by
  obtain ⟨sec, _, hPlan, _, _⟩ := plan_ok h
  have hPath : p.path = keyfilePath host args.ssid.given := by rw [hPlan]
  have hSsid : p.ssid = args.ssid.given := by rw [hPlan]
  rw [KeepsNetworks, failureKeeps_iff h, successKeeps_iff h, ← hPath, ← hSsid]
  refine and_iff_left_of_imp fun hFree content hFile => ?_
  rw [hFree.1] at hFile
  cases hFile

end Loss

/-! ### Two networks in one file -/

/-- A join of a network whose name differs from a saved one in a blank. -/
def cafeArgs : Args where
  ssid := .text "Cafe.1"
  psk := .text "wrong password"
  ipv4 := none

/-- One saved network, which was set up by hand. -/
def savedShed : Files String String :=
  Function.update (fun _ => none) (nmConnDir ++ "/Shed.nmconnection")
    (some "[connection]\nid=Shed\ntype=wifi\n[wifi]\nssid=Shed\n")

theorem join_keeps_networks_shed : KeepsNetworks asciiHost cafeArgs savedShed := by
  refine (join_keeps_networks_iff rfl).mpr ⟨?_, fun f content hFile => ?_⟩
  · refine Function.update_of_ne (fun hEq => ?_) _ _
    have hChars := congrArg (fun s => s.toList.length) hEq
    revert hChars
    simp only [keyfilePath, String.toList_append]
    decide
  · by_cases hPath : f = nmConnDir ++ "/Shed.nmconnection"
    · subst hPath
      rw [savedShed, Function.update_self] at hFile
      obtain rfl := Option.some.inj hFile
      decide
    · rw [savedShed, Function.update_of_ne hPath] at hFile
      cases hFile

/-- The file of the saved network `Cafe 1`, as an earlier join wrote it. -/
def savedCafe : Files String String :=
  Function.update (fun _ => none) (keyfilePath asciiHost "Cafe 1")
    (some (keyfileBody "Cafe 1" "good password" "[ipv4]\nmethod=auto\n"))

theorem plan_cafe : plan asciiHost cafeArgs = .ok {
    ssid := "Cafe.1"
    path := keyfilePath asciiHost "Cafe.1"
    body := keyfileBody "Cafe.1" "wrong password" "[ipv4]\nmethod=auto\n" } := rfl

/-- The two networks have their profiles in one file. -/
theorem keyfilePath_cafe : keyfilePath asciiHost "Cafe.1" = keyfilePath asciiHost "Cafe 1" := by
  have hSafe : "Cafe.1".toList.map (safeChar asciiHost) =
      "Cafe 1".toList.map (safeChar asciiHost) := by decide
  rw [keyfilePath, keyfilePath, hSafe]

/-- A failed join of `Cafe.1` removes the profile of `Cafe 1`. -/
theorem cafe_join_loses_network : ¬ KeepsNetworks asciiHost cafeArgs savedCafe := by
  intro hKeeps
  have hFree := path_free_of_keeps plan_cafe hKeeps.1
  dsimp only at hFree
  rw [keyfilePath_cafe, savedCafe, Function.update_self] at hFree
  exact Option.some_ne_none _ hFree

end WifiJoin
