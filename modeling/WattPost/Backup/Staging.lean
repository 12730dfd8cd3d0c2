import WattPost.Backup.Restore

/-! Staging: which files it writes, when it gets through, and what it then leaves
beside the live files. -/
namespace WattPost.Backup

open Cloud (Json Fields)
open FileProgram

/-- What the members are staged with. -/
def callOf (yaml : Yaml) (faults : Faults) (components : Option (List String))
    (files : Files File Content) : Call where
  yaml := yaml
  faults := faults
  components := components
  preservedCloud := readPreservedCloud yaml faults files
  existingPwHash := (files .pwHash).isSome
  existingPwPlain := (files .pwPlain).isSome

/-! ### What it writes -/

/-- The files that staging may write for the requested components. -/
def StageTarget (components : Option (List String)) (file : File) : Prop :=
  (file = .dbRestoring ∧ wants components "data" = true) ∨
    (file = .configRestoring ∧ wants components "config" = true) ∨
      ((file = .pwHashRestoring ∨ file = .pwPlainRestoring) ∧
        wants components "password" = true)

theorem touches_withBytes {S : File → Prop} {member : Member} {st : Staged}
    {k : Content → RestoreM Staged} (hk : ∀ content, Touches S (k content)) :
    Touches S (withBytes member st k) := by
  unfold withBytes
  split
  · exact Touches.pure st
  · exact Touches.raise _
  · exact hk _

theorem touches_stageConfig (call : Call) {S : File → Prop} (hS : S .configRestoring) (i : Nat)
    (rawBytes : Content) (st : Staged) : Touches S (stageConfig call i rawBytes st) := by
  unfold stageConfig
  split
  · exact (Touches.write _ hS _).bind fun _ => Touches.pure _
  · exact Touches.orElse
      ((Touches.write _ hS _).bind fun _ => (Touches.attempt _).bind fun _ => Touches.pure _)
      ((Touches.write _ hS _).bind fun _ => Touches.pure _)

theorem touches_stageMember (call : Call) (i : Nat) (member : Member) (st : Staged) :
    Touches (StageTarget call.components) (stageMember call i member st) := by
  have hWrite : ∀ (fault : Fault Content) (file : File) (content : Content) (st' : Staged),
      StageTarget call.components file →
        Touches (StageTarget call.components)
          (do write fault file content; return st' : RestoreM Staged) :=
    fun fault file content st' hFile => (Touches.write fault hFile content).bind
      fun _ => Touches.pure st'
  unfold stageMember
  split_ifs with _ hData _ hConfig _ hPw _ _ _ hPw
  all_goals first | exact Touches.pure _ | (apply touches_withBytes; intro content)
  · exact hWrite _ _ _ _ (Or.inl ⟨rfl, eq_true_of_ne_false hData⟩)
  · exact touches_stageConfig call (Or.inr (Or.inl ⟨rfl, eq_true_of_ne_false hConfig⟩)) i content st
  · exact hWrite _ _ _ _ (Or.inr (Or.inr ⟨Or.inl rfl, eq_true_of_ne_false hPw⟩))
  · exact hWrite _ _ _ _ (Or.inr (Or.inr ⟨Or.inr rfl, eq_true_of_ne_false hPw⟩))

theorem touches_stageMembers (call : Call) (i : Nat) (members : List Member) (st : Staged) :
    Touches (StageTarget call.components) (stageMembers call i members st) := by
  induction members generalizing i st with
  | nil => exact Touches.pure st
  | cons member rest ih =>
      exact (touches_stageMember call i member st).bind fun st' => ih (i + 1) st'

/-- Whether it succeeds or not, staging leaves the live files alone. -/
theorem touches_prepare (yaml : Yaml) (faults : Faults) (components : Option (List String))
    (archive : Option (List Member)) :
    Touches (StageTarget components) (prepare yaml faults components archive) := by
  have hAll : ∀ call, Touches (StageTarget call.components) (stageAll call archive) := by
    intro call
    refine (Touches.attempt _).bind fun _ => (Touches.attempt _).bind fun _ =>
      (Touches.attempt _).bind fun _ => ?_
    cases archive with
    | none => exact Touches.raise _
    | some members => exact touches_stageMembers call 0 members _
  intro files f hf
  exact hAll (callOf yaml faults components files) files f hf

/-- A component that is not wanted leaves no flag behind. -/
def FlagsOff (components : Option (List String)) (st : Staged) : Prop :=
  (wants components "config" = false → st.haveCfg = false) ∧
    (wants components "password" = false → st.havePwHash = false ∧ st.havePwPlain = false)

theorem returns_stageConfig (call : Call) (i : Nat) (rawBytes : Content) (st : Staged) :
    Returns (stageConfig call i rawBytes st) fun st' =>
      st'.havePwHash = st.havePwHash ∧ st'.havePwPlain = st.havePwPlain := by
  unfold stageConfig
  split
  · exact (Returns.trivial _).bind fun _ _ => Returns.pure ⟨rfl, rfl⟩
  · exact Returns.orElse
      ((Returns.trivial _).bind fun _ _ => (Returns.trivial _).bind fun _ _ =>
        Returns.pure ⟨rfl, rfl⟩)
      ((Returns.trivial _).bind fun _ _ => Returns.pure ⟨rfl, rfl⟩)

theorem returns_stageMember (call : Call) (i : Nat) (member : Member) {st : Staged}
    (h : FlagsOff call.components st) :
    Returns (stageMember call i member st) (FlagsOff call.components) := by
  have hBytes : ∀ k : Content → RestoreM Staged,
      (∀ content, Returns (k content) (FlagsOff call.components)) →
        Returns (withBytes member st k) (FlagsOff call.components) := by
    intro k hk
    unfold withBytes
    split
    · exact Returns.pure h
    · exact Returns.raise _
    · exact hk _
  unfold stageMember
  split_ifs with _ hData _ hConfig _ hPw _ _ _ hPw
  all_goals first | exact Returns.pure h | (apply hBytes; intro content)
  · exact (Returns.trivial _).bind fun _ _ => Returns.pure h
  · intro files st' hReturned
    obtain ⟨hHash, hPlain⟩ := returns_stageConfig call i content st files st' hReturned
    refine ⟨fun hOff => absurd hOff hConfig, fun hOff => ?_⟩
    rw [hHash, hPlain]
    exact h.2 hOff
  · exact (Returns.trivial _).bind fun _ _ =>
      Returns.pure ⟨h.1, fun hOff => absurd hOff hPw⟩
  · exact (Returns.trivial _).bind fun _ _ =>
      Returns.pure ⟨h.1, fun hOff => absurd hOff hPw⟩

theorem returns_stageMembers (call : Call) (i : Nat) (members : List Member) {st : Staged}
    (h : FlagsOff call.components st) :
    Returns (stageMembers call i members st) (FlagsOff call.components) := by
  induction members generalizing i st with
  | nil => exact Returns.pure h
  | cons member rest ih =>
      exact (returns_stageMember call i member h).bind fun st' hSt => ih (i + 1) hSt

theorem returns_prepare (yaml : Yaml) (faults : Faults) (components : Option (List String))
    (archive : Option (List Member)) :
    Returns (prepare yaml faults components archive) (FlagsOff components) := by
  have hAll : ∀ call, Returns (stageAll call archive) (FlagsOff call.components) := by
    intro call
    refine (Returns.trivial _).bind fun _ _ => (Returns.trivial _).bind fun _ _ =>
      (Returns.trivial _).bind fun _ _ => ?_
    cases archive with
    | none => exact Returns.raise _
    | some members =>
        exact returns_stageMembers call 0 members ⟨fun _ => rfl, fun _ => ⟨rfl, rfl⟩⟩
  intro files st hReturned
  exact hAll (callOf yaml faults components files) files st hReturned

/-! ### When it gets through -/

/-- The sanitized text can be written. -/
def Writable (faults : Faults) (i : Nat) : Prop :=
  ¬ (faults (.stageConfig i)).Fails ∧ ¬ (faults (.chmodConfig i)).Fails

instance (faults : Faults) (i : Nat) : Decidable (Writable faults i) :=
  inferInstanceAs (Decidable (_ ∧ _))

/-- Some text can be written for the configuration of the archive. -/
def ConfigStages (call : Call) (i : Nat) (rawBytes : Content) : Prop :=
  (loadMapping call.yaml rawBytes ≠ none ∧ Writable call.faults i) ∨
    ¬ (call.faults (.stageRawConfig i)).Fails

/-- A member that is a file can be read, and its bytes meet `P`. -/
def BytesStage (member : Member) (P : Content → Prop) : Prop :=
  match member.content with
  | .notAFile => True
  | .unreadable => False
  | .bytes content => P content

/-- A member that is wanted can be read and written. -/
def MemberStages (call : Call) (i : Nat) (member : Member) : Prop :=
  if member.name = "data.sqlite" then
    wants call.components "data" = true →
      BytesStage member fun _ => ¬ (call.faults (.stageDb i)).Fails
  else if member.name = "config/config.yaml" then
    wants call.components "config" = true → BytesStage member (ConfigStages call i)
  else if member.name = "config/web-password.hash" then
    wants call.components "password" = true → call.existingPwHash = false →
      call.existingPwPlain = true → BytesStage member fun _ => ¬ (call.faults (.stageHash i)).Fails
  else if member.name = "config/web-password" then
    wants call.components "password" = true → call.existingPwPlain = false →
      call.existingPwHash = true → BytesStage member fun _ => ¬ (call.faults (.stagePlain i)).Fails
  else True

/-- And so can all members from the `i`-th on. -/
def MembersStage (call : Call) : Nat → List Member → Prop
  | _, [] => True
  | i, member :: rest => MemberStages call i member ∧ MembersStage call (i + 1) rest

/-- The directories can be made. -/
def DirsMade (faults : Faults) : Prop :=
  ¬ (faults (.mkdir 0)).Fails ∧ ¬ (faults (.mkdir 1)).Fails ∧ ¬ (faults (.mkdir 2)).Fails

/-! ### What it leaves -/

/-- The bytes of a member of this name, with its place. -/
def fileNamed (name : String) (i : Nat) (member : Member) : Option (Nat × Content) :=
  if member.name = name then
    match member.content with
    | .bytes content => some (i, content)
    | _ => none
  else none

/-- The last file of this name, from the `i`-th member on. -/
def lastFile (name : String) : Nat → List Member → Option (Nat × Content)
  | _, [] => none
  | i, member :: rest => (lastFile name (i + 1) rest).or (fileNamed name i member)

/-- The fields of a configuration that was read, with the cloud block that is kept. -/
def stagedFields (preservedCloud : Option Json) (raw : Fields) : Fields :=
  match preservedCloud with
  | some cloud => PyDict.setEntry "cloud" cloud (sanitizeRestoredConfig raw).fields
  | none => (sanitizeRestoredConfig raw).fields

/-- The text that is staged for the configuration of the archive. -/
def configText (call : Call) (i : Nat) (rawBytes : Content) : Content :=
  match loadMapping call.yaml rawBytes with
  | none => rawBytes
  | some raw =>
      if Writable call.faults i then call.yaml.safeDump (stagedFields call.preservedCloud raw)
      else rawBytes

/-- The staged database, if it is wanted and found. -/
def dbFrom (call : Call) (found : Option (Nat × Content)) : Option Content :=
  if wants call.components "data" then found.map Prod.snd else none

/-- The staged configuration, if it is wanted and found. -/
def configFrom (call : Call) (found : Option (Nat × Content)) : Option Content :=
  if wants call.components "config" then found.map fun file => configText call file.1 file.2
  else none

/-- The configuration that was staged so far. -/
def Staged.config (st : Staged) (files : Files File Content) : Option Content :=
  if st.haveCfg then files .configRestoring else none

/-- The staged database and configuration are those found, or else those before. -/
structure Leaves (call : Call) (db config : Option (Nat × Content)) (st : Staged)
    (files : Files File Content) (st' : Staged) (files' : Files File Content) : Prop where
  db : files' .dbRestoring = (dbFrom call db).or (files .dbRestoring)
  config : st'.config files' = (configFrom call config).or (st.config files)

section Leaves

variable {call : Call} {db config db' config' : Option (Nat × Content)} {st st' st'' : Staged}
  {files files' files'' : Files File Content}

theorem dbFrom_or : dbFrom call (db'.or db) = (dbFrom call db').or (dbFrom call db) := by
  unfold dbFrom
  cases wants call.components "data" with
  | false => rfl
  | true => cases db' <;> rfl

theorem configFrom_or :
    configFrom call (config'.or config) = (configFrom call config').or (configFrom call config) := by
  unfold configFrom
  cases wants call.components "config" with
  | false => rfl
  | true => cases config' <;> rfl

theorem Leaves.trans (h : Leaves call db config st files st' files')
    (h' : Leaves call db' config' st' files' st'' files'') :
    Leaves call (db'.or db) (config'.or config) st files st'' files'' := by
  constructor
  · rw [h'.db, h.db, dbFrom_or, Option.or_assoc]
  · rw [h'.config, h.config, configFrom_or, Option.or_assoc]

/-- Neither was found, and neither changes. -/
theorem Leaves.same (hDb : dbFrom call db = none) (hConfig : configFrom call config = none)
    (hDbSame : files' .dbRestoring = files .dbRestoring)
    (hConfigSame : st'.config files' = st.config files) :
    Leaves call db config st files st' files' := by
  constructor
  · rw [hDb, hDbSame, Option.none_or]
  · rw [hConfig, hConfigSame, Option.none_or]

end Leaves

theorem writeThen_through (fault : Fault Content) (file : File) (content : Content) (st : Staged)
    (files : Files File Content) :
    GetsThrough (do write fault file content; return st : RestoreM Staged) files (¬ fault.Fails)
      fun st' files' => st' = st ∧ files' = Function.update files file (some content) := by
  refine ((GetsThrough.write fault file content files).bind fun _ files' hFiles' =>
    GetsThrough.pure (P := fun st' after => st' = st ∧
      after = Function.update files file (some content)) ⟨rfl, hFiles'⟩).mono ?_ ?_
  · rw [and_true]
  · exact fun _ _ _ hPost => hPost

theorem stageConfig_through (call : Call) (i : Nat) (rawBytes : Content) (st : Staged)
    (files : Files File Content) :
    GetsThrough (stageConfig call i rawBytes st) files (ConfigStages call i rawBytes)
      fun st' files' =>
        st'.haveCfg = true ∧ files' .configRestoring = some (configText call i rawBytes) := by
  have hRaw : ∀ st' : Staged, st'.haveCfg = true → ∀ mid, GetsThrough
      (do write (call.faults (.stageRawConfig i)) .configRestoring rawBytes; return st' :
        RestoreM Staged) mid (¬ (call.faults (.stageRawConfig i)).Fails)
      fun st'' files' => st''.haveCfg = true ∧ files' .configRestoring = some rawBytes := by
    intro st' hHave mid
    refine (writeThen_through _ _ _ st' mid).mono Iff.rfl ?_
    rintro _ _ _ ⟨rfl, rfl⟩
    exact ⟨hHave, Function.update_self ..⟩
  unfold stageConfig
  cases hLoad : loadMapping call.yaml rawBytes with
  | none =>
      refine (hRaw { st with haveCfg := true } rfl files).mono ?_ ?_
      · simp [ConfigStages, hLoad]
      · simpa only [configText, hLoad] using fun _ _ _ hPost => hPost
  | some raw =>
      have hSanitized : ∀ st' : Staged, st'.haveCfg = true → GetsThrough
          (do
            write (call.faults (.stageConfig i)) .configRestoring
              (call.yaml.safeDump (stagedFields call.preservedCloud raw))
            attempt (call.faults (.chmodConfig i))
            return st' : RestoreM Staged) files (Writable call.faults i)
          fun st'' files' => st''.haveCfg = true ∧ files' .configRestoring =
            some (call.yaml.safeDump (stagedFields call.preservedCloud raw)) := by
        intro st' hHave
        refine ((GetsThrough.write _ _ _ files).bind fun _ mid hMid =>
          (GetsThrough.attempt _ mid).bind fun _ files' hFiles' =>
            GetsThrough.pure ⟨hHave, by rw [hFiles', hMid, Function.update_self]⟩).mono ?_
          fun _ _ _ hPost => hPost
        simp [Writable]
      refine ((hSanitized _ rfl).orElse fun mid => hRaw _ rfl mid).mono ?_ ?_
      · simp [ConfigStages, hLoad]
      · intro st' files' _ hPost
        rcases hPost with ⟨hFits, hHave, hText⟩ | ⟨hFits, hHave, hText⟩
        · simpa [configText, hLoad, hFits] using ⟨hHave, hText⟩
        · simpa [configText, hLoad, hFits] using ⟨hHave, hText⟩

theorem withBytes_through {member : Member} {st : Staged} {k : Content → RestoreM Staged}
    {files : Files File Content} {P : Content → Prop} {Q : Staged → Files File Content → Prop}
    (hNone : member.content = .notAFile → Q st files)
    (hBytes : ∀ content, member.content = .bytes content →
      GetsThrough (k content) files (P content) Q) :
    GetsThrough (withBytes member st k) files (BytesStage member P) Q := by
  unfold withBytes BytesStage
  cases hContent : member.content with
  | notAFile => exact GetsThrough.pure (hNone hContent)
  | unreadable => exact GetsThrough.raise _
  | bytes content => exact hBytes content hContent

section Member

variable (call : Call) (i : Nat) {member : Member} (st : Staged) (files : Files File Content)

/-- What a member leaves when it changes neither the staged database nor the staged
configuration. -/
theorem leaves_of_other {st' : Staged} {files' : Files File Content}
    (hDb : dbFrom call (fileNamed "data.sqlite" i member) = none)
    (hConfig : configFrom call (fileNamed "config/config.yaml" i member) = none)
    (hHave : st'.haveCfg = st.haveCfg)
    (hSame : ∀ f, f = .dbRestoring ∨ f = .configRestoring → files' f = files f) :
    Leaves call (fileNamed "data.sqlite" i member) (fileNamed "config/config.yaml" i member)
      st files st' files' := by
  refine Leaves.same hDb hConfig (hSame _ (Or.inl rfl)) ?_
  rw [Staged.config, Staged.config, hHave, hSame _ (Or.inr rfl)]

theorem stageMember_db (hName : member.name = "data.sqlite") :
    GetsThrough (stageMember call i member st) files (MemberStages call i member)
      (Leaves call (fileNamed "data.sqlite" i member) (fileNamed "config/config.yaml" i member)
        st files) := by
  have hNoConfig : configFrom call (fileNamed "config/config.yaml" i member) = none := by
    simp [fileNamed, hName, configFrom]
  unfold stageMember MemberStages
  rw [if_pos hName, if_pos hName]
  cases hWants : wants call.components "data" with
  | false =>
      have hNoDb : dbFrom call (fileNamed "data.sqlite" i member) = none := by
        simp [dbFrom, hWants]
      exact (GetsThrough.pure (leaves_of_other call i st files hNoDb hNoConfig rfl
        fun _ _ => rfl)).mono (by simp) fun _ _ _ hPost => hPost
  | true =>
      refine (withBytes_through (P := fun _ => ¬ (call.faults (.stageDb i)).Fails) ?_ ?_).mono
        (by simp) fun _ _ _ hPost => hPost
      · intro hContent
        exact leaves_of_other call i st files (by simp [fileNamed, hContent, dbFrom]) hNoConfig
          rfl fun _ _ => rfl
      · intro content hContent
        refine (writeThen_through _ _ _ st files).mono Iff.rfl ?_
        rintro _ _ _ ⟨rfl, rfl⟩
        constructor
        · simp [fileNamed, hName, hContent, dbFrom, hWants]
        · simp [hNoConfig, Staged.config]

theorem stageMember_config (hName : member.name = "config/config.yaml") :
    GetsThrough (stageMember call i member st) files (MemberStages call i member)
      (Leaves call (fileNamed "data.sqlite" i member) (fileNamed "config/config.yaml" i member)
        st files) := by
  have hNotDb : member.name ≠ "data.sqlite" := by simp [hName]
  have hNoDb : dbFrom call (fileNamed "data.sqlite" i member) = none := by
    simp [fileNamed, hNotDb, dbFrom]
  unfold stageMember MemberStages
  rw [if_neg hNotDb, if_neg hNotDb, if_pos hName, if_pos hName]
  cases hWants : wants call.components "config" with
  | false =>
      have hNoConfig : configFrom call (fileNamed "config/config.yaml" i member) = none := by
        simp [configFrom, hWants]
      exact (GetsThrough.pure (leaves_of_other call i st files hNoDb hNoConfig rfl
        fun _ _ => rfl)).mono (by simp) fun _ _ _ hPost => hPost
  | true =>
      refine (withBytes_through (P := ConfigStages call i) ?_ ?_).mono (by simp)
        fun _ _ _ hPost => hPost
      · intro hContent
        exact leaves_of_other call i st files hNoDb (by simp [fileNamed, hContent, configFrom])
          rfl fun _ _ => rfl
      · intro content hContent
        have hFrame := (stageConfig_through call i content st files).frame
          (touches_stageConfig call (S := fun f => f = .configRestoring) rfl i content st)
          (f := .dbRestoring) (by decide)
        refine hFrame.mono Iff.rfl ?_
        rintro st' files' _ ⟨⟨hHave, hText⟩, hSame⟩
        constructor
        · simp [hNoDb, hSame]
        · simp [fileNamed, hName, hContent, configFrom, hWants, Staged.config, hHave, hText]

/-- The password files, and what the restore does not know. -/
theorem stageMember_other (hNotDb : member.name ≠ "data.sqlite")
    (hNotConfig : member.name ≠ "config/config.yaml") :
    GetsThrough (stageMember call i member st) files (MemberStages call i member)
      (Leaves call (fileNamed "data.sqlite" i member) (fileNamed "config/config.yaml" i member)
        st files) := by
  have hLeaves : ∀ (st' : Staged) (files' : Files File Content), st'.haveCfg = st.haveCfg →
      (∀ f, f = .dbRestoring ∨ f = .configRestoring → files' f = files f) →
        Leaves call (fileNamed "data.sqlite" i member) (fileNamed "config/config.yaml" i member)
          st files st' files' :=
    fun _ _ hHave hSame => leaves_of_other call i st files (by simp [fileNamed, hNotDb, dbFrom])
      (by simp [fileNamed, hNotConfig, configFrom]) hHave hSame
  have hSkipped : ∀ (G : Prop) (st' : Staged), G → st'.haveCfg = st.haveCfg →
      GetsThrough (Pure.pure st' : RestoreM Staged) files G (Leaves call
        (fileNamed "data.sqlite" i member) (fileNamed "config/config.yaml" i member) st files) :=
    fun G st' hG hHave => (GetsThrough.pure (hLeaves st' files hHave fun _ _ => rfl)).mono
      (iff_true_intro hG) fun _ _ _ hPost => hPost
  have hWritten : ∀ (fault : Fault Content) (file : File) (st' : Staged),
      file ≠ .dbRestoring ∧ file ≠ .configRestoring → st'.haveCfg = st.haveCfg →
        GetsThrough (withBytes member st fun content => do write fault file content; return st')
          files (BytesStage member fun _ => ¬ fault.Fails) (Leaves call
            (fileNamed "data.sqlite" i member) (fileNamed "config/config.yaml" i member) st files)
      := by
    intro fault file st' hFile hHave
    refine withBytes_through (fun _ => hLeaves st files rfl fun _ _ => rfl) fun content _ => ?_
    refine (writeThen_through fault file content st' files).mono Iff.rfl ?_
    rintro _ _ _ ⟨rfl, rfl⟩
    refine hLeaves _ _ hHave ?_
    rintro _ (rfl | rfl)
    · exact Function.update_of_ne hFile.1.symm _ _
    · exact Function.update_of_ne hFile.2.symm _ _
  unfold stageMember MemberStages
  rw [if_neg hNotDb, if_neg hNotDb, if_neg hNotConfig, if_neg hNotConfig]
  split_ifs with _ hUnwanted hKept hFresh _ hUnwanted hKept hFresh
  · exact hSkipped _ _ (by simp [hUnwanted]) rfl
  · exact hSkipped _ _ (by simp [hKept]) rfl
  · exact hSkipped _ _ (by simp [hFresh]) rfl
  · exact (hWritten (call.faults (.stageHash i)) .pwHashRestoring { st with havePwHash := true }
      (by decide) rfl).mono (by simp [hUnwanted, hKept, hFresh]) fun _ _ _ hPost => hPost
  · exact hSkipped _ _ (by simp [hUnwanted]) rfl
  · exact hSkipped _ _ (by simp [hKept]) rfl
  · exact hSkipped _ _ (by simp [hFresh]) rfl
  · exact (hWritten (call.faults (.stagePlain i)) .pwPlainRestoring
      { st with havePwPlain := true } (by decide) rfl).mono
        (by simp [hUnwanted, hKept, hFresh]) fun _ _ _ hPost => hPost
  · exact hSkipped _ _ True.intro rfl

end Member

theorem stageMembers_through (call : Call) (i : Nat) (members : List Member) (st : Staged)
    (files : Files File Content) :
    GetsThrough (stageMembers call i members st) files (MembersStage call i members)
      (Leaves call (lastFile "data.sqlite" i members) (lastFile "config/config.yaml" i members)
        st files) := by
  induction members generalizing i st files with
  | nil => exact GetsThrough.pure (Leaves.same (by simp [lastFile, dbFrom])
      (by simp [lastFile, configFrom]) rfl rfl)
  | cons member rest ih =>
      have hMember : GetsThrough (stageMember call i member st) files (MemberStages call i member)
          (Leaves call (fileNamed "data.sqlite" i member)
            (fileNamed "config/config.yaml" i member) st files) := by
        by_cases hDb : member.name = "data.sqlite"
        · exact stageMember_db call i st files hDb
        · by_cases hConfig : member.name = "config/config.yaml"
          · exact stageMember_config call i st files hConfig
          · exact stageMember_other call i st files hDb hConfig
      exact hMember.bind fun st' mid hFirst =>
        (ih (i + 1) st' mid).mono Iff.rfl fun st'' files' _ hRest => hFirst.trans hRest

/-- Staging gets through: the directories can be made, the archive can be opened, and
every member that is wanted can be read and written. -/
def Stages (call : Call) (archive : Option (List Member)) : Prop :=
  DirsMade call.faults ∧ ∃ members, archive = some members ∧ MembersStage call 0 members

theorem mkdirs_through {call : Call} {rest : RestoreM Staged} {files : Files File Content}
    {G : Prop} {P : Staged → Files File Content → Prop} (h : GetsThrough rest files G P) :
    GetsThrough
      (do
        attempt (call.faults (.mkdir 0))
        attempt (call.faults (.mkdir 1))
        attempt (call.faults (.mkdir 2))
        rest) files (DirsMade call.faults ∧ G) P := by
  exact ((GetsThrough.attempt _ files).bind fun _ _ hFirst =>
    (GetsThrough.attempt _ _).bind fun _ _ hSecond =>
      (GetsThrough.attempt _ _).bind fun _ mid hThird => by
        rwa [hThird, hSecond, hFirst]).mono
    (by simp [DirsMade, and_assoc]) fun _ _ _ hPost => hPost

/-- Then the database and the configuration stand beside the live ones. -/
theorem prepare_through (yaml : Yaml) (faults : Faults) (components : Option (List String))
    (archive : Option (List Member)) (files : Files File Content) :
    GetsThrough (prepare yaml faults components archive) files
      (Stages (callOf yaml faults components files) archive) fun st files' =>
        ∀ members, archive = some members →
          files' .dbRestoring = (dbFrom (callOf yaml faults components files)
            (lastFile "data.sqlite" 0 members)).or (files .dbRestoring) ∧
          st.config files' = configFrom (callOf yaml faults components files)
            (lastFile "config/config.yaml" 0 members) := by
  show GetsThrough (stageAll (callOf yaml faults components files) archive) files _ _
  generalize callOf yaml faults components files = call
  unfold stageAll
  refine (mkdirs_through ?_).mono Iff.rfl fun _ _ _ hPost => hPost
  cases archive with
  | none =>
      exact (GetsThrough.raise (P := fun _ _ => True) "ReadError").mono (by simp)
        fun _ _ hFalse => hFalse.elim
  | some members =>
      refine (stageMembers_through call 0 members _ files).mono (by simp) ?_
      rintro st files' _ hLeaves _ ⟨⟩
      exact ⟨hLeaves.db, hLeaves.config.trans (Option.or_none ..)⟩

end WattPost.Backup
