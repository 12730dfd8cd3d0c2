import WattPost.Lib.LocalTime
import WattPost.Lib.Retention

/-! The local snapshots: calls of `snapshot_now` that overlap at their awaits, write into one
directory and prune it. -/
namespace WattPost.Backup.Snapshots

open PyText LocalTime

section Directory

/-- What stands in the directory. Beside what the file system knows of it, it remembers which
call's whole archive it holds, and how many writes there were before the last one to it. -/
structure Entry where
  name : String
  isFile : Bool
  inode : Nat
  mtime : ℚ
  writer : Option Nat
  order : Nat
deriving DecidableEq

def autoPrefix : String := "wattpost-auto-"

def autoSuffix : String := ".tar.gz"

def isAutoName (name : String) : Bool := startsWith name autoPrefix && endsWith name autoSuffix

def isAutoSnapshot (e : Entry) : Bool := e.isFile && isAutoName e.name

/-- `list_auto_snapshots`, on the entries as the file system lists them. -/
def listAutoSnapshots (listing : List Entry) : List Entry :=
  (listing.filter isAutoSnapshot).insertionSort fun a b => a.mtime ≤ b.mtime

/-- `time.strftime("%Y-%m-%d-%H%M%S", time.localtime())` -/
def stamp (t : WallTime) : List Char :=
  fourDigits t.year ++ '-' :: twoDigits t.month ++ '-' :: twoDigits t.day ++ '-' ::
    twoDigits t.hour ++ twoDigits t.minute ++ twoDigits t.second

def autoName (t : WallTime) : String := autoPrefix ++ String.ofList (stamp t) ++ autoSuffix

theorem isAutoName_autoName (t : WallTime) : isAutoName (autoName t) = true := by
  rw [isAutoName, Bool.and_eq_true]
  constructor
  · rw [autoName, String.append_assoc]
    exact startsWith_append _ _
  · rw [endsWith, autoName, String.toList_append, List.isSuffixOf_iff_suffix]
    exact List.suffix_append _ _

end Directory

section Service

/-- How far a call is. -/
inductive Phase where
  | building
  | writing (path : String)
  | opened (path : String) (inode : Nat)
  | written (path : String)
  | uploading (path : String)
  | returned (path : String)
  | raised
deriving DecidableEq

/-- The path of a call, from the moment that it has one. -/
def Phase.path : Phase → Option String
  | building => none
  | writing path => some path
  | opened path _ => some path
  | written path => some path
  | uploading path => some path
  | returned path => some path
  | raised => none

/-- The path whose file is there and has not been returned. -/
def Phase.underWay : Phase → Option String
  | opened path _ => some path
  | written path => some path
  | uploading path => some path
  | _ => none

structure Cfg where
  keepCount : Nat
  cloudUpload : Bool

/-- The directory and the calls. The rest is history: the orders of the snapshots that were
pruned, how many the last pruning left, and how many were begun since. -/
structure State where
  dir : List Entry
  calls : Nat → Option Phase
  nextInode : Nat
  nextOrder : Nat
  gone : List Nat
  left : Nat
  begun : Nat

def State.autos (s : State) : List Entry := s.dir.filter isAutoSnapshot

def State.setCall (s : State) (c : Nat) (phase : Phase) : State :=
  { s with calls := Function.update s.calls c (some phase) }

/-- What a call, its thread or its uploader does next, with the clocks that it reads. -/
inductive Event where
  | call (c : Nat)
  | built (c : Nat) (t : WallTime)
  | create (c : Nat) (now : ℚ)
  | write (c : Nat) (now : ℚ)
  | settle (c : Nat) (listing : List Entry) (stuck : List String)
  | uploaded (c : Nat)
  | raise (c : Nat)

/-- The entry after a write to an inode. -/
def Entry.touch (inode : Nat) (now : ℚ) (writer : Option Nat) (order : Nat) (e : Entry) : Entry :=
  if e.inode = inode then { e with mtime := now, writer := writer, order := order } else e

section Touch

variable (inode : Nat) (now : ℚ) (writer : Option Nat) (order : Nat) (e : Entry)

@[simp] theorem Entry.touch_name : (e.touch inode now writer order).name = e.name := by
  unfold touch
  split_ifs <;> rfl

@[simp] theorem Entry.touch_inode : (e.touch inode now writer order).inode = e.inode := by
  unfold touch
  split_ifs <;> rfl

@[simp] theorem isAutoSnapshot_touch :
    isAutoSnapshot (e.touch inode now writer order) = isAutoSnapshot e := by
  unfold Entry.touch
  split_ifs <;> rfl

end Touch

/-- `write_bytes` opens its file: a new one, or one that it empties. -/
def openFile (c : Nat) (now : ℚ) (path : String) (s : State) : State :=
  match s.dir.find? fun e => e.name = path with
  | none =>
      { s.setCall c (.opened path s.nextInode) with
        dir := s.dir ++ [⟨path, true, s.nextInode, now, none, s.nextOrder⟩]
        nextInode := s.nextInode + 1
        nextOrder := s.nextOrder + 1
        begun := s.begun + 1 }
  | some found =>
      if !found.isFile then s.setCall c .raised
      else
        { s.setCall c (.opened path found.inode) with
          dir := s.dir.map (Entry.touch found.inode now none s.nextOrder)
          nextOrder := s.nextOrder + 1 }

/-- `write_bytes` writes what it opened, which may have been unlinked since. -/
def writeFile (c : Nat) (now : ℚ) (path : String) (inode : Nat) (s : State) : State :=
  { s.setCall c (.written path) with
    dir := s.dir.map (Entry.touch inode now (some c) s.nextOrder)
    nextOrder := s.nextOrder + 1 }

/-- `_prune`; to unlink a name of `stuck` fails. -/
def prune (cfg : Cfg) (listing : List Entry) (stuck : List String) (s : State) : State :=
  let snaps := listAutoSnapshots listing
  let removed := (Retention.stale cfg.keepCount snaps).filter fun e => e.name ∉ stuck
  let dir := s.dir.filter fun e => e.name ∉ removed.map Entry.name
  { s with
    dir := dir
    gone := s.gone ++ removed.map Entry.order
    left := (dir.filter isAutoSnapshot).length
    begun := 0 }

/-- What comes at the end of `snapshot_now`, up to the upload if there is one. -/
def finish (cfg : Cfg) (c : Nat) (path : String) (listing : List Entry) (stuck : List String)
    (s : State) : State :=
  (prune cfg listing stuck s).setCall c
    (if cfg.cloudUpload then .uploading path else .returned path)

def step (cfg : Cfg) (s : State) : Event → State
  | .call c => if s.calls c = none then s.setCall c .building else s
  | .built c t =>
      match s.calls c with
      | some .building => s.setCall c (.writing (autoName t))
      | _ => s
  | .create c now =>
      match s.calls c with
      | some (.writing path) => openFile c now path s
      | _ => s
  | .write c now =>
      match s.calls c with
      | some (.opened path inode) => writeFile c now path inode s
      | _ => s
  | .settle c listing stuck =>
      match s.calls c with
      | some (.written path) =>
          if listing.Perm s.dir then finish cfg c path listing stuck s else s
      | _ => s
  | .uploaded c =>
      match s.calls c with
      | some (.uploading path) => s.setCall c (.returned path)
      | _ => s
  | .raise c =>
      match s.calls c with
      | some .building => s.setCall c .raised
      | some (.writing _) => s.setCall c .raised
      | some (.opened _ _) => s.setCall c .raised
      | _ => s

/-- The directory before the first call, in the order in which its files were written. -/
structure Existing where
  files : List (String × Bool × ℚ)
  nodup : (files.map Prod.fst).Nodup

def Existing.entries (existing : Existing) : List Entry :=
  existing.files.zipIdx.map fun (file, i) => ⟨file.1, file.2.1, i, file.2.2, none, i⟩

def start (existing : Existing) : State where
  dir := existing.entries
  calls _ := none
  nextInode := existing.files.length
  nextOrder := existing.files.length
  gone := []
  left := (existing.entries.filter isAutoSnapshot).length
  begun := 0

end Service

section Contract

/-- The archive of a call is where its path says. -/
def OnDisk (s : State) (c : Nat) (path : String) : Prop :=
  ∃ e ∈ s.dir, e.name = path ∧ e.writer = some c

/-- The snapshots that are left are the last `keepCount` ones: there are no more, all that were
pruned are older, and none was pruned for which there was room. -/
structure KeepsNewest (cfg : Cfg) (s : State) : Prop where
  atMost : s.autos.length ≤ cfg.keepCount
  newest : ∀ g ∈ s.gone, ∀ e ∈ s.autos, g < e.order
  full : s.gone ≠ [] → cfg.keepCount ≤ s.autos.length

/-- What whoever asks for a snapshot relies on, for a step and the state that it leads to. -/
structure SnapshotsSurvive (cfg : Cfg) (s s' : State) : Prop where
  uploads : ∀ c path, s'.calls c = some (.uploading path) → OnDisk s' c path
  returns : ∀ c path, s.calls c ≠ some (.returned path) → s'.calls c = some (.returned path) →
    OnDisk s' c path ∧ KeepsNewest cfg s'
  distinct : ∀ c d path path', c ≠ d → s'.calls c = some (.returned path) →
    s'.calls d = some (.returned path') → path ≠ path'
  own : ∀ c path, s'.calls c = some (.returned path) →
    ∀ e ∈ s'.dir, e.name = path → e.writer = some c

/-- The snapshot is one of the last `keepCount` ones. -/
def Recent (cfg : Cfg) (s : State) (e : Entry) : Prop :=
  Retention.Recent Entry.order cfg.keepCount s.autos e

/-- Where a call is going to prune: file times tell the last snapshots from the others, no call
under way has been overtaken by that many, and what is pruned can be unlinked. -/
structure FitToPrune (cfg : Cfg) (s : State) (stuck : List String) : Prop where
  times : ∀ x ∈ s.autos, ∀ y ∈ s.autos, Recent cfg s x → ¬ Recent cfg s y → y.mtime < x.mtime
  notOvertaken : ∀ d path, (s.calls d).bind Phase.underWay = some path →
    ∀ e ∈ s.autos, e.name = path → Recent cfg s e
  unlinks : ∀ e ∈ s.autos, ¬ Recent cfg s e → e.name ∉ stuck

/-- The second is not taken, by a file or by another call. -/
def Unused (s : State) (name : String) : Prop :=
  (∀ e ∈ s.dir, e.name ≠ name) ∧ ∀ d, (s.calls d).bind Phase.path ≠ some name

def Orderly (cfg : Cfg) (s : State) : Event → Prop
  | .built _ t => Unused s (autoName t)
  | .settle _ _ stuck => FitToPrune cfg s stuck
  | .uploaded _ => s.left + s.begun ≤ cfg.keepCount
  | _ => True

end Contract

end WattPost.Backup.Snapshots
