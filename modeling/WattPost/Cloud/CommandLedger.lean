import WattPost.Lib.Newest
import WattPost.Lib.Process
import Mathlib.Logic.Relation

/-! The ledger of commands that ran to a terminal state. It lives in memory and
in a file that is replaced by renames, with the previous file as a backup. The
process may stop before or after each file operation; what a restart reads then
still refuses every id whose `record` returned. -/
namespace WattPost.Cloud

open Newest Process

section Ledger

/-- The files of a ledger: `path`, `path + ".bak"` and `path + ".tmp"`. -/
inductive LedgerFile where
  | main
  | bak
  | tmp
deriving DecidableEq

/-- What is in each file: a list whose members `int` reads, or nothing that is
one (no file, no JSON, no list, a member that is no number). -/
abbrev LedgerDisk := LedgerFile → Option (List Int)

/-- What `_load` makes of the contents of a file. -/
def loadIds (contents : Option (List Int)) : Option (List Int) := contents.map sortedSet

/-- `seen`. -/
def ledgerSeen (cap : Nat) (ids : List Int) (cmdId : Int) : Bool := refuses cap ids cmdId

/-- The new `_ids` of `record`. -/
def ledgerAdd (cap : Nat) (ids : List Int) (cmdId : Int) : List Int := add cap ids cmdId

/-- What `record` makes of `_ids`. -/
def recordIds (cap : Nat) (ids : List Int) (cmdId : Int) : List Int :=
  if cmdId ∈ ids then ids else ledgerAdd cap ids cmdId

/-- What `record` and the constructor do to the object and to its files. -/
inductive LedgerOp where
  | getIds
  | setIds (ids : List Int)
  | load (file : LedgerFile)
  | dump (file : LedgerFile) (ids : List Int)
  | replace (src dst : LedgerFile)

def LedgerOp.Answer : LedgerOp → Type
  | .getIds => List Int
  | .load _ => Option (List Int)
  | _ => Unit

abbrev LedgerProc := Proc LedgerOp LedgerOp.Answer

def getIds : LedgerProc (List Int) := Proc.perform LedgerOp.getIds

def setIds (ids : List Int) : LedgerProc Unit := Proc.perform (LedgerOp.setIds ids)

/-- `_load`: the ids of one file, or nothing if it is missing or corrupt. -/
def loadFile (file : LedgerFile) : LedgerProc (Option (List Int)) := do
  let contents ← (Proc.perform (LedgerOp.load file) : LedgerProc (Option (List Int)))
  return loadIds contents

def dump (file : LedgerFile) (ids : List Int) : LedgerProc Unit :=
  Proc.perform (LedgerOp.dump file ids)

def replace (src dst : LedgerFile) : LedgerProc Unit := Proc.perform (LedgerOp.replace src dst)

/-- `_read`: the main file, or else the backup, or else nothing. -/
def read (cap : Nat) : LedgerProc (List Int) := do
  match ← loadFile .main with
  | some ids => return lastN cap ids
  | none => return lastN cap ((← loadFile .bak).getD [])

/-- `__init__`. -/
def openLedger (cap : Nat) : LedgerProc Unit := do
  setIds (← read cap)

/-- `record`. The previous ledger becomes the backup only if it can be read. -/
def record (cap : Nat) (cmdId : Int) : LedgerProc Unit := do
  let ids ← getIds
  if cmdId ∈ ids then
    return ()
  else
    setIds (ledgerAdd cap ids cmdId)
    dump .tmp (ledgerAdd cap ids cmdId)
    if (← loadFile .main).isSome then
      replace .main .bak
    replace .tmp .main

/-- The object's ids and the files. -/
structure LedgerWorld where
  ids : List Int
  disk : LedgerDisk

namespace LedgerWorld

/-- The answer to an operation; it always succeeds. -/
def answer (w : LedgerWorld) : (op : LedgerOp) → op.Answer
  | .getIds => w.ids
  | .load file => w.disk file
  | .setIds _ => ()
  | .dump _ _ => ()
  | .replace _ _ => ()

def after (w : LedgerWorld) : LedgerOp → LedgerWorld
  | .setIds ids => { w with ids := ids }
  | .dump file ids => { w with disk := Function.update w.disk file (some ids) }
  | .replace src dst =>
      { w with disk := Function.update (Function.update w.disk dst (w.disk src)) src none }
  | _ => w

/-- What a restart would read. -/
def stored (cap : Nat) (w : LedgerWorld) : List Int :=
  lastN cap (((loadIds (w.disk .main)).or (loadIds (w.disk .bak))).getD [])

end LedgerWorld

def ledgerHandler : Handler LedgerOp LedgerOp.Answer LedgerWorld :=
  fun op w a w' => a = w.answer op ∧ w' = w.after op

/-- The ledger of a process that may be down, and the ids whose `record`
returned, in this process or in an earlier one. -/
structure LedgerState where
  world : LedgerWorld
  up : Bool
  returned : List Int

/-- What can happen to a ledger. A call that is stopped leaves the process down;
so does a constructor. -/
inductive LedgerStep (cap : Nat) : LedgerState → LedgerState → Prop where
  | recorded {s : LedgerState} {w : LedgerWorld} (cmdId : Int) (hUp : s.up = true)
      (hExec : Exec ledgerHandler (record cap cmdId) s.world w (some ())) :
      LedgerStep cap s { world := w, up := true, returned := cmdId :: s.returned }
  | crashed {s : LedgerState} {w : LedgerWorld} (cmdId : Int) (hUp : s.up = true)
      (hExec : Exec ledgerHandler (record cap cmdId) s.world w none) :
      LedgerStep cap s { s with world := w, up := false }
  | restarted {s : LedgerState} {w : LedgerWorld}
      (hExec : Exec ledgerHandler (openLedger cap) s.world w (some ())) :
      LedgerStep cap s { s with world := w, up := true }
  | restartCrashed {s : LedgerState} {w : LedgerWorld}
      (hExec : Exec ledgerHandler (openLedger cap) s.world w none) :
      LedgerStep cap s { s with world := w, up := false }

/-- Every history of a ledger: it begins with no process and whatever the files
hold. -/
def LedgerReachable (cap : Nat) (s : LedgerState) : Prop :=
  ∃ disk, Relation.ReflTransGen (LedgerStep cap)
    { world := { ids := [], disk := disk }, up := false, returned := [] } s

end Ledger

section Ids

variable {cap : Nat}

/-- Ids as the object keeps them. -/
structure IdsOk (cap : Nat) (ids : List Int) : Prop where
  sorted : ids.Pairwise (· < ·)
  bounded : ids.length ≤ cap

theorem loadIds_sorted {contents : Option (List Int)} {ids : List Int}
    (h : loadIds contents = some ids) : ids.Pairwise (· < ·) := by
  obtain ⟨raw, _, rfl⟩ := Option.map_eq_some_iff.mp h
  exact sortedSet_sorted raw

theorem stored_ok (hCap : 0 < cap) (w : LedgerWorld) : IdsOk cap (w.stored cap) := by
  refine ⟨lastN_sorted cap ?_, length_lastN_le hCap _⟩
  cases hMain : loadIds (w.disk .main) with
  | some ids => simpa using loadIds_sorted hMain
  | none =>
      cases hBak : loadIds (w.disk .bak) with
      | some ids => simpa using loadIds_sorted hBak
      | none => simp

theorem ledgerAdd_ok (hCap : 0 < cap) (ids : List Int) (cmdId : Int) :
    IdsOk cap (ledgerAdd cap ids cmdId) :=
  ⟨add_sorted cap ids cmdId, length_add_le hCap ids cmdId⟩

/-- Ids that were written come back as they were. -/
theorem stored_of_main {w : LedgerWorld} {ids : List Int} (h : IdsOk cap ids)
    (hMain : w.disk .main = some ids) : w.stored cap = ids := by
  have hLoad : loadIds (some ids) = some ids := congrArg some (sortedSet_of_sorted h.sorted)
  rw [LedgerWorld.stored, hMain, hLoad, Option.some_or, Option.getD_some,
    lastN_of_length_le h.bounded]

end Ids

section Invariant

variable {cap : Nat} {returned : List Int}

/-- Both the object and a restart refuse what was recorded. -/
structure Remembers (cap : Nat) (returned : List Int) (w : LedgerWorld) : Prop where
  ids : IdsOk cap w.ids
  memory : ∀ r ∈ returned, ledgerSeen cap w.ids r = true
  disk : ∀ r ∈ returned, ledgerSeen cap (w.stored cap) r = true

/-- Between two calls the object holds what a restart would read. -/
def AtRest (cap : Nat) (returned : List Int) (w : LedgerWorld) : Prop :=
  Remembers cap returned w ∧ w.ids = w.stored cap

theorem Remembers.of_stored {w v : LedgerWorld} (h : Remembers cap returned w)
    (hIds : v.ids = w.ids) (hStored : v.stored cap = w.stored cap) :
    Remembers cap returned v := by
  refine ⟨?_, ?_, ?_⟩
  · rw [hIds]
    exact h.ids
  · rw [hIds]
    exact h.memory
  · rw [hStored]
    exact h.disk

/-- Writing the temporary file changes nothing that a restart reads. -/
theorem stored_dump_tmp (w : LedgerWorld) (ids : List Int) :
    (w.after (.dump .tmp ids)).stored cap = w.stored cap := rfl

/-- Neither does moving a ledger that can be read to the backup. -/
theorem stored_backup {w : LedgerWorld} {ids : List Int}
    (hMain : loadIds (w.disk .main) = some ids) :
    (w.after (.replace .main .bak)).stored cap = w.stored cap := by
  have hNone : loadIds ((w.after (.replace .main .bak)).disk .main) = none := rfl
  have hBak : (w.after (.replace .main .bak)).disk .bak = w.disk .main := rfl
  rw [LedgerWorld.stored, LedgerWorld.stored, hNone, hBak, hMain]
  rfl

/-- The renamed temporary file is what a restart reads. -/
theorem stored_commit {w : LedgerWorld} {ids : List Int} (h : IdsOk cap ids)
    (hTmp : w.disk .tmp = some ids) : (w.after (.replace .tmp .main)).stored cap = ids := by
  apply stored_of_main h
  rw [← hTmp]
  rfl

end Invariant

section Calls

variable {cap : Nat} {returned : List Int} {α : Type} {I : LedgerWorld → Prop} {w : LedgerWorld}

/-- One operation and then the rest. -/
theorem safe_op {e : LedgerOp} {f : e.Answer → LedgerProc α} {Q : α → LedgerWorld → Prop}
    (hI : I w) (hf : Safe ledgerHandler I (f (w.answer e)) (w.after e) Q) :
    Safe ledgerHandler I (Proc.perform e >>= f) w Q := by
  apply Safe.perform hI
  rintro _ _ ⟨rfl, rfl⟩
  exact hf

theorem safe_loadFile {file : LedgerFile} {f : Option (List Int) → LedgerProc α}
    {Q : α → LedgerWorld → Prop} (hI : I w)
    (hf : Safe ledgerHandler I (f (loadIds (w.disk file))) w Q) :
    Safe ledgerHandler I (loadFile file >>= f) w Q :=
  safe_op (e := .load file) (f := fun contents => f (loadIds contents)) hI hf

/-- The rename that ends a `record`. -/
theorem commit_safe {ids : List Int} (h : Remembers cap returned w) (hIds : w.ids = ids)
    (hTmp : w.disk .tmp = some ids) :
    Safe ledgerHandler (Remembers cap returned) (replace .tmp .main) w
      (fun _ w' => AtRest cap returned w' ∧ w'.ids = ids) := by
  have hOk : IdsOk cap ids := hIds ▸ h.ids
  have hStored := stored_commit (w := w) hOk hTmp
  have hRest : AtRest cap returned (w.after (.replace .tmp .main)) := by
    refine ⟨⟨h.ids, h.memory, ?_⟩, hIds.trans hStored.symm⟩
    rw [hStored, ← hIds]
    exact h.memory
  refine ⟨h, ?_⟩
  rintro _ _ ⟨_, rfl⟩
  exact ⟨hRest.1, hRest, hIds⟩

/-- At rest, one more id that the object refuses is one that a restart refuses. -/
theorem AtRest.cons {cmdId : Int} (h : AtRest cap returned w)
    (hSeen : ledgerSeen cap w.ids cmdId = true) : AtRest cap (cmdId :: returned) w := by
  refine ⟨⟨h.1.ids, ?_, ?_⟩, h.2⟩
  · intro r hr
    rcases List.mem_cons.mp hr with rfl | hOld
    · exact hSeen
    · exact h.1.memory r hOld
  · intro r hr
    rcases List.mem_cons.mp hr with rfl | hOld
    · rw [← h.2]
      exact hSeen
    · exact h.1.disk r hOld

/-- `record` after its ids are in the temporary file: the backup, if the ledger
can be read, and the rename. -/
theorem renames_safe {ids : List Int} (h : Remembers cap returned w) (hIds : w.ids = ids)
    (hTmp : w.disk .tmp = some ids) :
    Safe ledgerHandler (Remembers cap returned)
      (do
        if (← loadFile .main).isSome then
          replace .main .bak
        replace .tmp .main) w
      (fun _ w' => AtRest cap returned w' ∧ w'.ids = ids) := by
  refine safe_loadFile h ?_
  split
  case isTrue hMain =>
    obtain ⟨previous, hLoad⟩ := Option.isSome_iff_exists.mp hMain
    have hBacked := Remembers.of_stored (v := w.after (.replace .main .bak)) h rfl
      (stored_backup hLoad)
    exact safe_op (e := .replace .main .bak) h (commit_safe hBacked hIds hTmp)
  case isFalse hMain => exact commit_safe h hIds hTmp

/-- `record` keeps what was recorded before at each of its points, and when it
returns its own id is recorded too. -/
theorem record_safe (hCap : 0 < cap) (h : AtRest cap returned w) (cmdId : Int) :
    Safe ledgerHandler (Remembers cap returned) (record cap cmdId) w
      (fun _ w' => AtRest cap (cmdId :: returned) w' ∧ w'.ids = recordIds cap w.ids cmdId) := by
  refine safe_op (e := .getIds) h.1 ?_
  change Safe _ _ (if cmdId ∈ w.ids then _ else _) w _
  split
  case isTrue hMem =>
    have hSeen := (refuses_iff hCap h.1.ids.sorted).mpr (Or.inl hMem)
    exact ⟨h.1, h.cons hSeen, (if_pos hMem).symm⟩
  case isFalse hNew =>
    have hMemory : Remembers cap returned (w.after (.setIds (ledgerAdd cap w.ids cmdId))) :=
      ⟨ledgerAdd_ok hCap w.ids cmdId,
        fun r hr => refuses_add_of_refuses hCap h.1.ids.sorted cmdId (h.1.memory r hr), h.1.disk⟩
    have hDumped := Remembers.of_stored
      (v := (w.after (.setIds (ledgerAdd cap w.ids cmdId))).after
        (.dump .tmp (ledgerAdd cap w.ids cmdId))) hMemory rfl (stored_dump_tmp _ _)
    refine safe_op (e := .setIds _) h.1 (safe_op (e := .dump .tmp _) hMemory ?_)
    refine (renames_safe hDumped rfl rfl).mono ?_
    rintro _ w' ⟨hRest, hIds⟩
    refine ⟨hRest.cons ?_, hIds.trans (if_neg hNew).symm⟩
    rw [hIds]
    exact refuses_add_of_mem hCap List.mem_cons_self

/-- The constructor changes no file. -/
theorem openLedger_safe (hCap : 0 < cap) (h : Remembers cap returned w) :
    Safe ledgerHandler (Remembers cap returned) (openLedger cap) w
      (fun _ w' => AtRest cap returned w' ∧ w'.ids = w.stored cap) := by
  have hRest : AtRest cap returned (w.after (.setIds (w.stored cap))) :=
    ⟨⟨stored_ok hCap w, h.disk, h.disk⟩, rfl⟩
  have hSet : Safe ledgerHandler (Remembers cap returned) (setIds (w.stored cap)) w
      (fun _ w' => AtRest cap returned w' ∧ w'.ids = w.stored cap) := by
    refine ⟨h, ?_⟩
    rintro _ _ ⟨_, rfl⟩
    exact ⟨hRest.1, hRest, rfl⟩
  have hRead : Safe ledgerHandler (Remembers cap returned) (read cap) w
      (fun ids w' => w' = w ∧ ids = w.stored cap) := by
    unfold read
    refine safe_loadFile h ?_
    cases hMain : loadIds (w.disk .main) with
    | some ids => exact ⟨h, rfl, by rw [LedgerWorld.stored, hMain]; rfl⟩
    | none =>
        refine safe_loadFile h ⟨h, rfl, ?_⟩
        rw [LedgerWorld.stored, hMain]
        rfl
  refine hRead.bind ?_
  rintro ids w' ⟨rfl, rfl⟩
  exact hSet

section Recorded

variable {ids : List Int} {cmdId other : Int}

theorem recordIds_ok (hCap : 0 < cap) (h : IdsOk cap ids) (cmdId : Int) :
    IdsOk cap (recordIds cap ids cmdId) := by
  unfold recordIds
  split
  · exact h
  · exact ledgerAdd_ok hCap ids cmdId

theorem ledgerSeen_recordIds_self (hCap : 0 < cap) (h : IdsOk cap ids) (cmdId : Int) :
    ledgerSeen cap (recordIds cap ids cmdId) cmdId = true := by
  unfold recordIds
  split
  case isTrue hMem => exact (refuses_iff hCap h.sorted).mpr (Or.inl hMem)
  case isFalse hNew => exact refuses_add_of_mem hCap List.mem_cons_self

theorem ledgerSeen_recordIds_of_seen (hCap : 0 < cap) (h : IdsOk cap ids)
    (hSeen : ledgerSeen cap ids other = true) :
    ledgerSeen cap (recordIds cap ids cmdId) other = true := by
  unfold recordIds
  split
  · exact hSeen
  · exact refuses_add_of_refuses hCap h.sorted cmdId hSeen

end Recorded

end Calls

section Histories

variable {cap : Nat}

/-- What holds of a ledger in every history. -/
def LedgerInv (cap : Nat) (s : LedgerState) : Prop :=
  Remembers cap s.returned s.world ∧ (s.up = true → AtRest cap s.returned s.world)

theorem ledgerInv_step (hCap : 0 < cap) {s s' : LedgerState} (h : LedgerInv cap s)
    (hStep : LedgerStep cap s s') : LedgerInv cap s' := by
  cases hStep with
  | recorded cmdId hUp hExec =>
      have hRest := (((record_safe hCap (h.2 hUp) cmdId).exec hExec).2 () rfl).1
      exact ⟨hRest.1, fun _ => hRest⟩
  | crashed cmdId hUp hExec =>
      exact ⟨((record_safe hCap (h.2 hUp) cmdId).exec hExec).1, fun hNot => by cases hNot⟩
  | restarted hExec =>
      have hRest := (((openLedger_safe hCap h.1).exec hExec).2 () rfl).1
      exact ⟨hRest.1, fun _ => hRest⟩
  | restartCrashed hExec =>
      exact ⟨((openLedger_safe hCap h.1).exec hExec).1, fun hNot => by cases hNot⟩

theorem ledgerInv_of_reachable (hCap : 0 < cap) {s : LedgerState} (h : LedgerReachable cap s) :
    LedgerInv cap s := by
  obtain ⟨disk, hRun⟩ := h
  induction hRun with
  | refl => exact ⟨⟨⟨List.Pairwise.nil, Nat.zero_le cap⟩, nofun, nofun⟩, nofun⟩
  | tail _ hStep ih => exact ledgerInv_step hCap ih hStep

/-- A ledger never forgets: whatever was recorded and wherever the process was
stopped, an id whose `record` returned is seen at every later time, and the ids
are strictly increasing and no more than `cap`. -/
theorem ledger_never_forgets (hCap : 0 < cap) {s : LedgerState} (h : LedgerReachable cap s) :
    (∀ id ∈ s.returned, ledgerSeen cap s.world.ids id = true) ∧
      s.world.ids.Pairwise (· < ·) ∧ s.world.ids.length ≤ cap := by
  have hInv := (ledgerInv_of_reachable hCap h).1
  exact ⟨hInv.memory, hInv.ids.sorted, hInv.ids.bounded⟩

/-- The operations as they answer. -/
def ledgerRespond (op : LedgerOp) (w : LedgerWorld) : op.Answer × LedgerWorld :=
  (w.answer op, w.after op)

theorem exec_ledgerRespond {α : Type} (n : Nat) (p : LedgerProc α) (w : LedgerWorld)
    {o : Option α} (h : (p.runWith ledgerRespond n w).1 = o) :
    Exec ledgerHandler p w (p.runWith ledgerRespond n w).2 o := by
  rw [← h]
  exact Exec.of_runWith (P := fun _ => True) (fun _ _ _ => ⟨⟨rfl, rfl⟩, trivial⟩) n p trivial

/-- Room for one id: 10 is recorded, the process stops between the two renames
of recording 11, and the next one records 12, which evicts 10. -/
theorem ledger_never_forgets_evicted_after_crash :
    ∃ s, LedgerReachable 1 s ∧ s.returned = [12, 10] ∧ s.world.ids = [12] ∧
      ledgerSeen 1 s.world.ids 10 = true := by
  have h₁ := Relation.ReflTransGen.single
    (LedgerStep.restarted (s := ⟨⟨[], fun _ => none⟩, false, []⟩)
      (exec_ledgerRespond 3 (openLedger 1) ⟨[], fun _ => none⟩ (by decide +kernel)))
  have h₂ := h₁.tail (LedgerStep.recorded 10 rfl
    (exec_ledgerRespond 6 (record 1 10) _ (by decide +kernel)))
  have h₃ := h₂.tail (LedgerStep.crashed 11 rfl
    (exec_ledgerRespond 5 (record 1 11) _ (by decide +kernel)))
  have h₄ := h₃.tail (LedgerStep.restarted
    (exec_ledgerRespond 3 (openLedger 1) _ (by decide +kernel)))
  have h₅ := h₄.tail (LedgerStep.recorded 12 rfl
    (exec_ledgerRespond 6 (record 1 12) _ (by decide +kernel)))
  have hReach : LedgerReachable 1 _ := ⟨_, h₅⟩
  exact ⟨_, hReach, rfl, by decide +kernel,
    (ledger_never_forgets (by decide) hReach).1 10 (by decide)⟩

end Histories

end WattPost.Cloud
