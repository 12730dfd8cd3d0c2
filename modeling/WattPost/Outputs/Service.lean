import WattPost.Cloud.Json
import WattPost.Lib.PyText

/-! The controllable outputs: their rows, the dictionary that a row is read as,
and `toggle`, the one path on which an output is switched. -/
namespace WattPost.Outputs

open Cloud (Json Fields)

/-- A row of `controllable_outputs`. The command column holds JSON text; here it
is the object the text stands for. -/
structure OutputRow where
  id : String
  deviceLabel : String
  name : String
  kind : String
  state : Option Int
  stateAt : Option Int
  lastCommandJson : Option Fields
  safetyConfirmed : Bool
  capabilities : List String

/-- A nullable integer column. -/
def intColumn : Option Int → Json
  | some n => .int n
  | none => .null

/-- `_row_to_output`: the command is returned under `last_command`. -/
def rowToOutput (row : OutputRow) : Fields :=
  [("id", .str row.id),
    ("device_label", .str row.deviceLabel),
    ("name", .str row.name),
    ("kind", .str row.kind),
    ("state", intColumn row.state),
    ("state_at", intColumn row.stateAt),
    ("last_command",
      match row.lastCommandJson with
      | some fields => .obj fields
      | none => .null),
    ("safety_confirmed", .bool row.safetyConfirmed),
    ("capabilities", .arr (row.capabilities.map .str))]

/-- The row under an id. -/
def findRow (outputs : List OutputRow) (outputId : String) : Option OutputRow :=
  outputs.find? (fun row => row.id = outputId)

def getOutput (outputs : List OutputRow) (outputId : String) : Option Fields :=
  (findRow outputs outputId).map rowToOutput

/-- `UPDATE controllable_outputs SET ... WHERE id = ?`. -/
def updateRow (outputs : List OutputRow) (outputId : String) (set : OutputRow → OutputRow) :
    List OutputRow :=
  outputs.map fun row => if row.id = outputId then set row else row

theorem findRow_updateRow {set : OutputRow → OutputRow} (hId : ∀ row, (set row).id = row.id)
    (outputs : List OutputRow) (outputId other : String) :
    findRow (updateRow outputs outputId set) other =
      (findRow outputs other).map fun row => if other = outputId then set row else row := by
  induction outputs with
  | nil => rfl
  | cons row outputs ih =>
      have hUpdated : (if row.id = outputId then set row else row).id = row.id := by
        split
        · exact hId row
        · rfl
      simp only [findRow, updateRow, List.map_cons, List.find?_cons, hUpdated] at ih ⊢
      by_cases hRow : row.id = other
      · simp [hRow]
      · simp only [hRow, decide_false]
        exact ih

def updateOutputState (outputs : List OutputRow) (outputId : String) (state : Option Int)
    (stateAt : Int) : List OutputRow :=
  updateRow outputs outputId fun row => { row with state := state, stateAt := some stateAt }

theorem findRow_updateOutputState (outputs : List OutputRow) (outputId other : String)
    (state : Option Int) (stateAt : Int) :
    findRow (updateOutputState outputs outputId state stateAt) other =
      (findRow outputs other).map fun row =>
        if other = outputId then { row with state := state, stateAt := some stateAt }
        else row := by
  apply findRow_updateRow
  intro row
  rfl

/-- One command that was sent to an adapter. -/
structure Command where
  outputId : String
  on : Bool
  time : Nat
  issuer : String
  result : String
deriving DecidableEq

/-- The object that `record_output_command` stores. -/
def Command.payload (command : Command) : Fields :=
  [("action", .str (if command.on then "on" else "off")), ("at", .int command.time),
    ("by", .str command.issuer), ("result", .str command.result)]

def recordOutputCommand (outputs : List OutputRow) (command : Command) : List OutputRow :=
  updateRow outputs command.outputId fun row =>
    { row with lastCommandJson := some command.payload }

theorem findRow_recordOutputCommand (outputs : List OutputRow) (command : Command)
    (other : String) :
    findRow (recordOutputCommand outputs command) other =
      (findRow outputs other).map fun row =>
        if other = command.outputId then { row with lastCommandJson := some command.payload }
        else row := by
  apply findRow_updateRow
  intro row
  rfl

/-- The outcome of an adapter's write. -/
structure WriteResult where
  ok : Bool
  confirmedState : Option Int
  detail : String
deriving DecidableEq

/-- What a toggle meets: no adapter, device or transport to resolve, a write that
returned, or a write that raised. -/
inductive Attempt where
  | unresolved (message : String)
  | wrote (result : WriteResult)
  | crashed (message : String)
deriving DecidableEq

/-- The outputs, the clock, and every command that reached an adapter, in order. -/
structure State where
  outputs : List OutputRow
  clock : Nat
  issued : List Command

/-- What the write amounts to; a write that raised is a failed one. -/
def Attempt.result : Attempt → Option WriteResult
  | .unresolved _ => none
  | .wrote result => some result
  | .crashed message => some { ok := false, confirmedState := none, detail := message }

def resultStr (result : WriteResult) : String :=
  if result.ok then "ok"
  else "fail:" ++ (if result.detail = "" then "unknown" else result.detail)

/-- The second half of `toggle`: the command is recorded, and a confirmed state
is stored. -/
def applyWrite (s : State) (command : Command) (result : WriteResult) : State :=
  let recorded := recordOutputCommand s.outputs command
  { s with
    issued := s.issued ++ [command]
    outputs :=
      match result.confirmedState with
      | some state => updateOutputState recorded command.outputId (some state) command.time
      | none => recorded }

/-- `OutputsService.toggle`. A known output has a row, since discovery registers
it; the error is the exception. -/
def toggle (s : State) (outputId : String) (on : Bool) (issuer : String) (attempt : Attempt) :
    Except String WriteResult × State :=
  match findRow s.outputs outputId, attempt.result with
  | none, _ => (.error ("unknown output " ++ outputId), s)
  | some _, none => (.error "unresolved", s)
  | some _, some result =>
      (.ok result,
        applyWrite s
          { outputId := outputId, on := on, time := s.clock, issuer := issuer
            result := resultStr result } result)

/-- A toggle leaves everything as it is, or sends one command and records it. -/
theorem toggle_cases (s : State) (outputId : String) (on : Bool) (issuer : String)
    (attempt : Attempt) :
    (toggle s outputId on issuer attempt).2 = s ∨
      ∃ command result,
        command.outputId = outputId ∧ command.on = on ∧ command.issuer = issuer ∧
          command.time = s.clock ∧
          (toggle s outputId on issuer attempt).2 = applyWrite s command result := by
  unfold toggle
  split
  · exact Or.inl rfl
  · exact Or.inl rfl
  · exact Or.inr ⟨_, _, rfl, rfl, rfl, rfl, rfl⟩

/-- After a command on it, an output's row holds that command; the other rows
hold what they held. -/
theorem findRow_applyWrite_lastCommand (s : State) (command : Command) (result : WriteResult)
    (other : String) :
    (findRow (applyWrite s command result).outputs other).map OutputRow.lastCommandJson =
      (findRow s.outputs other).map fun row =>
        if other = command.outputId then some command.payload else row.lastCommandJson := by
  have hRecord : (findRow (recordOutputCommand s.outputs command) other).map
      OutputRow.lastCommandJson = (findRow s.outputs other).map fun row =>
        if other = command.outputId then some command.payload else row.lastCommandJson := by
    rw [findRow_recordOutputCommand, Option.map_map]
    congr 1
    funext row
    by_cases hId : other = command.outputId <;> simp [hId]
  unfold applyWrite
  cases result.confirmedState with
  | none => exact hRecord
  | some state =>
      show (findRow (updateOutputState (recordOutputCommand s.outputs command)
        command.outputId (some state) command.time) other).map OutputRow.lastCommandJson = _
      rw [findRow_updateOutputState, Option.map_map, ← hRecord]
      congr 1
      funext row
      by_cases hId : other = command.outputId <;> simp [hId]

end WattPost.Outputs
