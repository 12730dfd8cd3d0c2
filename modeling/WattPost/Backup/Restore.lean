import WattPost.Cloud.Json
import WattPost.Lib.FileProgram
import WattPost.Lib.PyDict

/-! Restoring a backup: the members of the archive are staged beside their
targets and then swapped into place. YAML is read and written by functions that
are parameters. -/
namespace WattPost.Backup

open Cloud (Json Fields)
open FileProgram

/-! ### Files -/

/-- The files around the database, the configuration and the web password. -/
inductive File where
  | db
  | dbWal
  | dbShm
  | dbRestoring
  | config
  | configRestoring
  | configBak
  | pwHash
  | pwHashRestoring
  | pwPlain
  | pwPlainRestoring
deriving DecidableEq

abbrev Content := List UInt8

abbrev RestoreM (α : Type) := FileM File Content α

/-- The operations of one call that can fail; those of the staging loop also by
the place of their member in the archive. -/
inductive Point where
  | mkdir (i : Nat)
  | readConfig
  | stageDb (i : Nat)
  | stageConfig (i : Nat)
  | chmodConfig (i : Nat)
  | stageRawConfig (i : Nat)
  | stageHash (i : Nat)
  | stagePlain (i : Nat)
  | unlinkWal
  | unlinkShm
  | replaceDb
  | copyConfig
  | replaceConfig
  | replaceHash
  | replacePlain
  | cleanup (file : File)
deriving DecidableEq

abbrev Faults := Point → Fault Content

/-! ### The archive -/

/-- What reading a member gives: it is no file, its bytes, or an exception. -/
inductive MemberContent where
  | notAFile
  | bytes (content : Content)
  | unreadable

structure Member where
  name : String
  content : MemberContent

/-- `yaml.safe_load` and `yaml.safe_dump`. -/
structure Yaml where
  safeLoad : Content → Option Json
  safeDump : Fields → Content

/-! ### The restored configuration -/

/-- `_RESTORE_ALLOWED_TOPLEVEL`. -/
def restoreAllowedToplevel : List String :=
  ["db_path", "transports", "devices", "exporters", "notification_transports", "alerts",
    "alerts_seeded", "quiet_hours", "forecast", "weather", "cloud", "gps", "location", "bank",
    "backup", "discovery", "local_telemetry", "history", "solar_pause", "smart_plugs", "mqtt_in",
    "hotspot", "update", "kiosk", "web"]

/-- `_RESTORE_REDACT_SUBSTRINGS`. -/
def restoreRedactSubstrings : List String :=
  ["password", "passwd", "secret", "token", "bearer", "api_key", "private_key", "hmac",
    "credential"]

def looksSecret (key : String) : Bool :=
  restoreRedactSubstrings.any fun s => PyText.contains (PyText.lower key) s

mutual

/-- `_redact_credentials`: the value, and the paths that were emptied. -/
def redactCredentials (path : String) : Json → Json × List String
  | .obj fields =>
      let (fields', redacted) := redactFields path fields
      (.obj fields', redacted)
  | .arr values =>
      let (values', redacted) := redactValues path 0 values
      (.arr values', redacted)
  | value => (value, [])

def redactFields (path : String) : List (String × Json) → List (String × Json) × List String
  | [] => ([], [])
  | (key, value) :: rest =>
      let (rest', redacted) := redactFields path rest
      if looksSecret key then
        match value with
        | .str s =>
            if s = "" then ((key, value) :: rest', redacted)
            else ((key, .str "") :: rest', (path ++ "." ++ key) :: redacted)
        | _ => ((key, value) :: rest', redacted)
      else
        let (value', here) := redactCredentials (path ++ "." ++ key) value
        ((key, value') :: rest', here ++ redacted)

def redactValues (path : String) (i : Nat) : List Json → List Json × List String
  | [] => ([], [])
  | value :: rest =>
      let (value', here) := redactCredentials (path ++ "[" ++ toString i ++ "]") value
      let (rest', redacted) := redactValues path (i + 1) rest
      (value' :: rest', here ++ redacted)

end

/-- A configuration that passed the sanitizer, and what it lost. -/
structure Sanitized where
  fields : Fields
  dropped : List String
  redacted : List String

/-- `_sanitize_restored_config`. -/
def sanitizeRestoredConfig (raw : Fields) : Sanitized :=
  let kept := raw.filter fun field => restoreAllowedToplevel.contains field.1
  { fields := kept.map fun field => (field.1, (redactCredentials field.1 field.2).1)
    dropped := (raw.filter fun field => !restoreAllowedToplevel.contains field.1).map Prod.fst
    redacted := kept.flatMap fun field => (redactCredentials field.1 field.2).2 }

/-! ### Staging -/

/-- What the call reports. -/
structure Summary where
  files : List File := []
  preservedPairing : Bool := false
  restoredComponents : List String
  freshInstallPasswordRegen : Bool := false
  droppedConfigKeys : List String := []
  redactedCredentials : List String := []

/-- The flags of the staging loop. -/
structure Staged where
  haveCfg : Bool := false
  havePwHash : Bool := false
  havePwPlain : Bool := false
  summary : Summary

/-- What a call works with: the requested components, the cloud block that is
kept, and whether a password exists. -/
structure Call where
  yaml : Yaml
  faults : Faults
  components : Option (List String)
  preservedCloud : Option Json
  existingPwHash : Bool
  existingPwPlain : Bool

/-- `_want`. -/
def wants (components : Option (List String)) (component : String) : Bool :=
  match components with
  | none => true
  | some names => names.contains component

/-- `safe_load(...) or {}` when it is a mapping. -/
def loadMapping (yaml : Yaml) (content : Content) : Option Fields := do
  let value ← yaml.safeLoad content
  if Json.truthy (some value) = false then some []
  else
    match value with
    | .obj fields => some fields
    | _ => none

/-- The cloud block of the live configuration, if it can be read. -/
def readPreservedCloud (yaml : Yaml) (faults : Faults) (files : Files File Content) :
    Option Json :=
  match files .config, faults .readConfig with
  | some content, .none =>
      match (loadMapping yaml content).bind fun fields => Json.get? fields "cloud" with
      | some .null => none
      | cloud => cloud
  | _, _ => none

/-- The sanitized text is written; any exception on the way falls back to the
bytes of the archive. -/
def stageConfig (call : Call) (i : Nat) (rawBytes : Content) (st : Staged) : RestoreM Staged :=
  match loadMapping call.yaml rawBytes with
  | none => do
      write (call.faults (.stageRawConfig i)) .configRestoring rawBytes
      return { st with haveCfg := true }
  | some raw =>
      let sanitized := sanitizeRestoredConfig raw
      let fields :=
        match call.preservedCloud with
        | some cloud => PyDict.setEntry "cloud" cloud sanitized.fields
        | none => sanitized.fields
      let summary :=
        { st.summary with
          preservedPairing := st.summary.preservedPairing || call.preservedCloud.isSome }
      FileM.orElse
        (do
          write (call.faults (.stageConfig i)) .configRestoring (call.yaml.safeDump fields)
          attempt (call.faults (.chmodConfig i))
          return { st with
            haveCfg := true
            summary :=
              { summary with
                droppedConfigKeys :=
                  if sanitized.dropped.isEmpty then summary.droppedConfigKeys
                  else sanitized.dropped
                redactedCredentials :=
                  if sanitized.redacted.isEmpty then summary.redactedCredentials
                  else sanitized.redacted } })
        (do
          write (call.faults (.stageRawConfig i)) .configRestoring rawBytes
          return { st with haveCfg := true, summary := summary })

/-- `f = tar.extractfile(member)` and `f.read()`, for what follows. -/
def withBytes (member : Member) (st : Staged) (k : Content → RestoreM Staged) : RestoreM Staged :=
  match member.content with
  | .notAFile => return st
  | .unreadable => FileM.raise "ReadError"
  | .bytes content => k content

/-- One turn of the staging loop. -/
def stageMember (call : Call) (i : Nat) (member : Member) (st : Staged) : RestoreM Staged :=
  if member.name = "data.sqlite" then
    if wants call.components "data" = false then return st
    else
      withBytes member st fun content => do
        write (call.faults (.stageDb i)) .dbRestoring content
        return st
  else if member.name = "config/config.yaml" then
    if wants call.components "config" = false then return st
    else withBytes member st fun content => stageConfig call i content st
  else if member.name = "config/web-password.hash" then
    if wants call.components "password" = false then return st
    else if call.existingPwHash then return st
    else if call.existingPwPlain = false then
      return { st with summary := { st.summary with freshInstallPasswordRegen := true } }
    else
      withBytes member st fun content => do
        write (call.faults (.stageHash i)) .pwHashRestoring content
        return { st with havePwHash := true }
  else if member.name = "config/web-password" then
    if wants call.components "password" = false then return st
    else if call.existingPwPlain then return st
    else if call.existingPwHash = false then return st
    else
      withBytes member st fun content => do
        write (call.faults (.stagePlain i)) .pwPlainRestoring content
        return { st with havePwPlain := true }
  else return st

/-- The staging loop, from member `i` on. -/
def stageMembers (call : Call) : Nat → List Member → Staged → RestoreM Staged
  | _, [], st => return st
  | i, member :: rest, st => do
      let st' ← stageMember call i member st
      stageMembers call (i + 1) rest st'

/-! ### The swap -/

def swapDb (faults : Faults) (summary : Summary) : RestoreM Summary := do
  match ← read .dbRestoring with
  | none => return summary
  | some _ =>
      unlink (faults .unlinkWal) .dbWal
      unlink (faults .unlinkShm) .dbShm
      replace (faults .replaceDb) .dbRestoring .db
      return { summary with files := summary.files ++ [.db] }

/-- The old configuration is copied aside; that may fail. -/
def copyConfig (faults : Faults) : RestoreM Unit := do
  match ← read .config with
  | none => return ()
  | some content => FileM.orElse (write (faults .copyConfig) .configBak content) (return ())

def swapConfig (faults : Faults) (haveCfg : Bool) (summary : Summary) : RestoreM Summary := do
  if haveCfg then
    copyConfig faults
    replace (faults .replaceConfig) .configRestoring .config
    return { summary with files := summary.files ++ [.config] }
  else return summary

def swapPassword (fault : Fault Content) (have_ : Bool) (source target : File)
    (summary : Summary) : RestoreM Summary := do
  if have_ then
    replace fault source target
    return { summary with files := summary.files ++ [target] }
  else return summary

def swap (faults : Faults) (staged : Staged) : RestoreM Summary := do
  let summary ← swapDb faults staged.summary
  let summary ← swapConfig faults staged.haveCfg summary
  let summary ← swapPassword (faults .replaceHash) staged.havePwHash .pwHashRestoring .pwHash
    summary
  swapPassword (faults .replacePlain) staged.havePwPlain .pwPlainRestoring .pwPlain summary

/-- The `finally` of the swap. -/
def cleanup (faults : Faults) : RestoreM Unit := do
  unlink (faults (.cleanup .dbRestoring)) .dbRestoring
  unlink (faults (.cleanup .configRestoring)) .configRestoring
  unlink (faults (.cleanup .pwHashRestoring)) .pwHashRestoring
  unlink (faults (.cleanup .pwPlainRestoring)) .pwPlainRestoring

/-- `sorted(components)`, or all three. -/
def restoredComponents (components : Option (List String)) : List String :=
  match components with
  | some names => names.mergeSort fun a b => decide (a ≤ b)
  | none => ["config", "data", "password"]

/-- The directories, and the staging loop over the members, if the archive can
be opened. -/
def stageAll (call : Call) (archive : Option (List Member)) : RestoreM Staged := do
  attempt (call.faults (.mkdir 0))
  attempt (call.faults (.mkdir 1))
  attempt (call.faults (.mkdir 2))
  match archive with
  | none => FileM.raise "ReadError"
  | some members =>
      stageMembers call 0 members
        { summary := { restoredComponents := restoredComponents call.components } }

/-- What comes before the swap; the live files are looked at first. -/
def prepare (yaml : Yaml) (faults : Faults) (components : Option (List String))
    (archive : Option (List Member)) : RestoreM Staged := fun files =>
  stageAll
    { yaml := yaml, faults := faults, components := components
      preservedCloud := readPreservedCloud yaml faults files
      existingPwHash := (files .pwHash).isSome
      existingPwPlain := (files .pwPlain).isSome } archive files

/-- `_stage_and_swap`. -/
def stageAndSwap (yaml : Yaml) (faults : Faults) (components : Option (List String))
    (archive : Option (List Member)) : RestoreM Summary := do
  let staged ← prepare yaml faults components archive
  (swap faults staged).thenAlways (cleanup faults)

end WattPost.Backup
