import WattPost.Lib.FileProgram
import WattPost.Net.NmProfile

/-! The helper's `wifi_join` action: it checks its arguments, writes a NetworkManager keyfile
and activates it with nmcli. -/
namespace WifiJoin

open FileProgram

/-! ### The request -/

/-- An argument of the request: not there (or null), a string, or another value. -/
inductive Arg where
  | missing
  | text (s : String)
  | other
deriving DecidableEq

/-- The string that was given; an argument that may be left out counts as empty. -/
def Arg.given : Arg → String
  | .text s => s
  | _ => ""

/-- `args["ipv4"]`, where it is an object. The addresses are the texts that `str` makes of the
values, and `prefixLength` is what `int` makes of its value, where it makes something. -/
structure Ipv4Args where
  method : Option String
  address : String
  prefixLength : Option Int
  gateway : String
  dns : String
deriving DecidableEq

structure Args where
  ssid : Arg
  psk : Arg
  ipv4 : Option Ipv4Args
deriving DecidableEq

/-- What the code takes from its surroundings: Python's letters and digits, the text of the
error about a bad address, and the name that NetworkManager gives a profile without one. -/
structure Host where
  isAlnum : Char → Bool
  addressError : String → String
  fileId : String → String

structure Answer where
  ok : Bool
  out : String
  err : String
deriving DecidableEq

/-! ### Its checks -/

/-- `_req_str`. -/
def reqStr (v : Arg) (key : String) (maxlen : Nat) (allowEmpty : Bool) : Except String String :=
  match v with
  | .missing => if allowEmpty then .ok "" else .error (key ++ " must be a string")
  | .other => .error (key ++ " must be a string")
  | .text v =>
      if !allowEmpty && v = "" then .error (key ++ " must not be empty")
      else if maxlen < v.length then
        .error (key ++ " too long (max " ++ toString maxlen ++ ")")
      else if v.toList.any fun c => c.toNat < 0x20 then
        .error (key ++ " contains control characters")
      else .ok v

/-- An octet of an `IPv4Address`. -/
def isOctet (octet : List Char) : Bool :=
  octet.length ≤ 3 && (octet = ['0'] || octet.head? != some '0') &&
    (PyText.digitsValue octet).any fun n => n ≤ 255

/-- `ipaddress.IPv4Address(s)`. -/
def ipv4Address (host : Host) (s : String) : Except String Unit :=
  let octets := PyText.splitChars '.' s.toList
  if octets.length = 4 ∧ ∀ octet ∈ octets, isOctet octet then .ok ()
  else .error (host.addressError s)

def dnsList (host : Host) : List String → Except String (List String)
  | [] => .ok []
  | d :: rest => do
      ipv4Address host d
      let servers ← dnsList host rest
      return d :: servers

/-- The static block of `_ipv4_section`, behind the check of the prefix. -/
def staticSection (host : Host) (addr gw : String) (n : Int) (dns : List String) :
    Except String String := do
  ipv4Address host addr
  if gw ≠ "" then ipv4Address host gw
  let line := "address1=" ++ addr ++ "/" ++ toString n ++ (if gw ≠ "" then "," ++ gw else "")
  let servers ← dnsList host dns
  let sec := "[ipv4]\nmethod=manual\n" ++ line ++ "\n"
  return if servers.isEmpty then sec
    else sec ++ "dns=" ++ String.intercalate ";" servers ++ ";\n"

/-- `_ipv4_section`. -/
def ipv4Section (host : Host) (ipv4 : Option Ipv4Args) : Except String String :=
  match ipv4 with
  | none => .ok "[ipv4]\nmethod=auto\n"
  | some ipv4 =>
      if ipv4.method ≠ some "manual" then .ok "[ipv4]\nmethod=auto\n"
      else
        match ipv4.prefixLength with
        | none => .error "ipv4.prefix must be a number"
        | some n =>
            if ¬ (1 ≤ n ∧ n ≤ 32) then .error "ipv4.prefix must be 1..32"
            else staticSection host (PyText.strip ipv4.address) (PyText.strip ipv4.gateway) n
              (PyText.words (PyText.replaceChar ipv4.dns ',' ' '))

/-! ### The keyfile -/

/-- `NM_CONN_DIR`. -/
def nmConnDir : String := "/etc/NetworkManager/system-connections"

/-- What a file name keeps of a character: letters, digits, `-` and `_` stay. -/
def safeChar (host : Host) (c : Char) : Char :=
  if host.isAlnum c || c = '-' || c = '_' then c else '_'

def keyfilePath (host : Host) (ssid : String) : String :=
  let safe := PyText.takeFirst (String.ofList (ssid.toList.map (safeChar host))) 48
  nmConnDir ++ "/" ++ "wattpost-wifi-" ++ safe ++ ".nmconnection"

def keyfileBody (ssid psk ipv4Section : String) : String :=
  let sec := if psk ≠ "" then "\n[wifi-security]\nkey-mgmt=wpa-psk\npsk=" ++ psk ++ "\n" else ""
  "[connection]\n" ++
  "id=" ++ ssid ++ "\n" ++
  "type=wifi\n" ++
  "autoconnect=true\n" ++
  "[wifi]\n" ++
  "mode=infrastructure\n" ++
  "ssid=" ++ ssid ++ "\n" ++
  sec ++
  ipv4Section ++
  "[ipv6]\nmethod=auto\n"

/-- A profile about to be written. -/
structure Plan where
  ssid : String
  path : String
  body : String
deriving DecidableEq

/-- How a request ends before anything is written. -/
inductive Refusal where
  | raised (message : String)
  | answered (answer : Answer)
deriving DecidableEq

/-- A request that the checks turn down with an answer. -/
def Refusal.failed (err : String) : Refusal := .answered { ok := false, out := "", err := err }

/-- `_act_wifi_join` up to the keyfile. -/
def plan (host : Host) (args : Args) : Except Refusal Plan := do
  let ssid ← (reqStr args.ssid "ssid" 32 false).mapError Refusal.raised
  let psk ← (reqStr args.psk "psk" 63 true).mapError Refusal.raised
  if psk ≠ "" ∧ psk.length < 8 then
    throw (.failed "WPA password must be 8–63 characters")
  let ipv4Section ← (ipv4Section host args.ipv4).mapError Refusal.failed
  return { ssid := ssid, path := keyfilePath host ssid, body := keyfileBody ssid psk ipv4Section }

/-! ### Writing and activating it -/

/-- How one nmcli call ends. -/
inductive Nmcli where
  | succeeds
  | fails (stderr : String)
  | raises (message : String)
deriving DecidableEq

/-- What the operations of a join run into. Of the profiles with the SSID as their name,
`gone` says which ones the delete really removes. -/
structure Faults where
  makedirs : Fault String
  write : Fault String
  load : Nmcli
  up : Nmcli
  delete : Nmcli
  gone : String → Bool
  remove : Fault String

/-- `subprocess.run([NMCLI, ...])`: what it wrote to stderr, where it failed. -/
def runNmcli : Nmcli → FileM String String (Option String)
  | .succeeds => pure none
  | .fails stderr => pure (some stderr)
  | .raises message => FileM.raise message

/-- Profiles of one name are taken away. -/
def dropNamed (host : Host) (id : String) (gone : String → Bool) :
    FileM String String Unit := fun files =>
  (.ok (), fun f => (files f).filter fun content =>
    !(gone f && NmProfile.profileName host.fileId f content = some id))

/-- `nmcli connection delete id <id>`. -/
def nmcliDelete (host : Host) (id : String) (faults : Faults) :
    FileM String String (Option String) := do
  dropNamed host id faults.gone
  runNmcli faults.delete

/-- `try: os.remove(path) except OSError: pass`. -/
def removeQuietly (fault : Fault String) (path : String) : FileM String String Unit :=
  (unlink fault path).orElse (pure ())

/-- `(stderr or text).strip()`. -/
def errorText (stderr text : String) : String :=
  PyText.strip (if stderr = "" then text else stderr)

/-- The answer about a keyfile that could not be written. -/
def writeKeyfile (faults : Faults) (plan : Plan) : FileM String String (Option Answer) :=
  FileM.handle
    (do
      attempt faults.makedirs
      write faults.write plan.path plan.body
      return none)
    fun e => return some { ok := false, out := "", err := "write keyfile: " ++ e }

/-- `_act_wifi_join` from the keyfile on. -/
def activate (host : Host) (faults : Faults) (plan : Plan) :
    FileM String String Answer := do
  match ← writeKeyfile faults plan with
  | some answer => return answer
  | none =>
      match ← runNmcli faults.load with
      | some stderr =>
          removeQuietly faults.remove plan.path
          return { ok := false, out := "", err := errorText stderr "nmcli load failed" }
      | none =>
          match ← runNmcli faults.up with
          | some stderr =>
              let _ ← nmcliDelete host plan.ssid faults
              removeQuietly faults.remove plan.path
              return { ok := false, out := "",
                       err := errorText stderr "couldn't connect — check the password" }
          | none => return { ok := true, out := "connected", err := "" }

/-- `_act_wifi_join`. -/
def actWifiJoin (host : Host) (faults : Faults) (args : Args) :
    FileM String String Answer :=
  match plan host args with
  | .error (.raised message) => FileM.raise message
  | .error (.answered answer) => pure answer
  | .ok plan => activate host faults plan

end WifiJoin
