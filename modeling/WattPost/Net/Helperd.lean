import WattPost.Cloud.JsonLoads
import WattPost.Lib.LineStream
import WattPost.Lib.Process
import WattPost.Net.WifiScan

/-! The privileged helper: what it does to the system for a request, how requests and answers
go over its socket, and the client on the other side. -/
namespace Helperd

open Process (Proc)
open LineStream (Incoming)
open WattPost.Cloud (Json Fields)
open WattPost.Cloud.JsonText (Decoder dumps)
open WifiJoin (Answer Arg Ipv4Args Plan Refusal nmConnDir)

/-! ### What the helper does to its surroundings -/

/-- An exception. -/
structure Raised where
  isValueError : Bool
  message : String
deriving DecidableEq

structure Completed where
  returncode : Int
  stdout : String
  stderr : String
deriving DecidableEq

inductive Call where
  | run (argv : List String)
  | popen (argv : List String)
  | which (name : String)
  | probe (lock : String)
  | pathExists (path : String)
  | makedirs (path : String)
  | write (path body : String) (mode : Option Nat)
  | remove (path : String)
deriving DecidableEq

/-- What comes back from a call. An operation on a file may raise, with a message. -/
def Reply : Call → Type
  | .run _ => Except Raised Completed
  | .popen _ => Option String
  | .which _ => Option String
  | .probe _ => Bool
  | .pathExists _ => Bool
  | .makedirs _ => Option String
  | .write .. => Option String
  | .remove _ => Option String

/-- An action: it answers or raises. -/
abbrev Act := Proc Call Reply (Except Raised Answer)

/-- What the code takes from its surroundings. `str` is what `str` makes of a value that is no
string, and `truncate` what `int` makes of a float. -/
structure Host extends WifiJoin.Host where
  str : Json → String
  repr : Json → String
  truncate : String → Int
  decoder : Decoder

/-! ### Paths -/

def netctl : String := "/usr/local/sbin/wattpost-netctl"
def update : String := "/usr/local/bin/wattpost-update"
def rollback : String := "/usr/local/bin/wattpost-rollback"
def slotLock : String := "/run/wattpost-update.lock"
def captiveDir : String := "/etc/NetworkManager/dnsmasq-shared.d"
def captiveFile : String := captiveDir ++ "/" ++ "wattpost-captive.conf"
def apGateway : String := "10.42.0.1"
def nmcli : String := "/usr/bin/nmcli"

def captiveBody : String :=
  "# WattPost captive portal — resolve all names to the AP so a\n" ++
  "# joining device's OS connectivity check lands on the dashboard.\n" ++
  "# Managed by wattpost-helperd; present only while a captive AP is up.\n" ++
  "address=/#/" ++ apGateway ++ "\n"

/-! ### Running programs -/

def succeeded (out : String) : Act := .ret (.ok { ok := true, out := out, err := "" })

def failed (err : String) : Act := .ret (.ok { ok := false, out := "", err := err })

def valueError (message : String) : Act := .ret (.error ⟨true, message⟩)

/-- `subprocess.run`; what it raises, the action raises. -/
def run (argv : List String) (k : Completed → Act) : Act :=
  .eff (.run argv) fun
    | .error e => .ret (.error e)
    | .ok r => k r

/-- `_run`. -/
def runFixed (argv : List String) : Act :=
  .eff (.run argv) fun
    | .error e => failed e.message
    | .ok r =>
        if r.returncode = 0 then
          .ret (.ok { ok := true, out := PyText.strip r.stdout, err := "" })
        else
          .ret (.ok { ok := false, out := PyText.strip r.stdout, err := PyText.strip r.stderr })

/-- `os.path.basename`. -/
def basename (path : String) : String :=
  String.ofList (path.toList.reverse.takeWhile (· ≠ '/')).reverse

/-- `_spawn_detached` without `systemd-run`. -/
def spawnPlain (argv : List String) : Act :=
  .eff (.popen argv) fun
    | none => succeeded "started"
    | some message => failed message

def unitCommand (sdr : String) (argv : List String) : List String :=
  sdr :: ["--collect", "--quiet", "--no-block", "--unit", basename (argv.headD ""), "--"] ++ argv

/-- `_spawn_detached`. -/
def spawnDetached (argv : List String) : Act :=
  .eff (.which "systemd-run") fun
    | none => spawnPlain argv
    | some sdr =>
        if sdr = "" then spawnPlain argv
        else .eff (.popen (unitCommand sdr argv)) fun
          | none => succeeded "started"
          | some _ => spawnPlain argv

/-! ### The network and the slots -/

/-- `_req_bool`. -/
def reqBool (args : Fields) (key : String) (k : Bool → Act) : Act :=
  match Json.get? args key with
  | some (.bool b) => k b
  | _ => valueError (key ++ " must be a bool")

def onOff (b : Bool) : String := if b then "on" else "off"

def actNetctlStatus : Act := runFixed [netctl, "status"]

def actNetctlApply (args : Fields) : Act :=
  reqBool args "firewall" fun fw =>
    reqBool args "ssh" fun ssh => runFixed [netctl, "apply", onOff fw, onOff ssh]

/-- An operation on the slots; `_slot_op_busy` probes their lock. -/
def slotOperation (script : String) : Act :=
  .eff (.probe slotLock) fun (busy : Bool) =>
    if busy then failed "a slot operation is already in progress" else spawnDetached [script]

def actUpdate : Act := slotOperation update
def actRollback : Act := slotOperation rollback

def captiveWrite : Act :=
  .eff (.makedirs captiveDir) fun
    | some e => failed e
    | none => .eff (.write captiveFile captiveBody none) fun
      | some e => failed e
      | none => succeeded "armed"

def captiveRemove : Act :=
  .eff (.pathExists captiveFile) fun (found : Bool) =>
    if found then
      .eff (.remove captiveFile) fun
        | some e => failed e
        | none => succeeded "disarmed"
    else succeeded "disarmed"

def actCaptive (args : Fields) : Act :=
  if Json.get? args "op" = some (.str "write") then captiveWrite
  else if Json.get? args "op" = some (.str "remove") then captiveRemove
  else failed "bad op"

/-! ### Scanning and joining -/

def scanCommand : List String :=
  [nmcli, "-t", "-e", "yes", "-f", "SIGNAL,SECURITY,IN-USE,SSID", "device", "wifi", "list"]

def actWifiScan : Act :=
  run [nmcli, "radio", "wifi", "on"] fun _ =>
    run [nmcli, "device", "wifi", "rescan"] fun _ =>
      run scanCommand fun r => .ret (.ok (WifiScan.answer r.returncode r.stdout r.stderr))

/-- An argument as `_req_str` finds it. -/
def textArg : Option Json → Arg
  | none => .missing
  | some .null => .missing
  | some (.str s) => .text s
  | some _ => .other

/-- `str(ipv4.get(key, ""))`. -/
def addressText (host : Host) : Option Json → String
  | none => ""
  | some (.str s) => s
  | some j => host.str j

/-- `ipv4.get("method") or "auto"`, where that is a string. -/
def askedMethod (ipv4 : Fields) : Option String :=
  if Json.truthy (Json.get? ipv4 "method") then Json.strValue (Json.get? ipv4 "method")
  else some "auto"

/-- What `int` makes of a value. It raises a `TypeError` or a `ValueError` for most of what is
no number, and an `OverflowError` for an infinite float. -/
inductive PyInt where
  | number (n : Int)
  | refused
  | overflow
deriving DecidableEq

/-- `int(ipv4.get("prefix", 24))`. -/
def askedPrefix (host : Host) (ipv4 : Fields) : PyInt :=
  match Json.get? ipv4 "prefix" with
  | none => .number 24
  | some (.int n) => .number n
  | some (.bool b) => .number (if b then 1 else 0)
  | some (.float literal) =>
      if literal = "inf" ∨ literal = "-inf" then .overflow
      else if literal = "nan" then .refused
      else .number (host.truncate literal)
  | some (.str s) =>
      match PyNumber.int s with
      | some n => .number n
      | none => .refused
  | some _ => .refused

/-- `args.get("ipv4")`, where it is an object. -/
def ipv4Fields (args : Fields) : Option Fields :=
  match Json.get? args "ipv4" with
  | some (.obj ipv4) => some ipv4
  | _ => none

def ipv4Args (host : Host) (ipv4 : Fields) : Ipv4Args where
  method := askedMethod ipv4
  address := addressText host (Json.get? ipv4 "address")
  prefixLength :=
    match askedPrefix host ipv4 with
    | .number n => some n
    | _ => none
  gateway := addressText host (Json.get? ipv4 "gateway")
  dns := addressText host (Json.get? ipv4 "dns")

def joinArgs (host : Host) (args : Fields) : WifiJoin.Args where
  ssid := textArg (Json.get? args "ssid")
  psk := textArg (Json.get? args "psk")
  ipv4 := (ipv4Fields args).map (ipv4Args host)

/-- The block of the addresses raises an `OverflowError`. -/
def overflows (host : Host) (args : Fields) : Bool :=
  match ipv4Fields args with
  | none => false
  | some ipv4 => askedMethod ipv4 = some "manual" && askedPrefix host ipv4 = .overflow

/-- How a refused join ends. -/
def refusal : Refusal → Except Raised Answer
  | .raised message => .error ⟨true, message⟩
  | .answered answer => .ok answer

/-- A join whose texts pass, and whose addresses raise an `OverflowError` then. -/
def overflowed : Except Refusal Plan → Except (Except Raised Answer) Plan
  | .error r => .error (refusal r)
  | .ok _ => .error (.error ⟨false, "cannot convert float infinity to integer"⟩)

/-- `_act_wifi_join` up to the keyfile. The checks of the texts come before the addresses. -/
def joinPlan (host : Host) (args : Fields) : Except (Except Raised Answer) Plan :=
  if overflows host args then
    overflowed (WifiJoin.plan host.toHost { joinArgs host args with ipv4 := none })
  else (WifiJoin.plan host.toHost (joinArgs host args)).mapError refusal

/-- `_act_wifi_join` from the keyfile on. -/
def activate (plan : Plan) : Act :=
  .eff (.makedirs nmConnDir) fun
    | some e => failed ("write keyfile: " ++ e)
    | none => .eff (.write plan.path plan.body (some 0o600)) fun
      | some e => failed ("write keyfile: " ++ e)
      | none =>
          run [nmcli, "connection", "load", plan.path] fun load =>
            if load.returncode ≠ 0 then
              .eff (.remove plan.path) fun _ =>
                failed (WifiJoin.errorText load.stderr "nmcli load failed")
            else
              run [nmcli, "connection", "up", "id", plan.ssid] fun up =>
                if up.returncode ≠ 0 then
                  run [nmcli, "connection", "delete", "id", plan.ssid] fun _ =>
                    .eff (.remove plan.path) fun _ =>
                      failed (WifiJoin.errorText up.stderr
                        "couldn't connect — check the password")
                else succeeded "connected"

def actWifiJoin (host : Host) (args : Fields) : Act :=
  match joinPlan host args with
  | .error outcome => .ret outcome
  | .ok plan => activate plan

/-! ### Addresses of the connections -/

def activeCommand : List String :=
  [nmcli, "-t", "-f", "NAME,TYPE,DEVICE", "connection", "show", "--active"]

def showCommand (name : String) : List String :=
  [nmcli, "-t", "-f", "ipv4.method,IP4.ADDRESS,IP4.GATEWAY,IP4.DNS,802-11-wireless.mode",
    "connection", "show", name]

/-- What is known of a connection so far. -/
structure Details where
  method : String
  address : String
  gateway : String
  dns : List String
  isAp : Bool
deriving DecidableEq

/-- One line of `nmcli connection show`. -/
def Details.read (d : Details) (line : String) : Details :=
  match NmcliTerse.splitNmcliT line with
  | key :: v :: vs =>
      let val := String.intercalate ":" (v :: vs)
      if key = "ipv4.method" then { d with method := val }
      else if PyText.startsWith key "IP4.ADDRESS" ∧ val ≠ "" ∧ d.address = "" then
        { d with address := val }
      else if key = "IP4.GATEWAY" then { d with gateway := val }
      else if PyText.startsWith key "IP4.DNS" ∧ val ≠ "" then { d with dns := d.dns ++ [val] }
      else if key = "802-11-wireless.mode" ∧ val = "ap" then { d with isAp := true }
      else d
  | _ => d

def lines (stdout : String) : List String :=
  (PyLines.splitlines stdout.toList).map String.ofList

def details (stdout : String) : Details :=
  (lines stdout).foldl Details.read ⟨"", "", "", [], false⟩

def connJson (name ctype device : String) (d : Details) : Json :=
  .obj [
    ("name", .str name), ("type", .str ctype), ("device", .str device),
    ("method", .str (if d.method = "" then "auto" else d.method)), ("address", .str d.address),
    ("gateway", .str d.gateway), ("dns", .arr (d.dns.map .str))]

/-- The loop of `_act_net_status`, with the connections found so far. -/
def netStatusLoop : List String → List Json → Act
  | [], conns => succeeded (dumps (.arr conns))
  | line :: rest, conns =>
      match NmcliTerse.splitNmcliT line with
      | name :: ctype :: device :: _ =>
          if device = "lo" ∨ PyText.contains ctype "loopback" then netStatusLoop rest conns
          else
            run (showCommand name) fun d =>
              let d := details d.stdout
              if d.isAp then netStatusLoop rest conns
              else netStatusLoop rest (conns ++ [connJson name ctype device d])
      | _ => netStatusLoop rest conns

def actNetStatus : Act :=
  run activeCommand fun r =>
    if r.returncode ≠ 0 then failed (WifiJoin.errorText r.stderr "nmcli failed")
    else netStatusLoop (lines r.stdout) []

def autoSettings : List String :=
  ["ipv4.method", "auto", "ipv4.addresses", "", "ipv4.gateway", "", "ipv4.dns", ""]

def manualSettings (addr : String) (n : Int) (gw : String) (dns : List String) : List String :=
  ["ipv4.method", "manual", "ipv4.addresses", addr ++ "/" ++ toString n,
    "ipv4.gateway", gw, "ipv4.dns", String.intercalate " " dns]

/-- The addresses of a fixed setting, checked in turn. -/
def checkAddresses (host : WifiJoin.Host) (addr gw : String) (dns : List String) :
    Except String (List String) := do
  WifiJoin.ipv4Address host addr
  if gw ≠ "" then WifiJoin.ipv4Address host gw
  WifiJoin.dnsList host dns

/-- The settings of `_act_net_set_ipv4`, or how it ends without any. -/
def settings (host : Host) (ipv4 : Fields) : Except (Except Raised Answer) (List String) :=
  let refuse (err : String) : Except (Except Raised Answer) (List String) :=
    .error (.ok { ok := false, out := "", err := err })
  if askedMethod ipv4 = some "auto" then .ok autoSettings
  else if askedMethod ipv4 = some "manual" then
    let asked := ipv4Args host ipv4
    match askedPrefix host ipv4 with
    | .overflow => .error (.error ⟨false, "cannot convert float infinity to integer"⟩)
    | .refused => refuse "prefix must be a number"
    | .number n =>
        if ¬ (1 ≤ n ∧ n ≤ 32) then refuse "prefix must be 1..32"
        else
          match checkAddresses host.toHost (PyText.strip asked.address)
              (PyText.strip asked.gateway)
              (PyText.words (PyText.replaceChar asked.dns ',' ' ')) with
          | .error message => refuse message
          | .ok dns =>
              .ok (manualSettings (PyText.strip asked.address) n (PyText.strip asked.gateway) dns)
  else refuse "method must be auto or manual"

def actNetSetIpv4 (host : Host) (args : Fields) : Act :=
  match WifiJoin.reqStr (textArg (Json.get? args "connection")) "connection" 200 false with
  | .error message => valueError message
  | .ok name =>
      match ipv4Fields args with
      | none => failed "ipv4 object required"
      | some ipv4 =>
          match settings host ipv4 with
          | .error outcome => .ret outcome
          | .ok mod =>
              run ([nmcli, "connection", "modify", name] ++ mod) fun m =>
                if m.returncode ≠ 0 then failed (WifiJoin.errorText m.stderr "nmcli modify failed")
                else spawnDetached [nmcli, "connection", "up", name]

/-! ### Requests -/

/-- `ACTIONS`. -/
def actions (host : Host) : List (String × (Fields → Act)) :=
  [("netctl_status", fun _ => actNetctlStatus),
    ("netctl_apply", actNetctlApply),
    ("update", fun _ => actUpdate),
    ("rollback", fun _ => actRollback),
    ("captive", actCaptive),
    ("wifi_scan", fun _ => actWifiScan),
    ("wifi_join", actWifiJoin host),
    ("net_status", fun _ => actNetStatus),
    ("net_set_ipv4", actNetSetIpv4 host)]

/-- What `handle` makes of the end of an action. -/
def rescue : Except Raised Answer → Answer
  | .ok answer => answer
  | .error e =>
      { ok := false, out := "", err := if e.isValueError then e.message else "internal error" }

/-- `handle` of a request that has an action. -/
def perform (host : Host) (action : String) (args : Option Json) : Proc Call Reply Answer :=
  match (actions host).lookup action with
  | none =>
      .ret { ok := false, out := "", err := "unknown action: " ++ host.repr (.str action) }
  | some handler =>
      if Json.truthy args then
        match args with
        | some (.obj args) => rescue <$> handler args
        | _ => .ret { ok := false, out := "", err := "args must be an object" }
      else rescue <$> handler []

/-- `handle`, of a request as `json.loads` finds it. An array or an object is no key of
`ACTIONS`, and to look one up raises. -/
def handleRequest (host : Host) (request : Option Json) : Proc Call Reply (Option Answer) :=
  match request with
  | none => .ret (some { ok := false, out := "", err := "malformed request" })
  | some (.obj req) =>
      match Json.get? req "action" with
      | some (.str action) => some <$> perform host action (Json.get? req "args")
      | some (.arr _) => .ret none
      | some (.obj _) => .ret none
      | other =>
          .ret (some
            { ok := false, out := "", err := "unknown action: " ++ host.repr (other.getD .null) })
  | some _ => .ret (some { ok := false, out := "", err := "request must be an object" })

/-! ### The socket -/

def utf8 (s : String) : List UInt8 := s.toList.flatMap String.utf8EncodeChar

/-- `bytes.decode("utf-8")`. -/
def decodeUtf8 (bytes : List UInt8) : Option String := String.fromUTF8? bytes.toByteArray

def newline : UInt8 := 10

/-- `MAX_REQUEST`. -/
def maxRequest : Nat := 4096

def loadsBytes (d : Decoder) (bytes : List UInt8) : Option Json := (decodeUtf8 bytes).bind d.loads

def handle (host : Host) (raw : List UInt8) : Proc Call Reply (Option Answer) :=
  handleRequest host (loadsBytes host.decoder raw)

def answerJson (a : Answer) : Json :=
  .obj [("ok", .bool a.ok), ("out", .str a.out), ("err", .str a.err)]

/-- A value as a line of the socket. -/
def lineOf (j : Json) : List UInt8 := utf8 (dumps j ++ "\n")

/-- One connection of `_serve`: what is sent back, if anything is. -/
def serveOne (host : Host) (incoming : Incoming UInt8) :
    Proc Call Reply (Option (List UInt8)) :=
  match LineStream.receive (fun buf => decide (newline ∈ buf ∨ maxRequest ≤ buf.length))
      incoming with
  | none => .ret none
  | some buf =>
      (Option.map fun answer => lineOf (answerJson answer)) <$>
        handle host ((LineStream.line newline buf).take maxRequest)

/-- `_serve`: one connection after the other. -/
def serve (host : Host) : List (Incoming UInt8) → Proc Call Reply (List (Option (List UInt8)))
  | [] => .ret []
  | incoming :: rest => do
      let response ← serveOne host incoming
      let responses ← serve host rest
      return response :: responses

/-! ### The client -/

def callFailed (err : String) : Json :=
  answerJson { ok := false, out := "", err := err }

/-- `call` of the client, from what comes back; `errors` is the text of an exception. -/
def callResult (decoder : Decoder) (errors : String) (incoming : Incoming UInt8) : Json :=
  match LineStream.receive (fun buf => decide (newline ∈ buf)) incoming with
  | none => callFailed errors
  | some buf =>
      match loadsBytes decoder (LineStream.line newline buf) with
      | none => callFailed errors
      | some (.obj fields) => .obj fields
      | some _ => callFailed "bad helper response"

/-- What `call` sends. -/
def callRequest (action : String) (args : Fields) : Json :=
  .obj [("action", .str action), ("args", .obj args)]

end Helperd
