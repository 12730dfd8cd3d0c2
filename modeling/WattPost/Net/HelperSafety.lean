import WattPost.Net.HelperWire
import WattPost.Net.WifiKeyfile

/-! Whatever comes over its socket, the helper only does what its actions are for. -/
namespace Helperd

open Process (Proc Confined Exec Recorded)
open LineStream (Incoming)
open WattPost.Cloud (Json Fields)
open WifiJoin (IsAddress keyfilePath nmConnDir)

/-! ### What it is allowed to do -/

/-- A text of a request as it may stand in a command. -/
structure CleanText (maxlen : Nat) (s : String) : Prop where
  some : s ≠ ""
  short : s.length ≤ maxlen
  clean : ∀ c ∈ s.toList, 0x20 ≤ c.toNat

/-- A keyfile of the helper: nothing of the request leads out of the directory. -/
def IsKeyfile (path : String) : Prop :=
  ∃ safe : String, path = nmConnDir ++ "/" ++ "wattpost-wifi-" ++ safe ++ ".nmconnection" ∧
    safe ≠ "" ∧ safe.length ≤ 48 ∧ '/' ∉ safe.toList

/-- The text of a keyfile has the groups and the keys of a WiFi profile, and no others. -/
def IsProfile (body : String) : Prop :=
  ∃ file psk ipv4, KeyFile.load body = some file ∧
    KeyFile.layout file = WifiJoin.askedLayout psk ipv4

/-- The settings that a connection may be given. -/
inductive Settings : List String → Prop where
  | auto : Settings autoSettings
  | manual {addr gw : String} {n : Int} {dns : List String} :
      IsAddress addr → 1 ≤ n ∧ n ≤ 32 → (gw ≠ "" → IsAddress gw) →
      (∀ server ∈ dns, IsAddress server) → Settings (manualSettings addr n gw dns)

/-- What goes on by itself. -/
inductive Detached : List String → Prop where
  | update : Detached [update]
  | rollback : Detached [rollback]
  | up {name : String} : CleanText 200 name → Detached [nmcli, "connection", "up", name]

def fixedCommands : List (List String) :=
  [[netctl, "status"], [nmcli, "radio", "wifi", "on"], [nmcli, "device", "wifi", "rescan"],
    scanCommand, activeCommand]

/-- The calls of the helper, where `systemd-run` is found in one place at most. -/
inductive Allowed (systemdRun : String) : Call → Prop where
  | fixed {argv : List String} : argv ∈ fixedCommands → Allowed systemdRun (.run argv)
  | netctlApply (fw ssh : Bool) :
      Allowed systemdRun (.run [netctl, "apply", onOff fw, onOff ssh])
  | probe : Allowed systemdRun (.probe slotLock)
  | which : Allowed systemdRun (.which "systemd-run")
  | unit {argv : List String} : Detached argv →
      Allowed systemdRun (.popen (unitCommand systemdRun argv))
  | plain {argv : List String} : Detached argv → Allowed systemdRun (.popen argv)
  | captiveDir : Allowed systemdRun (.makedirs captiveDir)
  | captiveWrite : Allowed systemdRun (.write captiveFile captiveBody none)
  | captiveExists : Allowed systemdRun (.pathExists captiveFile)
  | captiveRemove : Allowed systemdRun (.remove captiveFile)
  | keyfileDir : Allowed systemdRun (.makedirs nmConnDir)
  | keyfileWrite {path body : String} : IsKeyfile path → IsProfile body →
      Allowed systemdRun (.write path body (some 0o600))
  | keyfileLoad {path : String} : IsKeyfile path →
      Allowed systemdRun (.run [nmcli, "connection", "load", path])
  | keyfileRemove {path : String} : IsKeyfile path → Allowed systemdRun (.remove path)
  | joined {ssid : String} : CleanText 32 ssid →
      Allowed systemdRun (.run [nmcli, "connection", "up", "id", ssid])
  | dropped {ssid : String} : CleanText 32 ssid →
      Allowed systemdRun (.run [nmcli, "connection", "delete", "id", ssid])
  | shown (name : String) : Allowed systemdRun (.run (showCommand name))
  | modified {name : String} {mod : List String} : CleanText 200 name → Settings mod →
      Allowed systemdRun (.run ([nmcli, "connection", "modify", name] ++ mod))

/-- `systemd-run` is in its place or nowhere; all else may answer anything. -/
def Possible (systemdRun : String) : (c : Call) → Reply c → Prop
  | .which _, (found : Option String) => ∀ path, found = some path → path = systemdRun
  | _, _ => True

/-- A process that keeps to it. -/
abbrev Keeps {α : Type} (systemdRun : String) (p : Proc Call Reply α) : Prop :=
  Confined (Possible systemdRun) (Allowed systemdRun) p

/-! ### The actions -/

section Actions

variable {systemdRun : String}

theorem keeps_run {argv : List String} {k : Completed → Act}
    (hArgv : Allowed systemdRun (.run argv)) (hk : ∀ r, Keeps systemdRun (k r)) :
    Keeps systemdRun (run argv k) := by
  refine ⟨hArgv, fun (a : Except Raised Completed) _ => ?_⟩
  cases a with
  | error e => trivial
  | ok r => exact hk r

theorem keeps_runFixed {argv : List String} (hArgv : Allowed systemdRun (.run argv)) :
    Keeps systemdRun (runFixed argv) := by
  refine ⟨hArgv, fun (a : Except Raised Completed) _ => ?_⟩
  cases a with
  | error e => trivial
  | ok r =>
      dsimp only
      split_ifs
      · trivial
      · trivial

theorem keeps_spawnPlain {argv : List String} (h : Detached argv) :
    Keeps systemdRun (spawnPlain argv) := by
  refine ⟨.plain h, fun (a : Option String) _ => ?_⟩
  cases a with
  | none => trivial
  | some message => trivial

theorem keeps_spawnDetached {argv : List String} (h : Detached argv) :
    Keeps systemdRun (spawnDetached argv) := by
  refine ⟨.which, fun (found : Option String) hFound => ?_⟩
  cases found with
  | none => exact keeps_spawnPlain h
  | some sdr =>
      obtain rfl := hFound sdr rfl
      dsimp only
      split_ifs
      · exact keeps_spawnPlain h
      · refine ⟨.unit h, fun (a : Option String) _ => ?_⟩
        cases a with
        | none => trivial
        | some message => exact keeps_spawnPlain h

theorem keeps_reqBool {args : Fields} {key : String} {k : Bool → Act}
    (hk : ∀ b, Keeps systemdRun (k b)) : Keeps systemdRun (reqBool args key k) := by
  unfold reqBool
  split
  · exact hk _
  · trivial

theorem keeps_slotOperation {script : String} (h : Detached [script]) :
    Keeps systemdRun (slotOperation script) := by
  refine ⟨.probe, fun (busy : Bool) _ => ?_⟩
  cases busy with
  | true => trivial
  | false => exact keeps_spawnDetached h

theorem keeps_captiveWrite : Keeps systemdRun captiveWrite := by
  refine ⟨.captiveDir, fun (made : Option String) _ => ?_⟩
  cases made with
  | some e => trivial
  | none =>
      refine ⟨.captiveWrite, fun (written : Option String) _ => ?_⟩
      cases written with
      | some e => trivial
      | none => trivial

theorem keeps_captiveRemove : Keeps systemdRun captiveRemove := by
  refine ⟨.captiveExists, fun (found : Bool) _ => ?_⟩
  cases found with
  | false => trivial
  | true =>
      refine ⟨.captiveRemove, fun (removed : Option String) _ => ?_⟩
      cases removed with
      | some e => trivial
      | none => trivial

theorem keeps_actCaptive (args : Fields) : Keeps systemdRun (actCaptive args) := by
  unfold actCaptive
  split_ifs
  · exact keeps_captiveWrite
  · exact keeps_captiveRemove
  · trivial

theorem keeps_actWifiScan : Keeps systemdRun actWifiScan :=
  keeps_run (.fixed (by decide)) fun _ => keeps_run (.fixed (by decide)) fun _ =>
    keeps_run (.fixed (by decide)) fun _ => trivial

theorem keeps_netStatusLoop (ls : List String) (conns : List Json) :
    Keeps systemdRun (netStatusLoop ls conns) := by
  induction ls generalizing conns with
  | nil => trivial
  | cons line rest ih =>
      unfold netStatusLoop
      split
      · split_ifs
        · exact ih _
        · refine keeps_run (.shown _) fun d => ?_
          dsimp only
          split_ifs
          · exact ih _
          · exact ih _
      · exact ih _

theorem keeps_actNetStatus : Keeps systemdRun actNetStatus := by
  refine keeps_run (.fixed (by decide)) fun r => ?_
  split_ifs
  · trivial
  · exact keeps_netStatusLoop _ _

/-! ### Joining -/

theorem isKeyfile_path {host : WifiJoin.Host} (hHost : host.isAlnum '/' = false) {ssid : String}
    (h : ssid ≠ "") : IsKeyfile (keyfilePath host ssid) := by
  refine ⟨PyText.takeFirst (String.ofList (ssid.toList.map (WifiJoin.safeChar host))) 48, rfl,
    ?_, ?_, ?_⟩
  · intro hNil
    have hList := congrArg String.toList hNil
    rw [PyText.takeFirst, String.toList_ofList, String.toList_ofList] at hList
    have hEmpty : ssid.toList = [] := by
      simpa [List.take_eq_nil_iff] using hList
    exact h (String.toList_eq_nil_iff.mp hEmpty)
  · rw [PyText.takeFirst, String.length_ofList]
    exact List.length_take_le _ _
  · intro hMem
    rw [PyText.takeFirst, String.toList_ofList, String.toList_ofList] at hMem
    obtain ⟨c, -, hSafe⟩ := List.mem_map.mp (List.mem_of_mem_take hMem)
    unfold WifiJoin.safeChar at hSafe
    split_ifs at hSafe with hKept
    · rw [hSafe, hHost] at hKept
      revert hKept
      decide
    · revert hSafe
      decide

theorem cleanText_of_reqStr {v : WifiJoin.Arg} {key s : String} {maxlen : Nat}
    (h : WifiJoin.reqStr v key maxlen false = .ok s) : CleanText maxlen s := by
  obtain ⟨hGiven, hClean⟩ := WifiJoin.reqStr_ok h
  cases v with
  | missing => cases h
  | other => cases h
  | text v =>
      unfold WifiJoin.reqStr at h
      dsimp only at h
      split_ifs at h with hEmpty hLong hControl
      obtain rfl := Except.ok.inj h
      refine ⟨?_, not_lt.mp hLong, hClean⟩
      rintro rfl
      exact hEmpty rfl

theorem reqStr_of_plan {host : WifiJoin.Host} {args : WifiJoin.Args} {p : WifiJoin.Plan}
    (h : WifiJoin.plan host args = .ok p) :
    WifiJoin.reqStr args.ssid "ssid" 32 false = .ok p.ssid := by
  obtain ⟨sec, -, rfl, -⟩ := WifiJoin.plan_ok h
  cases hSsid : WifiJoin.reqStr args.ssid "ssid" 32 false with
  | error e =>
      rw [WifiJoin.plan, hSsid] at h
      cases h
  | ok ssid => rw [(WifiJoin.reqStr_ok hSsid).1]

theorem keeps_activate {host : WifiJoin.Host} (hHost : host.isAlnum '/' = false)
    {args : WifiJoin.Args} {p : WifiJoin.Plan} (h : WifiJoin.plan host args = .ok p) :
    Keeps systemdRun (activate p) := by
  have hSsid : CleanText 32 p.ssid := cleanText_of_reqStr (reqStr_of_plan h)
  have hPath : IsKeyfile p.path := by
    obtain ⟨sec, -, rfl, -⟩ := WifiJoin.plan_ok h
    exact isKeyfile_path hHost hSsid.some
  have hBody : IsProfile p.body := by
    obtain ⟨sec, hSec, rfl, hSsidChars, hPskChars⟩ := WifiJoin.plan_ok h
    obtain ⟨rfl, hValid⟩ := WifiJoin.ipv4Section_ok hSec
    obtain ⟨file, hLoad, hGroups⟩ := WifiJoin.load_body (WifiJoin.oneLine_of_chars hSsidChars)
      (WifiJoin.oneLine_of_chars hPskChars) (WifiJoin.says_addresses hValid)
    exact ⟨file, _, _, hLoad, WifiJoin.layout_body hGroups⟩
  refine ⟨.keyfileDir, fun (made : Option String) _ => ?_⟩
  cases made with
  | some e => trivial
  | none =>
      refine ⟨.keyfileWrite hPath hBody, fun (written : Option String) _ => ?_⟩
      cases written with
      | some e => trivial
      | none =>
          refine keeps_run (.keyfileLoad hPath) fun load => ?_
          split_ifs
          · exact ⟨.keyfileRemove hPath, fun _ _ => trivial⟩
          · refine keeps_run (.joined hSsid) fun up => ?_
            split_ifs
            · exact keeps_run (.dropped hSsid) fun _ =>
                ⟨.keyfileRemove hPath, fun _ _ => trivial⟩
            · trivial

theorem plan_of_joinPlan {host : Host} {args : Fields} {p : WifiJoin.Plan}
    (h : joinPlan host args = .ok p) : WifiJoin.plan host.toHost (joinArgs host args) = .ok p := by
  unfold joinPlan overflowed at h
  split_ifs at h
  · cases hPlan : WifiJoin.plan host.toHost { joinArgs host args with ipv4 := none } with
    | error r =>
        rw [hPlan] at h
        cases h
    | ok q =>
        rw [hPlan] at h
        cases h
  · cases hPlan : WifiJoin.plan host.toHost (joinArgs host args) with
    | error r =>
        rw [hPlan] at h
        cases h
    | ok q =>
        rw [hPlan] at h
        exact congrArg Except.ok (Except.ok.inj h)

theorem keeps_actWifiJoin {host : Host} (hHost : host.isAlnum '/' = false) (args : Fields) :
    Keeps systemdRun (actWifiJoin host args) := by
  unfold actWifiJoin
  split
  · trivial
  · next p hPlan => exact keeps_activate hHost (plan_of_joinPlan hPlan)

/-! ### Setting an address -/

theorem checkAddresses_ok {host : WifiJoin.Host} {addr gw : String} {ds servers : List String}
    (h : checkAddresses host addr gw ds = .ok servers) :
    IsAddress addr ∧ (gw ≠ "" → IsAddress gw) ∧ ∀ server ∈ servers, IsAddress server := by
  unfold checkAddresses at h
  cases hAddr : WifiJoin.ipv4Address host addr with
  | error e =>
      rw [hAddr] at h
      cases h
  | ok u =>
      rw [hAddr] at h
      have hRest : WifiJoin.dnsList host ds = .ok servers ∧ (gw ≠ "" → IsAddress gw) := by
        by_cases hGw : gw ≠ ""
        · cases hCheck : WifiJoin.ipv4Address host gw with
          | error e =>
              rw [if_pos hGw, hCheck] at h
              cases h
          | ok v =>
              rw [if_pos hGw, hCheck] at h
              exact ⟨h, fun _ => WifiJoin.isAddress_of_ok hCheck⟩
        · rw [if_neg hGw] at h
          exact ⟨h, fun hSome => absurd hSome hGw⟩
      obtain ⟨rfl, hAll⟩ := WifiJoin.dnsList_ok hRest.1
      exact ⟨WifiJoin.isAddress_of_ok hAddr, hRest.2, hAll⟩

theorem settings_ok {host : Host} {ipv4 : Fields} {mod : List String}
    (h : settings host ipv4 = .ok mod) : Settings mod := by
  unfold settings at h
  dsimp only at h
  split_ifs at h
  · obtain rfl := Except.ok.inj h
    exact .auto
  · split at h
    · cases h
    · cases h
    · next n _ =>
      split_ifs at h with hRange
      split at h
      · cases h
      · next dns hCheck =>
        obtain rfl := Except.ok.inj h
        obtain ⟨hAddr, hGw, hDns⟩ := checkAddresses_ok hCheck
        exact .manual hAddr hRange hGw hDns

theorem keeps_actNetSetIpv4 {host : Host} (args : Fields) :
    Keeps systemdRun (actNetSetIpv4 host args) := by
  unfold actNetSetIpv4
  split
  · trivial
  · next name hName =>
    have hClean := cleanText_of_reqStr hName
    split
    · trivial
    · split
      · trivial
      · next mod hMod =>
        refine keeps_run (.modified hClean (settings_ok hMod)) fun m => ?_
        split_ifs
        · trivial
        · exact keeps_spawnDetached (.up hClean)

theorem keeps_actions {host : Host} (hHost : host.isAlnum '/' = false) :
    ∀ entry ∈ actions host, ∀ args, Keeps systemdRun (entry.2 args) := by
  intro entry hEntry args
  simp only [actions, List.mem_cons, List.not_mem_nil, or_false] at hEntry
  rcases hEntry with rfl | rfl | rfl | rfl | rfl | rfl | rfl | rfl | rfl
  · exact keeps_runFixed (.fixed (by decide))
  · exact keeps_reqBool fun fw => keeps_reqBool fun ssh => keeps_runFixed (.netctlApply fw ssh)
  · exact keeps_slotOperation .update
  · exact keeps_slotOperation .rollback
  · exact keeps_actCaptive args
  · exact keeps_actWifiScan
  · exact keeps_actWifiJoin hHost args
  · exact keeps_actNetStatus
  · exact keeps_actNetSetIpv4 args

/-! ### The whole service -/

theorem keeps_perform {host : Host} (hHost : host.isAlnum '/' = false) (action : String)
    (args : Option Json) : Keeps systemdRun (perform host action args) := by
  unfold perform
  split
  · trivial
  · next handler hHandler =>
    have hKeeps : ∀ args, Keeps systemdRun (handler args) := by
      obtain ⟨before, after, hTable, -⟩ := List.lookup_eq_some_iff.mp hHandler
      exact keeps_actions hHost (action, handler) (by rw [hTable]; simp)
    split_ifs
    · split
      · exact (hKeeps _).map _
      · trivial
    · exact (hKeeps _).map _

theorem keeps_serveOne {host : Host} (hHost : host.isAlnum '/' = false)
    (incoming : Incoming UInt8) : Keeps systemdRun (serveOne host incoming) := by
  have hRequest : ∀ request, Keeps systemdRun (handleRequest host request) := by
    intro request
    unfold handleRequest
    split
    · trivial
    · split
      · exact (keeps_perform hHost _ _).map _
      · trivial
      · trivial
      · trivial
    · trivial
  unfold serveOne
  split
  · trivial
  · exact (hRequest _).map _

theorem keeps_serve {host : Host} (hHost : host.isAlnum '/' = false)
    (connections : List (Incoming UInt8)) : Keeps systemdRun (serve host connections) := by
  induction connections with
  | nil => trivial
  | cons incoming rest ih =>
      exact (keeps_serveOne hHost incoming).bind fun _ => ih.bind fun _ => trivial

end Actions

/-- **The broker.** Whatever is sent over any number of connections, and whatever comes back
from the system, the helper only ever makes calls that are allowed. -/
theorem helper_confined {host : Host} (hHost : host.isAlnum '/' = false) {systemdRun : String}
    {connections : List (Incoming UInt8)} {calls : List Call}
    {outcome : Option (List (Option (List UInt8)))}
    (hRun : Exec (Recorded (Possible systemdRun)) (serve host connections) [] calls outcome) :
    ∀ c ∈ calls, Allowed systemdRun c :=
  (keeps_serve hHost connections).exec hRun fun _ h => by cases h

/-! ### The password -/

/-- What shows of a call: all but the text of a file. -/
def Call.shown : Call → Call
  | .write path _ mode => .write path "" mode
  | c => c

/-- Surroundings that answer by what showed before, and to a write not by its text. -/
structure Surroundings where
  answers : List Call → (c : Call) → Reply c
  blind : ∀ past path body body' mode,
    answers past (.write path body mode) = answers past (.write path body' mode)

/-- The calls of a run are written down as they show. -/
def Surroundings.respond (w : Surroundings) (c : Call) (past : List Call) :
    Reply c × List Call := (w.answers past c, past ++ [c.shown])

/-- A password that passes the checks, or none. -/
def AcceptedPsk (args : Fields) : Prop :=
  ∃ psk, WifiJoin.reqStr (textArg (Json.get? args "psk")) "psk" 63 true = .ok psk ∧
    (psk = "" ∨ 8 ≤ psk.length)

/-- Two requests that are alike but for their passwords, both of which pass the checks. -/
structure SameButPsk (args args' : Fields) : Prop where
  ssid : Json.get? args "ssid" = Json.get? args' "ssid"
  ipv4 : Json.get? args "ipv4" = Json.get? args' "ipv4"
  psk : AcceptedPsk args
  psk' : AcceptedPsk args'

/-- Two plans, or two refusals, that differ in the text of the keyfile alone. -/
inductive SamePlan {ε : Type} : Except ε WifiJoin.Plan → Except ε WifiJoin.Plan → Prop where
  | refused (r : ε) : SamePlan (.error r) (.error r)
  | planned {p p' : WifiJoin.Plan} : p.ssid = p'.ssid → p.path = p'.path →
      SamePlan (.ok p) (.ok p')

theorem SamePlan.mapError {ε ε' : Type} {x x' : Except ε WifiJoin.Plan} (h : SamePlan x x')
    (f : ε → ε') : SamePlan (x.mapError f) (x'.mapError f) := by
  cases h with
  | refused r => exact .refused _
  | planned hSsid hPath => exact .planned hSsid hPath

theorem SamePlan.overflowed {x x' : Except WifiJoin.Refusal WifiJoin.Plan} (h : SamePlan x x') :
    SamePlan (Helperd.overflowed x) (Helperd.overflowed x') := by
  cases h with
  | refused r => exact .refused _
  | planned hSsid hPath => exact .refused _

theorem plan_samePlan (host : WifiJoin.Host) {v v' : WifiJoin.Arg} (ssid : WifiJoin.Arg)
    (ipv4 : Option WifiJoin.Ipv4Args) {psk psk' : String}
    (hPsk : WifiJoin.reqStr v "psk" 63 true = .ok psk) (hLong : psk = "" ∨ 8 ≤ psk.length)
    (hPsk' : WifiJoin.reqStr v' "psk" 63 true = .ok psk')
    (hLong' : psk' = "" ∨ 8 ≤ psk'.length) :
    SamePlan (WifiJoin.plan host ⟨ssid, v, ipv4⟩) (WifiJoin.plan host ⟨ssid, v', ipv4⟩) := by
  have hNotShort : ∀ psk : String, psk = "" ∨ 8 ≤ psk.length →
      ¬ (psk ≠ "" ∧ psk.length < 8) := by
    rintro psk (hNone | hLong) ⟨hSome, hShort⟩
    · exact hSome hNone
    · omega
  unfold WifiJoin.plan
  cases WifiJoin.reqStr ssid "ssid" 32 false with
  | error e => exact .refused _
  | ok name =>
      dsimp only
      rw [hPsk, hPsk']
      simp only [Except.mapError, bind, Except.bind, if_neg (hNotShort _ hLong),
        if_neg (hNotShort _ hLong')]
      cases WifiJoin.ipv4Section host ipv4 with
      | error e => exact .refused _
      | ok sec => exact .planned rfl rfl

theorem joinPlan_samePlan (host : Host) {args args' : Fields} (h : SameButPsk args args') :
    SamePlan (joinPlan host args) (joinPlan host args') := by
  obtain ⟨psk, hPsk, hLong⟩ := h.psk
  obtain ⟨psk', hPsk', hLong'⟩ := h.psk'
  have hIpv4 : ipv4Fields args = ipv4Fields args' := by rw [ipv4Fields, ipv4Fields, h.ipv4]
  have hPlans (ipv4 : Option WifiJoin.Ipv4Args) :=
    plan_samePlan host.toHost (textArg (Json.get? args' "ssid")) ipv4 hPsk hLong hPsk' hLong'
  unfold joinPlan overflows joinArgs
  rw [hIpv4, h.ssid]
  split_ifs
  · exact (hPlans none).overflowed
  · exact (hPlans _).mapError refusal

/-- A join goes on from its plan. -/
def fromPlan (x : Except (Except Raised WifiJoin.Answer) WifiJoin.Plan) : Act :=
  match x with
  | .error outcome => .ret outcome
  | .ok plan => activate plan

theorem activate_runWith (w : Surroundings) {p p' : WifiJoin.Plan} (hSsid : p.ssid = p'.ssid)
    (hPath : p.path = p'.path) (n : Nat) (past : List Call) :
    (activate p).runWith w.respond n past = (activate p').runWith w.respond n past := by
  obtain ⟨ssid, path, body⟩ := p
  obtain ⟨ssid', path', body'⟩ := p'
  obtain rfl : ssid = ssid' := hSsid
  obtain rfl : path = path' := hPath
  cases n with
  | zero => rfl
  | succ n =>
      unfold activate
      rw [Proc.runWith, Proc.runWith]
      generalize (w.respond (.makedirs nmConnDir) past).1 = made
      cases made with
      | some e => rfl
      | none =>
          cases n with
          | zero => rfl
          | succ n =>
              have hWritten : (w.respond (.write path body (some 0o600))
                    (w.respond (.makedirs nmConnDir) past).2) =
                  (w.respond (.write path body' (some 0o600))
                    (w.respond (.makedirs nmConnDir) past).2) :=
                Prod.ext (w.blind _ _ _ _ _) rfl
              dsimp only
              rw [Proc.runWith, Proc.runWith, hWritten]
              generalize (w.respond (.write path body' (some 0o600))
                (w.respond (.makedirs nmConnDir) past).2).1 = written
              cases written with
              | some e => rfl
              | none => rfl

theorem SamePlan.runWith {x x' : Except (Except Raised WifiJoin.Answer) WifiJoin.Plan}
    (h : SamePlan x x') (w : Surroundings) (n : Nat) (past : List Call) :
    (fromPlan x).runWith w.respond n past = (fromPlan x').runWith w.respond n past := by
  cases h with
  | refused r => rfl
  | planned hSsid hPath => exact activate_runWith w hSsid hPath n past

theorem perform_wifi_join (host : Host) (args : Fields) :
    perform host "wifi_join" (some (.obj args)) = rescue <$> actWifiJoin host args := by
  cases args with
  | nil => rfl
  | cons arg args => rfl

/-- **The password.** Two joins that are alike but for their passwords, each none or one that
passes the checks, make the same calls, and are answered alike, as long as the same comes back
from them. Only the text of the keyfile differs. A password that is refused makes no call. -/
theorem password_unseen {host : Host} {args args' : Fields} (h : SameButPsk args args')
    (w : Surroundings) (n : Nat) :
    (perform host "wifi_join" (some (.obj args))).runWith w.respond n [] =
      (perform host "wifi_join" (some (.obj args'))).runWith w.respond n [] := by
  have hRun : (actWifiJoin host args).runWith w.respond n [] =
      (actWifiJoin host args').runWith w.respond n [] :=
    (joinPlan_samePlan host h).runWith w n []
  rw [perform_wifi_join, perform_wifi_join, Proc.runWith_map, Proc.runWith_map, hRun]

/-- Everything goes well. -/
def fairSurroundings : Surroundings where
  answers _ c :=
    match c with
    | .run _ => Except.ok ⟨0, "", ""⟩
    | .popen _ => (none : Option String)
    | .which _ => (none : Option String)
    | .probe _ => false
    | .pathExists _ => false
    | .makedirs _ => (none : Option String)
    | .write .. => (none : Option String)
    | .remove _ => (none : Option String)
  blind _ _ _ _ _ := rfl

def barnArgs (psk : String) : Fields := [("ssid", .str "Barn"), ("psk", .str psk)]

/-- A join that comes in one piece. -/
def joinCall : Incoming UInt8 where
  chunks := [lineOf (callRequest "wifi_join" (barnArgs "sunny days"))]
  closes := false

/-- The calls of a join that goes well. -/
def joinCalls (plan : WifiJoin.Plan) : List Call :=
  [.makedirs nmConnDir, .write plan.path plan.body (some 0o600),
    .run [nmcli, "connection", "load", plan.path],
    .run [nmcli, "connection", "up", "id", plan.ssid]]

theorem exec_joinCall {systemdRun : String} {plan : WifiJoin.Plan}
    (hPlan : joinPlan plainHost (barnArgs "sunny days") = .ok plan) :
    Exec (Recorded (Possible systemdRun)) (serve plainHost [joinCall]) [] (joinCalls plan)
      (some [some (lineOf (answerJson { ok := true, out := "connected", err := "" }))]) := by
  have hFits : plainDecoder.Fits 1000 (callRequest "wifi_join" (barnArgs "sunny days")) := by
    refine fits_call fun arg hArg => ?_
    simp only [barnArgs, List.mem_cons, List.not_mem_nil, or_false] at hArg
    rcases hArg with rfl | rfl <;> exact .str _ _
  rw [serve, serveOne_request hFits (by decide +kernel) (by decide +kernel) (by simp [joinCall]),
    handleRequest_call, perform_wifi_join, actWifiJoin, hPlan]
  refine Exec.eff (a := (none : Option String)) ⟨trivial, rfl⟩ ?_
  refine Exec.eff (a := (none : Option String)) ⟨trivial, rfl⟩ ?_
  refine Exec.eff (a := Except.ok ⟨0, "", ""⟩) ⟨trivial, rfl⟩ ?_
  exact Exec.eff (a := Except.ok ⟨0, "", ""⟩) ⟨trivial, rfl⟩ (Exec.ret _ _)

/-- A join that is sent over the socket keeps to what is allowed, from the keyfile on. -/
theorem helper_confined_join : ∃ plan, joinPlan plainHost (barnArgs "sunny days") = .ok plan ∧
    ∀ c ∈ joinCalls plan, Allowed "/usr/bin/systemd-run" c :=
  ⟨_, rfl, helper_confined (by decide) (exec_joinCall rfl)⟩

theorem sameButPsk_barn : SameButPsk (barnArgs "sunny days") (barnArgs "rainy days") where
  ssid := rfl
  ipv4 := rfl
  psk := ⟨"sunny days", rfl, Or.inr (by decide)⟩
  psk' := ⟨"rainy days", rfl, Or.inr (by decide)⟩

theorem password_unseen_barn :
    (perform plainHost "wifi_join" (some (.obj (barnArgs "sunny days")))).runWith
        fairSurroundings.respond 9 [] =
      (perform plainHost "wifi_join" (some (.obj (barnArgs "rainy days")))).runWith
        fairSurroundings.respond 9 [] :=
  password_unseen sameButPsk_barn fairSurroundings 9

end Helperd
