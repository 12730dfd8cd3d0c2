import Mathlib.Data.List.Sort
import WattPost.Cloud.ExtrasTrim
import WattPost.Lib.PyLines
import WattPost.Lib.PyNumber
import WattPost.Net.NmcliTerse
import WattPost.Net.WifiJoin

/-! The helper's `wifi_scan` action: the networks in sight, each once, the strongest first. -/
namespace WifiScan

open NmcliTerse
open PyDict (Dict)

/-! ### The action -/

/-- How one nmcli call ends. -/
inductive Run where
  | done (returncode : Int) (stdout stderr : String)
  | raised (message : String)
deriving DecidableEq

/-- An entry of the answer. -/
structure Network where
  ssid : String
  signal : Int
  secure : Bool
  inUse : Bool
deriving DecidableEq

/-- One turn of the loop, up to the table. -/
def entryOf (line : String) : Option Network :=
  match scanColumns line with
  | none => none
  | some (signalS, security, inUse, ssid) =>
      if ssid = "" then none
      else some {
        ssid := ssid
        signal := (PyNumber.int signalS).getD 0
        secure := security ≠ "" ∧ security ≠ "--"
        inUse := PyText.strip inUse = "*" }

/-- The table keeps the strongest beacon of an SSID. -/
def keepStrongest (best : Dict Network) (entry : Network) : Dict Network :=
  match best.get entry.ssid with
  | none => best.set entry.ssid entry
  | some old => if old.signal < entry.signal then best.set entry.ssid entry else best

def entries (stdout : String) : List Network :=
  (PyLines.splitlines stdout.toList).filterMap fun line => entryOf (String.ofList line)

def best (stdout : String) : Dict Network := (entries stdout).foldl keepStrongest .empty

/-- `sorted(best.values(), key=lambda e: e["signal"], reverse=True)`. -/
def networks (stdout : String) : List Network :=
  ((best stdout).entries.map Prod.snd).insertionSort fun a b => b.signal ≤ a.signal

/-- `json.dumps` of an entry. -/
def networkText (n : Network) : String :=
  "\x7b\"ssid\": " ++ String.ofList (WattPost.Cloud.ExtrasTrim.asciiString n.ssid) ++
  ", \"signal\": " ++ toString n.signal ++
  ", \"secure\": " ++ (if n.secure then "true" else "false") ++
  ", \"in_use\": " ++ (if n.inUse then "true" else "false") ++ "\x7d"

def networksText (ns : List Network) : String :=
  "[" ++ String.intercalate ", " (ns.map networkText) ++ "]"

/-- What becomes of the list that nmcli printed. -/
def answer (returncode : Int) (stdout stderr : String) : WifiJoin.Answer :=
  if returncode ≠ 0 then
    { ok := false
      out := ""
      err := PyText.strip (if stderr = "" then "nmcli failed" else stderr) }
  else { ok := true, out := networksText (networks stdout), err := "" }

/-- `_act_wifi_scan`: how its three nmcli calls end. What the first two say does not matter. -/
def actWifiScan (radio rescan list : Run) : Except String WifiJoin.Answer :=
  match radio, rescan, list with
  | .raised message, _, _ => .error message
  | .done .., .raised message, _ => .error message
  | .done .., .done .., .raised message => .error message
  | .done .., .done .., .done returncode stdout stderr => .ok (answer returncode stdout stderr)

/-! ### What nmcli prints -/

/-- An access point in sight, with its signal in percent. -/
structure AccessPoint where
  signal : Nat
  percent : signal ≤ 100
  security : String
  inUse : Bool
  ssid : String
deriving DecidableEq

/-- A text in which no line ends. -/
def OneLine (s : String) : Prop := ∀ c ∈ s.toList, PyLines.isLineBreak c = false

structure AccessPoint.Printable (ap : AccessPoint) : Prop where
  security : Plain ap.security
  securityLine : OneLine ap.security
  ssidLine : OneLine ap.ssid

def AccessPoint.line (ap : AccessPoint) : String :=
  terseLine [ap.signal.repr, ap.security, if ap.inUse then "*" else " ", ap.ssid]

/-- The list of access points. -/
def output (aps : List AccessPoint) : String :=
  String.ofList ((aps.map fun ap => ap.line.toList).flatMap (· ++ ['\n']))

/-- An access point as the answer tells it. -/
def AccessPoint.network (ap : AccessPoint) : Network where
  ssid := ap.ssid
  signal := ap.signal
  secure := ap.security ≠ "" ∧ ap.security ≠ "--"
  inUse := ap.inUse

/-- The networks of some access points: each SSID once, as its strongest access point has it,
and the strongest first. Those that hide their SSID are left out. -/
structure Lists (ns : List Network) (aps : List AccessPoint) : Prop where
  once : (ns.map Network.ssid).Nodup
  all : ∀ ap ∈ aps, ap.ssid ≠ "" → ap.ssid ∈ ns.map Network.ssid
  strongest : ∀ n ∈ ns, n.ssid ≠ "" ∧ ∃ ap ∈ aps, n = ap.network ∧
    ∀ other ∈ aps, other.ssid = ap.ssid → other.signal ≤ ap.signal
  sorted : ns.Pairwise fun a b => b.signal ≤ a.signal

/-! ### Every line is read -/

theorem plain_repr (n : Nat) : Plain n.repr :=
  ⟨fun hColon => absurd (PyText.isDigit_of_mem_repr hColon) (by decide),
    fun hMark => absurd (PyText.isDigit_of_mem_repr hMark) (by decide)⟩

theorem entryOf_line {ap : AccessPoint} (h : ap.Printable) :
    entryOf ap.line = if ap.ssid = "" then none else some ap.network := by
  have hInUse : Plain (if ap.inUse then "*" else " ") := by
    split_ifs
    · exact ⟨by decide, by decide⟩
    · exact ⟨by decide, by decide⟩
  have hStar : decide (PyText.strip (if ap.inUse then "*" else " ") = "*") = ap.inUse := by
    cases ap.inUse with
    | false => decide
    | true => decide
  rw [entryOf, AccessPoint.line,
    scanColumns_terseLine (plain_repr _) h.security hInUse ap.ssid]
  simp only [PyNumber.int_repr, hStar, Option.getD_some]
  rfl

theorem oneLine_inUse (inUse : Bool) : OneLine (if inUse then "*" else " ") := by
  cases inUse with
  | false => exact List.forall_mem_singleton.mpr rfl
  | true => exact List.forall_mem_singleton.mpr rfl

theorem oneLine_line {ap : AccessPoint} (h : ap.Printable) : OneLine ap.line := by
  intro c hc
  rw [AccessPoint.line, toList_terseLine] at hc
  rcases EscapedFields.mem_join hc with rfl | rfl | ⟨field, hField, hMem⟩
  · rfl
  · rfl
  · obtain ⟨s, hs, rfl⟩ := List.mem_map.mp hField
    simp only [List.mem_cons, List.not_mem_nil, or_false] at hs
    rcases hs with rfl | rfl | rfl | rfl
    · have := PyText.digit_range (PyText.isDigit_of_mem_repr hMem)
      exact PyLines.isLineBreak_of_range (by omega)
    · exact h.securityLine c hMem
    · exact oneLine_inUse ap.inUse c hMem
    · exact h.ssidLine c hMem

theorem entries_output {aps : List AccessPoint} (h : ∀ ap ∈ aps, ap.Printable) :
    entries (output aps) = (aps.filter fun ap => ap.ssid ≠ "").map AccessPoint.network := by
  have hLines : ∀ line ∈ aps.map fun ap => ap.line.toList,
      ∀ c ∈ line, PyLines.isLineBreak c = false := by
    intro line hLine
    obtain ⟨ap, hap, rfl⟩ := List.mem_map.mp hLine
    exact oneLine_line (h ap hap)
  rw [entries, output, String.toList_ofList, PyLines.splitlines_flatMap hLines,
    List.filterMap_map, ← List.filterMap_eq_map, List.filterMap_filter]
  refine List.filterMap_congr fun ap hap => ?_
  rw [Function.comp_apply, String.ofList_toList, entryOf_line (h ap hap)]
  by_cases hHidden : ap.ssid = ""
  · simp [hHidden]
  · simp [hHidden]

/-! ### The table -/

/-- What the table holds of the entries seen so far. -/
structure Best (seen : List Network) (best : Dict Network) : Prop where
  found : ∀ n ∈ seen, best.get n.ssid ≠ none
  strongest : ∀ s n, best.get s = some n →
    n.ssid = s ∧ n ∈ seen ∧ ∀ m ∈ seen, m.ssid = s → m.signal ≤ n.signal

/-- An entry that no earlier one of its SSID exceeds is put in. -/
theorem Best.put {seen : List Network} {best : Dict Network} (h : Best seen best)
    {entry : Network} (hStrong : ∀ m ∈ seen, m.ssid = entry.ssid → m.signal ≤ entry.signal) :
    Best (seen ++ [entry]) (best.set entry.ssid entry) := by
  constructor
  · intro n hn
    rw [Dict.get_set]
    split_ifs with hSame
    · exact Option.some_ne_none _
    · rcases List.mem_append.mp hn with hn | hn
      · exact h.found n hn
      · exact absurd (congrArg Network.ssid (List.mem_singleton.mp hn)) hSame
  · intro s n hGet
    rw [Dict.get_set] at hGet
    split_ifs at hGet with hSame
    · obtain rfl := Option.some.inj hGet
      refine ⟨hSame.symm, List.mem_append_right _ List.mem_cons_self, fun m hm hName => ?_⟩
      rcases List.mem_append.mp hm with hm | hm
      · exact hStrong m hm (hName.trans hSame)
      · rw [List.mem_singleton.mp hm]
    · obtain ⟨hName, hSeen, hStrongest⟩ := h.strongest s n hGet
      refine ⟨hName, List.mem_append_left _ hSeen, fun m hm hm' => ?_⟩
      rcases List.mem_append.mp hm with hm | hm
      · exact hStrongest m hm hm'
      · rw [List.mem_singleton.mp hm] at hm'
        exact absurd hm'.symm hSame

/-- An entry that is no stronger than the one in the table is left out. -/
theorem Best.leave {seen : List Network} {best : Dict Network} (h : Best seen best)
    {entry old : Network} (hOld : best.get entry.ssid = some old)
    (hWeak : entry.signal ≤ old.signal) : Best (seen ++ [entry]) best := by
  constructor
  · intro n hn
    rcases List.mem_append.mp hn with hn | hn
    · exact h.found n hn
    · rw [List.mem_singleton.mp hn, hOld]
      exact Option.some_ne_none _
  · intro s n hGet
    obtain ⟨hName, hSeen, hStrongest⟩ := h.strongest s n hGet
    refine ⟨hName, List.mem_append_left _ hSeen, fun m hm hm' => ?_⟩
    rcases List.mem_append.mp hm with hm | hm
    · exact hStrongest m hm hm'
    · obtain rfl := List.mem_singleton.mp hm
      rw [← hm', hOld] at hGet
      rw [← Option.some.inj hGet]
      exact hWeak

theorem Best.step {seen : List Network} {best : Dict Network} (h : Best seen best)
    (entry : Network) : Best (seen ++ [entry]) (keepStrongest best entry) := by
  unfold keepStrongest
  cases hOld : best.get entry.ssid with
  | none =>
      refine h.put fun m hm hSame => ?_
      exact absurd (hSame ▸ hOld) (h.found m hm)
  | some old =>
      obtain ⟨-, -, hStrongest⟩ := h.strongest _ _ hOld
      dsimp only
      split_ifs with hStronger
      · exact h.put fun m hm hSame => (hStrongest m hm hSame).trans hStronger.le
      · exact h.leave hOld (not_lt.mp hStronger)

theorem best_foldl (seen : List Network) : Best seen (seen.foldl keepStrongest .empty) := by
  induction seen using List.reverseRecOn with
  | nil =>
      refine ⟨fun _ hn => absurd hn List.not_mem_nil, fun s n hGet => ?_⟩
      cases hGet
  | append_singleton seen entry ih =>
      rw [List.foldl_append]
      exact ih.step entry

/-! ### The answer -/

theorem networks_sorted (stdout : String) :
    (networks stdout).Pairwise fun a b => b.signal ≤ a.signal := by
  have : Std.Total fun a b : Network => b.signal ≤ a.signal :=
    ⟨fun a b => le_total b.signal a.signal⟩
  have : IsTrans Network fun a b => b.signal ≤ a.signal := ⟨fun _ _ _ hab hbc => hbc.trans hab⟩
  exact List.pairwise_insertionSort _ _

theorem mem_networks {stdout : String} {n : Network} :
    n ∈ networks stdout ↔ (best stdout).get n.ssid = some n := by
  have hBest : Best (entries stdout) (best stdout) := best_foldl _
  rw [networks, (List.perm_insertionSort _ _).mem_iff, List.mem_map]
  constructor
  · rintro ⟨⟨s, n⟩, hMem, rfl⟩
    have hGet := Dict.mem_iff_get.mp hMem
    obtain ⟨hName, -, -⟩ := hBest.strongest s n hGet
    rw [hName]
    exact hGet
  · exact fun hGet => ⟨(n.ssid, n), Dict.mem_iff_get.mpr hGet, rfl⟩

theorem networks_once (stdout : String) : ((networks stdout).map Network.ssid).Nodup := by
  have hBest : Best (entries stdout) (best stdout) := best_foldl _
  have hKeys : ((best stdout).entries.map Prod.snd).map Network.ssid = (best stdout).keys := by
    rw [List.map_map]
    refine List.map_congr_left fun e he => ?_
    obtain ⟨hName, -, -⟩ := hBest.strongest e.1 e.2 (Dict.mem_iff_get.mp he)
    exact hName
  refine (((List.perm_insertionSort _ _).map Network.ssid).nodup_iff).mpr ?_
  rw [hKeys]
  exact (best stdout).nodup

/-- Every access point that shows its SSID is listed under it, as the strongest one of that
SSID. -/
theorem networks_output {aps : List AccessPoint} (h : ∀ ap ∈ aps, ap.Printable) :
    Lists (networks (output aps)) aps := by
  have hBest : Best (entries (output aps)) (best (output aps)) := best_foldl _
  have hEntries := entries_output h
  have hSeen : ∀ n, n ∈ entries (output aps) ↔ ∃ ap ∈ aps, ap.ssid ≠ "" ∧ ap.network = n := by
    intro n
    simp [hEntries, and_assoc]
  refine ⟨networks_once _, ?_, ?_, networks_sorted _⟩
  · intro ap hap hShown
    have hFound := hBest.found _ ((hSeen _).mpr ⟨ap, hap, hShown, rfl⟩)
    obtain ⟨n, hGet⟩ := Option.ne_none_iff_exists'.mp hFound
    obtain ⟨hName, -, -⟩ := hBest.strongest _ _ hGet
    exact List.mem_map.mpr ⟨n, mem_networks.mpr (hName.symm ▸ hGet), hName⟩
  · intro n hn
    obtain ⟨-, hMem, hStrongest⟩ := hBest.strongest _ _ (mem_networks.mp hn)
    obtain ⟨ap, hap, hShown, rfl⟩ := (hSeen n).mp hMem
    refine ⟨hShown, ap, hap, rfl, fun other hOther hSame => ?_⟩
    have hOtherShown : other.ssid ≠ "" := hSame ▸ hShown
    have hLe := hStrongest other.network ((hSeen _).mpr ⟨other, hOther, hOtherShown, rfl⟩) hSame
    exact Int.ofNat_le.mp hLe

/-- **The scan.** Whatever the SSIDs are made of, as long as no line ends in them, the action
answers with the networks that nmcli printed, whatever the calls before the list exit with. A call
that raises, on a timeout for instance, ends the scan without a list. -/
theorem actWifiScan_lists {aps : List AccessPoint} (h : ∀ ap ∈ aps, ap.Printable)
    (radioCode rescanCode : Int) (radioOut radioErr rescanOut rescanErr stderr : String) :
    ∃ ns, actWifiScan (.done radioCode radioOut radioErr) (.done rescanCode rescanOut rescanErr)
        (.done 0 (output aps) stderr) =
          .ok { ok := true, out := networksText ns, err := "" } ∧ Lists ns aps :=
  ⟨networks (output aps), rfl, networks_output h⟩

theorem oneLine_of_all {s : String} (h : s.toList.all (fun c => !PyLines.isLineBreak c) = true) :
    OneLine s := fun c hc => by simpa using List.all_eq_true.mp h c hc

theorem printable_colon (signal : Nat) (percent : signal ≤ 100) :
    (⟨signal, percent, "WPA2", false, "a:b"⟩ : AccessPoint).Printable where
  security := show ':' ∉ "WPA2".toList ∧ '\\' ∉ "WPA2".toList by decide
  securityLine := oneLine_of_all
    (show "WPA2".toList.all (fun c => !PyLines.isLineBreak c) = true by decide)
  ssidLine := oneLine_of_all
    (show "a:b".toList.all (fun c => !PyLines.isLineBreak c) = true by decide)

theorem actWifiScan_lists_colon :
    ∃ ns, actWifiScan (.done 1 "" "no radio") (.done 0 "" "")
        (.done 0 (output [⟨40, by decide, "WPA2", false, "a:b"⟩,
          ⟨70, by decide, "WPA2", false, "a:b"⟩]) "") =
          .ok { ok := true, out := networksText ns, err := "" } ∧
      Lists ns [⟨40, by decide, "WPA2", false, "a:b"⟩, ⟨70, by decide, "WPA2", false, "a:b"⟩] :=
  actWifiScan_lists
    (by
      intro ap hap
      rcases List.mem_pair.mp hap with rfl | rfl
      · exact printable_colon 40 (by decide)
      · exact printable_colon 70 (by decide))
    1 0 "" "no radio" "" "" ""

/-- An SSID in which a line ends is cut there. -/
example : networks (output [⟨70, by decide, "WPA2", false, "a\u2028b"⟩]) =
    [⟨"a", 70, true, false⟩] := by decide +kernel

end WifiScan
