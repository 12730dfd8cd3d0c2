import Mathlib.Tactic.IntervalCases
import WattPost.Net.WifiJoin

/-! What NetworkManager reads in the keyfile of a join. The values are pasted into the file as
they are, so an SSID or a password with a leading blank or a backslash is read as another one,
and an SSID that looks like a list of bytes is taken for one. -/
namespace WifiJoin

open PyDict KeyFile NmProfile

/-! ### What was asked for -/

/-- The addresses that the arguments ask for. -/
def Args.askedIpv4 (args : Args) : Option StaticIpv4 :=
  match args.ipv4 with
  | none => none
  | some ipv4 =>
      if ipv4.method ≠ some "manual" then none
      else some {
        address := PyText.strip ipv4.address
        prefixLength := ipv4.prefixLength.getD 24
        gateway := if PyText.strip ipv4.gateway ≠ "" then some (PyText.strip ipv4.gateway) else none
        dns := PyText.words (PyText.replaceChar ipv4.dns ',' ' ') }

/-- The keys of the addresses. -/
def askedKeys : Option StaticIpv4 → List String
  | none => ["method"]
  | some ipv4 => ["method", "address1"] ++ if ipv4.dns.isEmpty then [] else ["dns"]

/-- The groups of the keyfile and their keys. -/
def askedLayout (psk : String) (ipv4 : Option StaticIpv4) : List (String × List String) :=
  [("connection", ["id", "type", "autoconnect"]), ("wifi", ["mode", "ssid"])] ++
  (if psk ≠ "" then [("wifi-security", ["key-mgmt", "psk"])] else []) ++
  [("ipv4", askedKeys ipv4), ("ipv6", ["method"])]

/-- The keyfile says what was asked for, and nothing else. -/
def Faithful (args : Args) (body : String) : Prop :=
  ∃ file, KeyFile.load body = some file ∧
    layout file = askedLayout args.psk.given args.askedIpv4 ∧
    wifiSsid file = some args.ssid.given.toUTF8 ∧
    wifiPsk file = (if args.psk.given ≠ "" then some args.psk.given else none) ∧
    wifiIpv4 file = some args.askedIpv4

/-! ### Addresses -/

def isAddressChar (c : Char) : Bool := c.isDigit || c = '.'

/-- The characters of an address are digits and dots. -/
structure IsAddress (s : String) : Prop where
  chars : ∀ c ∈ s.toList, isAddressChar c = true
  ne : s ≠ ""

theorem IsAddress.notMem {s : String} (h : IsAddress s) {c : Char}
    (hc : isAddressChar c = false) : c ∉ s.toList := by
  intro hMem
  rw [h.chars c hMem] at hc
  cases hc

theorem digitsValue_chars {cs : List Char} {n : Nat} (h : PyText.digitsValue cs = some n) :
    ∀ c ∈ cs, c.isDigit = true := by
  unfold PyText.digitsValue at h
  split_ifs at h with hBad
  simp only [Bool.or_eq_true, Bool.not_eq_true', not_or, Bool.not_eq_false] at hBad
  exact List.all_eq_true.mp hBad.2

theorem isAddress_of_ok {host : Host} {s : String} {u : Unit} (h : ipv4Address host s = .ok u) :
    IsAddress s := by
  unfold ipv4Address at h
  dsimp only at h
  split_ifs at h with hOctets
  obtain ⟨hFour, hAll⟩ := hOctets
  constructor
  · intro c hc
    rcases PyText.mem_splitChars (c := '.') hc with rfl | ⟨octet, hOctet, hMem⟩
    · rfl
    · have hValue := hAll octet hOctet
      unfold isOctet at hValue
      rw [Bool.and_eq_true, Option.any_eq_true] at hValue
      obtain ⟨n, hn, _⟩ := hValue.2
      rw [isAddressChar, digitsValue_chars hn c hMem, Bool.true_or]
  · rintro rfl
    cases hFour

/-- A fixed address that passed the checks. -/
structure ValidIpv4 (ipv4 : StaticIpv4) : Prop where
  address : IsAddress ipv4.address
  length : 1 ≤ ipv4.prefixLength ∧ ipv4.prefixLength ≤ 32
  gateway : ∀ gw, ipv4.gateway = some gw → IsAddress gw
  dns : ∀ server ∈ ipv4.dns, IsAddress server

/-- The value of `address1`. -/
def address1Text (ipv4 : StaticIpv4) : String :=
  ipv4.address ++ "/" ++ toString ipv4.prefixLength ++
    match ipv4.gateway with
    | none => ""
    | some gw => "," ++ gw

/-- The value of `dns`. -/
def dnsText (servers : List String) : String := String.intercalate ";" servers ++ ";"

/-- The addresses as `_ipv4_section` writes them. -/
def sectionText : Option StaticIpv4 → String
  | none => "[ipv4]\nmethod=auto\n"
  | some ipv4 =>
      "[ipv4]\n" ++ "method=manual\n" ++ ("address1=" ++ address1Text ipv4 ++ "\n") ++
        if ipv4.dns.isEmpty then "" else "dns=" ++ dnsText ipv4.dns ++ "\n"

theorem dnsList_ok {host : Host} {ds servers : List String} (h : dnsList host ds = .ok servers) :
    servers = ds ∧ ∀ server ∈ ds, IsAddress server := by
  induction ds generalizing servers with
  | nil =>
      cases h
      exact ⟨rfl, fun _ hMem => absurd hMem List.not_mem_nil⟩
  | cons d rest ih =>
      rw [dnsList] at h
      cases hHead : ipv4Address host d with
      | error e =>
          rw [hHead] at h
          cases h
      | ok u =>
          cases hRest : dnsList host rest with
          | error e =>
              rw [hHead, hRest] at h
              cases h
          | ok found =>
              rw [hHead, hRest] at h
              obtain ⟨rfl, hAll⟩ := ih hRest
              cases h
              exact ⟨rfl, List.forall_mem_cons.mpr ⟨isAddress_of_ok hHead, hAll⟩⟩

theorem append_if_empty (sec : String) (servers : List String) :
    (if servers.isEmpty then sec else sec ++ "dns=" ++ String.intercalate ";" servers ++ ";\n") =
      sec ++ if servers.isEmpty then "" else "dns=" ++ dnsText servers ++ "\n" := by
  have hEnd : (";\n" : String) = ";" ++ "\n" := by decide
  split_ifs
  · rw [String.append_empty]
  · rw [dnsText, hEnd]
    simp only [String.append_assoc]

/-- The checks of a fixed address, and what they let through. -/
theorem staticSection_ok {host : Host} {addr gw sec : String} {n : Int} {ds : List String}
    (hRange : 1 ≤ n ∧ n ≤ 32) (h : staticSection host addr gw n ds = .ok sec) :
    sec = sectionText (some (.mk addr n (if gw ≠ "" then some gw else none) ds)) ∧
      ValidIpv4 (.mk addr n (if gw ≠ "" then some gw else none) ds) := by
  have hHead : ("[ipv4]\nmethod=manual\n" : String) = "[ipv4]\n" ++ "method=manual\n" := by
    rw [← String.toList_inj, String.toList_append]
    rfl
  unfold staticSection at h
  cases hAddr : ipv4Address host addr with
  | error e =>
      rw [hAddr] at h
      cases h
  | ok u =>
      have hAddress := isAddress_of_ok hAddr
      rw [hAddr] at h
      by_cases hGw : gw ≠ ""
      · cases hGateway : ipv4Address host gw with
        | error e =>
            rw [if_pos hGw, hGateway] at h
            cases h
        | ok u' =>
            cases hDns : dnsList host ds with
            | error e =>
                rw [if_pos hGw, hGateway, hDns] at h
                cases h
            | ok servers =>
                obtain ⟨rfl, hServers⟩ := dnsList_ok hDns
                rw [if_pos hGw, hGateway, hDns] at h
                obtain rfl := Except.ok.inj h
                have hSome : (if gw ≠ "" then some gw else none) = some gw := if_pos hGw
                have hText : (if gw ≠ "" then "," ++ gw else "") = "," ++ gw := if_pos hGw
                rw [hSome, hText]
                refine ⟨?_, hAddress, hRange, ?_, hServers⟩
                · rw [append_if_empty, sectionText, address1Text, hHead]
                  simp only [String.append_assoc]
                · rintro gw' hEq
                  cases hEq
                  exact isAddress_of_ok hGateway
      · cases hDns : dnsList host ds with
        | error e =>
            rw [if_neg hGw, hDns] at h
            cases h
        | ok servers =>
            obtain ⟨rfl, hServers⟩ := dnsList_ok hDns
            rw [if_neg hGw, hDns] at h
            obtain rfl := Except.ok.inj h
            have hNone : (if gw ≠ "" then some gw else none) = none := if_neg hGw
            have hText : (if gw ≠ "" then "," ++ gw else "") = "" := if_neg hGw
            rw [hNone, hText]
            refine ⟨?_, hAddress, hRange, (fun _ hEq => by cases hEq), hServers⟩
            rw [append_if_empty, sectionText, address1Text, hHead]
            simp only [String.append_assoc]

/-- What `_ipv4_section` accepts, and what it writes then. -/
theorem ipv4Section_ok {host : Host} {args : Args} {sec : String}
    (h : ipv4Section host args.ipv4 = .ok sec) :
    sec = sectionText args.askedIpv4 ∧ ∀ ipv4, args.askedIpv4 = some ipv4 → ValidIpv4 ipv4 := by
  unfold Args.askedIpv4
  cases hArgs : args.ipv4 with
  | none =>
      rw [hArgs] at h
      cases h
      exact ⟨rfl, fun _ hNone => by cases hNone⟩
  | some ipv4 =>
      rw [hArgs] at h
      unfold ipv4Section at h
      dsimp only at h ⊢
      by_cases hMethod : ipv4.method ≠ some "manual"
      · rw [if_pos hMethod] at h ⊢
        cases h
        exact ⟨rfl, fun _ hNone => by cases hNone⟩
      rw [if_neg hMethod] at h ⊢
      cases hLength : ipv4.prefixLength with
      | none =>
          rw [hLength] at h
          cases h
      | some n =>
          rw [hLength] at h
          dsimp only at h
          by_cases hRange : 1 ≤ n ∧ n ≤ 32
          · rw [if_neg (not_not_intro hRange)] at h
            obtain ⟨hSec, hValid⟩ := staticSection_ok hRange h
            refine ⟨hSec, fun asked hAsked => ?_⟩
            cases hAsked
            exact hValid
          · rw [if_pos hRange] at h
            cases h

/-! ### The keyfile read back -/

/-- A value without its leading blanks. -/
def chug (s : String) : String := String.ofList (s.toList.dropWhile KeyFile.isSpace)

/-- A text that stays on its line. -/
def OneLine (s : String) : Prop := '\n' ∉ s.toList ∧ '\r' ∉ s.toList

theorem says_pair {head : String} (key : List Char) (hHead : head.toList = key ++ ['='])
    (hKey : Plain key) {v : String} (hLine : OneLine v) :
    Says (head ++ v ++ "\n") [.pair (String.ofList key) (chug v)] := by
  have hText : (head ++ v).toList = key ++ '=' :: v.toList := by
    rw [String.toList_append, hHead, List.append_assoc]
    rfl
  have hChar : ∀ c, isSpace c = true → c ≠ '=' → c ∉ v.toList → c ∉ (head ++ v).toList := by
    intro c hSpace hEq hNot hMem
    rw [hText] at hMem
    rcases List.mem_append.mp hMem with hMem | hMem
    · have hPlain := List.all_eq_true.mp hKey.2.1 c hMem
      rw [hSpace] at hPlain
      cases hPlain
    · rcases List.mem_cons.mp hMem with hMem | hMem
      · exact hEq hMem
      · exact hNot hMem
  refine Says.line (hChar _ (by decide) (by decide) hLine.1)
    (hChar _ (by decide) (by decide) hLine.2) ?_
  rw [hText, readLine_pair hKey]
  rfl

/-- The pairs of the addresses. -/
def ipv4Pairs : Option StaticIpv4 → List (String × String)
  | none => [("method", "auto")]
  | some ipv4 =>
      [("method", "manual"), ("address1", chug (address1Text ipv4))] ++
        if ipv4.dns.isEmpty then [] else [("dns", chug (dnsText ipv4.dns))]

/-- The groups that a keyfile begins with. -/
def wifiGroups (ssid : String) : List (String × List (String × String)) :=
  [("connection", [("id", chug ssid), ("type", "wifi"), ("autoconnect", "true")]),
   ("wifi", [("mode", "infrastructure"), ("ssid", chug ssid)])]

def securityGroup (psk : String) : String × List (String × String) :=
  ("wifi-security", [("key-mgmt", "wpa-psk"), ("psk", chug psk)])

def addressGroups (ipv4 : Option StaticIpv4) : List (String × List (String × String)) :=
  [("ipv4", ipv4Pairs ipv4), ("ipv6", [("method", "auto")])]

/-- The groups of the keyfile as they are read. -/
def bodyGroups (ssid psk : String) (ipv4 : Option StaticIpv4) :
    List (String × List (String × String)) :=
  wifiGroups ssid ++ (if psk ≠ "" then [securityGroup psk] else []) ++ addressGroups ipv4

theorem says_wifi {ssid : String} (h : OneLine ssid) :
    Says ("[connection]\n" ++ ("id=" ++ ssid ++ "\n") ++ "type=wifi\nautoconnect=true\n[wifi]\n" ++
      "mode=infrastructure\n" ++ ("ssid=" ++ ssid ++ "\n")) (entriesOf (wifiGroups ssid)) := by
  have hConnection : Says "[connection]\n" [.group "connection"] :=
    ⟨["[connection]".toList], by decide, by decide, by decide⟩
  have hWifi : Says "type=wifi\nautoconnect=true\n[wifi]\n"
      [.pair "type" "wifi", .pair "autoconnect" "true", .group "wifi"] :=
    ⟨["type=wifi".toList, "autoconnect=true".toList, "[wifi]".toList],
      by decide, by decide, by decide⟩
  have hMode : Says "mode=infrastructure\n" [.pair "mode" "infrastructure"] :=
    ⟨["mode=infrastructure".toList], by decide, by decide, by decide⟩
  have hId : Says ("id=" ++ ssid ++ "\n") [.pair "id" (chug ssid)] :=
    says_pair "id".toList (by decide) (by decide) h
  have hName : Says ("ssid=" ++ ssid ++ "\n") [.pair "ssid" (chug ssid)] :=
    says_pair "ssid".toList (by decide) (by decide) h
  exact (((hConnection.append hId).append hWifi).append hMode).append hName

theorem says_security {psk : String} (h : OneLine psk) :
    Says ("\n[wifi-security]\nkey-mgmt=wpa-psk\n" ++ ("psk=" ++ psk ++ "\n"))
      (.blank :: entriesOf [securityGroup psk]) := by
  have hGroup : Says "\n[wifi-security]\nkey-mgmt=wpa-psk\n"
      [.blank, .group "wifi-security", .pair "key-mgmt" "wpa-psk"] :=
    ⟨[[], "[wifi-security]".toList, "key-mgmt=wpa-psk".toList], by decide, by decide, by decide⟩
  have hKey : Says ("psk=" ++ psk ++ "\n") [.pair "psk" (chug psk)] :=
    says_pair "psk".toList (by decide) (by decide) h
  exact hGroup.append hKey

/-- The keyfile is read as its groups. -/
theorem load_body {ssid psk : String} {ipv4 : Option StaticIpv4} (hSsid : OneLine ssid)
    (hPsk : OneLine psk)
    (hIpv4 : Says (sectionText ipv4 ++ "[ipv6]\nmethod=auto\n") (entriesOf (addressGroups ipv4))) :
    ∃ file, load (keyfileBody ssid psk (sectionText ipv4)) = some file ∧
      groupsOf file = bodyGroups ssid psk ipv4 := by
  have hType : ("type=wifi\nautoconnect=true\n[wifi]\n" : String) =
      "type=wifi\n" ++ ("autoconnect=true\n" ++ "[wifi]\n") := by
    rw [← String.toList_inj, String.toList_append, String.toList_append]
    rfl
  have hKey : ("\n[wifi-security]\nkey-mgmt=wpa-psk\npsk=" : String) =
      "\n[wifi-security]\nkey-mgmt=wpa-psk\n" ++ "psk=" := by
    rw [← String.toList_inj, String.toList_append]
    rfl
  have hWifi := says_wifi hSsid
  rw [hType] at hWifi
  have hLoad : load (keyfileBody ssid psk (sectionText ipv4)) =
      gather (entriesOf (bodyGroups ssid psk ipv4)) := by
    unfold keyfileBody bodyGroups
    dsimp only
    split_ifs with hNone
    · have hAll := ((hWifi.append (says_security hPsk)).append hIpv4).load
      rw [List.append_assoc, List.cons_append, gather_blank] at hAll
      rw [hKey]
      simp only [String.append_assoc] at hAll ⊢
      rw [hAll, entriesOf_append, entriesOf_append, List.append_assoc]
    · have hAll := (hWifi.append hIpv4).load
      simp only [String.append_assoc, String.empty_append] at hAll ⊢
      rw [hAll, List.append_nil, entriesOf_append]
  have hNames : ((bodyGroups ssid psk ipv4).map Prod.fst).Nodup := by
    unfold bodyGroups
    split_ifs
    · show ["connection", "wifi", "wifi-security", "ipv4", "ipv6"].Nodup
      decide
    · show ["connection", "wifi", "ipv4", "ipv6"].Nodup
      decide
  have hPairs : ∀ group ∈ bodyGroups ssid psk ipv4, (group.2.map Prod.fst).Nodup := by
    have hIpv4 : ((ipv4Pairs ipv4).map Prod.fst).Nodup := by
      cases ipv4 with
      | none => simp [ipv4Pairs]
      | some ipv4 =>
          cases hDns : ipv4.dns.isEmpty <;> simp [ipv4Pairs, hDns]
    unfold bodyGroups
    split_ifs <;> simp [wifiGroups, securityGroup, addressGroups, hIpv4]
  rw [hLoad]
  exact gather_entriesOf hNames hPairs

/-! ### The addresses read back -/

/-- The characters of addresses and of lists of them. -/
def isListChar (c : Char) : Bool := isAddressChar c || c = '/' || c = ',' || c = ';'

/-- A text that is read as it stands. -/
def PlainText (s : String) : Prop := ∀ c ∈ s.toList, isListChar c = true

theorem PlainText.append {s t : String} (hs : PlainText s) (ht : PlainText t) :
    PlainText (s ++ t) := by
  intro c hc
  rw [String.toList_append] at hc
  exact (List.mem_append.mp hc).elim (hs c) (ht c)

theorem IsAddress.plainText {s : String} (h : IsAddress s) : PlainText s := by
  intro c hc
  rw [isListChar, h.chars c hc]
  rfl

/-- A prefix length and its digits. -/
theorem digits_number {n : Int} (h : 1 ≤ n ∧ n ≤ 32) :
    (PyText.digitsValue (toString n).toList).map (fun m : Nat => (m : Int)) = some n := by
  obtain ⟨hLow, hHigh⟩ := h
  interval_cases n <;> decide

theorem isAddress_number {n : Int} (h : 1 ≤ n ∧ n ≤ 32) : IsAddress (toString n) := by
  obtain ⟨m, hDigits, _⟩ := Option.map_eq_some_iff.mp (digits_number h)
  constructor
  · intro c hc
    rw [isAddressChar, digitsValue_chars hDigits c hc, Bool.true_or]
  · intro hEmpty
    rw [hEmpty] at hDigits
    cases hDigits

theorem PlainText.notMem {s : String} (h : PlainText s) {c : Char} (hc : isListChar c = false) :
    c ∉ s.toList := by
  intro hMem
  rw [h c hMem] at hc
  cases hc

theorem PlainText.oneLine {s : String} (h : PlainText s) : OneLine s :=
  ⟨h.notMem (by decide), h.notMem (by decide)⟩

theorem isSpace_of_isListChar {c : Char} (h : isListChar c = true) : isSpace c = false := by
  by_contra hSpace
  rw [Bool.not_eq_false] at hSpace
  revert h
  rcases isSpace_iff.mp hSpace with rfl | rfl | rfl | rfl | rfl <;> decide

theorem PlainText.chug {s : String} (h : PlainText s) : chug s = s := by
  have hDrop : s.toList.dropWhile isSpace = s.toList := by
    cases hChars : s.toList with
    | nil => rfl
    | cons c rest =>
        have hFirst := isSpace_of_isListChar (h c (hChars ▸ List.mem_cons_self))
        rw [List.dropWhile_cons_of_neg (by simp [hFirst])]
  rw [WifiJoin.chug, hDrop, String.ofList_toList]

theorem ValidIpv4.plainText {ipv4 : StaticIpv4} (h : ValidIpv4 ipv4) :
    PlainText (address1Text ipv4) := by
  have hSlash : PlainText "/" := List.all_eq_true.mp (by decide)
  have hComma : PlainText "," := List.all_eq_true.mp (by decide)
  have hStart := (h.address.plainText.append hSlash).append (isAddress_number h.length).plainText
  unfold address1Text
  cases hGateway : ipv4.gateway with
  | none => exact hStart.append fun _ hMem => by cases hMem
  | some gw => exact hStart.append (hComma.append (h.gateway gw hGateway).plainText)

theorem toList_dnsText {servers : List String} (h : servers ≠ []) :
    (dnsText servers).toList = (servers.map String.toList).flatMap fun item => item ++ [';'] := by
  induction servers with
  | nil => exact absurd rfl h
  | cons server rest ih =>
      cases rest with
      | nil => simp [dnsText]
      | cons next rest =>
          have hRest := ih (List.cons_ne_nil _ _)
          rw [dnsText, String.toList_append] at hRest ⊢
          rw [String.intercalate_cons_cons, String.toList_append, String.toList_append,
            List.append_assoc, hRest, List.map_cons, List.flatMap_cons]
          rfl

theorem plainText_dnsText {servers : List String} (h : ∀ server ∈ servers, IsAddress server)
    (hNe : servers ≠ []) : PlainText (dnsText servers) := by
  intro c hc
  rw [toList_dnsText hNe] at hc
  obtain ⟨item, hItem, hc⟩ := List.mem_flatMap.mp hc
  obtain ⟨server, hServer, rfl⟩ := List.mem_map.mp hItem
  rcases List.mem_append.mp hc with hc | hc
  · exact (h server hServer).plainText c hc
  · obtain rfl := List.mem_singleton.mp hc
    decide

theorem says_addresses {ipv4 : Option StaticIpv4}
    (h : ∀ fixed, ipv4 = some fixed → ValidIpv4 fixed) :
    Says (sectionText ipv4 ++ "[ipv6]\nmethod=auto\n") (entriesOf (addressGroups ipv4)) := by
  have hIpv6 : Says "[ipv6]\nmethod=auto\n" [.group "ipv6", .pair "method" "auto"] :=
    ⟨["[ipv6]".toList, "method=auto".toList], by decide, by decide, by decide⟩
  cases ipv4 with
  | none =>
      have hAuto : Says "[ipv4]\nmethod=auto\n" [.group "ipv4", .pair "method" "auto"] :=
        ⟨["[ipv4]".toList, "method=auto".toList], by decide, by decide, by decide⟩
      exact hAuto.append hIpv6
  | some fixed =>
      have hValid := h fixed rfl
      have hGroup : Says "[ipv4]\n" [.group "ipv4"] :=
        ⟨["[ipv4]".toList], by decide, by decide, by decide⟩
      have hMethod : Says "method=manual\n" [.pair "method" "manual"] :=
        ⟨["method=manual".toList], by decide, by decide, by decide⟩
      have hAddress : Says ("address1=" ++ address1Text fixed ++ "\n")
          [.pair "address1" (chug (address1Text fixed))] :=
        says_pair "address1".toList (by decide) (by decide) hValid.plainText.oneLine
      have hStart := (hGroup.append hMethod).append hAddress
      by_cases hNone : fixed.dns = []
      · have hText : sectionText (some fixed) = "[ipv4]\n" ++ "method=manual\n" ++
            ("address1=" ++ address1Text fixed ++ "\n") := by
          rw [sectionText, hNone]
          exact String.append_empty
        have hPairs : ipv4Pairs (some fixed) =
            [("method", "manual"), ("address1", chug (address1Text fixed))] := by
          rw [ipv4Pairs, hNone]
          rfl
        rw [hText, addressGroups, hPairs]
        exact hStart.append hIpv6
      · have hSome : fixed.dns.isEmpty = false := by simpa using hNone
        have hDns : Says ("dns=" ++ dnsText fixed.dns ++ "\n")
            [.pair "dns" (chug (dnsText fixed.dns))] :=
          says_pair "dns".toList (by decide) (by decide)
            (plainText_dnsText hValid.dns hNone).oneLine
        have hPairs : ipv4Pairs (some fixed) =
            [("method", "manual"), ("address1", chug (address1Text fixed)),
             ("dns", chug (dnsText fixed.dns))] := by
          rw [ipv4Pairs, hSome]
          rfl
        rw [sectionText, hSome, addressGroups, hPairs]
        exact (hStart.append hDns).append hIpv6

/-- The address, its length and the gateway come back. -/
theorem readAddress1_text {ipv4 : StaticIpv4} (h : ValidIpv4 ipv4) :
    readAddress1 (address1Text ipv4).toList =
      some (ipv4.address, ipv4.prefixLength, ipv4.gateway) := by
  have hNumber := isAddress_number h.length
  obtain ⟨m, hDigits, hm⟩ := Option.map_eq_some_iff.mp (digits_number h.length)
  have hText : (ipv4.address ++ "/" ++ toString ipv4.prefixLength).toList =
      ipv4.address.toList ++ '/' :: (toString ipv4.prefixLength).toList := by
    rw [String.toList_append, String.toList_append, List.append_assoc]
    rfl
  have hComma : ',' ∉ (ipv4.address ++ "/" ++ toString ipv4.prefixLength).toList := by
    intro hMem
    rw [hText] at hMem
    rcases List.mem_append.mp hMem with hMem | hMem
    · exact h.address.notMem (by decide) hMem
    · rcases List.mem_cons.mp hMem with hEq | hMem
      · revert hEq
        decide
      · exact hNumber.notMem (by decide) hMem
  have hRead : readAddress (ipv4.address ++ "/" ++ toString ipv4.prefixLength).toList =
      some (ipv4.address, ipv4.prefixLength) := by
    rw [readAddress, hText, PyText.splitChars_append_sep (h.address.notMem (by decide)),
      PyText.splitChars_of_notMem (hNumber.notMem (by decide))]
    dsimp only
    rw [hDigits, Option.map_some, hm, String.ofList_toList]
  unfold address1Text
  cases hGateway : ipv4.gateway with
  | none =>
      dsimp only
      rw [String.append_empty, readAddress1, PyText.splitChars_of_notMem hComma]
      dsimp only
      rw [hRead]
      rfl
  | some gw =>
      have hGw := (h.gateway gw hGateway).notMem (c := ',') (by decide)
      have hTail : ("," ++ gw).toList = ',' :: gw.toList := by
        rw [String.toList_append]
        rfl
      dsimp only
      rw [readAddress1, String.toList_append, hTail, PyText.splitChars_append_sep hComma,
        PyText.splitChars_of_notMem hGw]
      dsimp only
      rw [hRead, Option.map_some, String.ofList_toList]

/-! ### The whole keyfile read back -/

section Read

variable {file : Dict (Dict String)} {ssid psk : String} {ipv4 : Option StaticIpv4}

theorem layout_body (h : groupsOf file = bodyGroups ssid psk ipv4) :
    layout file = askedLayout psk ipv4 := by
  have hKeys : (ipv4Pairs ipv4).map Prod.fst = askedKeys ipv4 := by
    cases ipv4 with
    | none => rfl
    | some fixed => cases hDns : fixed.dns.isEmpty <;> simp [ipv4Pairs, askedKeys, hDns]
  rw [layout_eq, h]
  unfold askedLayout bodyGroups
  rw [← hKeys]
  split_ifs <;> rfl

theorem lookup_wifi : (bodyGroups ssid psk ipv4).lookup "wifi" =
    some [("mode", "infrastructure"), ("ssid", chug ssid)] := by
  simp [bodyGroups, wifiGroups, lookup_cons_ite]

theorem lookup_security : (bodyGroups ssid psk ipv4).lookup "wifi-security" =
    if psk ≠ "" then some (securityGroup psk).2 else none := by
  unfold bodyGroups
  split_ifs <;> simp [wifiGroups, securityGroup, addressGroups, lookup_cons_ite]

theorem lookup_ipv4 : (bodyGroups ssid psk ipv4).lookup "ipv4" = some (ipv4Pairs ipv4) := by
  unfold bodyGroups
  split_ifs <;> simp [wifiGroups, securityGroup, addressGroups, lookup_cons_ite]

theorem getString_chug {group key v : String} (h : value file group key = some (chug v)) :
    getString file group key = (stringValue v.toList).map String.ofList := by
  rw [getString, h, Option.bind_some, chug, String.toList_ofList]
  rfl

theorem wifiSsid_body (h : groupsOf file = bodyGroups ssid psk ipv4) :
    wifiSsid file = (stringValue ssid.toList).map ssidBytes := by
  have hValue : value file "wifi" "ssid" = some (chug ssid) := by
    rw [value_eq, h, lookup_wifi]
    simp [lookup_cons_ite]
  rw [wifiSsid, getString_chug hValue, Option.map_map]
  congr 1
  funext cs
  rw [Function.comp_apply, String.toList_ofList]

theorem wifiPsk_body (h : groupsOf file = bodyGroups ssid psk ipv4) :
    wifiPsk file =
      if psk ≠ "" then (stringValue psk.toList).map String.ofList else none := by
  have hValue : value file "wifi-security" "psk" = if psk ≠ "" then some (chug psk) else none := by
    rw [value_eq, h, lookup_security]
    split_ifs
    · simp [securityGroup, lookup_cons_ite]
    · rfl
  rw [wifiPsk]
  split_ifs at hValue ⊢
  · exact getString_chug hValue
  · rw [getString, hValue]
    rfl

theorem wifiIpv4_body (h : groupsOf file = bodyGroups ssid psk ipv4)
    (hValid : ∀ fixed, ipv4 = some fixed → ValidIpv4 fixed) : wifiIpv4 file = some ipv4 := by
  have hValue : ∀ key, value file "ipv4" key = (ipv4Pairs ipv4).lookup key := by
    intro key
    rw [value_eq, h, lookup_ipv4]
    rfl
  cases ipv4 with
  | none =>
      have hMethod : getString file "ipv4" "method" = some "auto" :=
        getString_of_value ((hValue "method").trans rfl) (by decide)
      rw [wifiIpv4, hMethod]
      rfl
  | some fixed =>
      have hFixed := hValid fixed rfl
      have hMethod : getString file "ipv4" "method" = some "manual" :=
        getString_of_value ((hValue "method").trans rfl) (by decide)
      have hAddress : getString file "ipv4" "address1" = some (address1Text fixed) := by
        refine getString_of_value ?_ (hFixed.plainText.notMem (by decide))
        rw [hValue, ipv4Pairs, hFixed.plainText.chug]
        simp [lookup_cons_ite]
      have hDns : (getStringList file "ipv4" "dns").getD [] = fixed.dns := by
        by_cases hNone : fixed.dns = []
        · have hMissing : value file "ipv4" "dns" = none := by
            rw [hValue, ipv4Pairs, hNone]
            simp [lookup_cons_ite]
          rw [getStringList, hMissing, hNone]
          rfl
        · have hPlain := plainText_dnsText hFixed.dns hNone
          have hText : value file "ipv4" "dns" = some (dnsText fixed.dns) := by
            have hSome : fixed.dns.isEmpty = false := by simpa using hNone
            rw [hValue, ipv4Pairs, hSome, hPlain.chug]
            simp [lookup_cons_ite]
          rw [getStringList_of_value hText (toList_dnsText hNone)]
          · rfl
          · intro server hServer
            have hAddr := hFixed.dns server hServer
            exact ⟨hAddr.notMem (by decide), hAddr.notMem (by decide)⟩
      rw [wifiIpv4, hMethod]
      show (getString file "ipv4" "address1").bind _ = _
      rw [hAddress, Option.bind_some, readAddress1_text hFixed]
      show some (some (StaticIpv4.mk _ _ _ _)) = _
      rw [hDns]

end Read

/-! ### The requests that are accepted -/

theorem reqStr_ok {v : Arg} {key s : String} {maxlen : Nat} {allowEmpty : Bool}
    (h : reqStr v key maxlen allowEmpty = .ok s) :
    s = v.given ∧ ∀ c ∈ s.toList, 0x20 ≤ c.toNat := by
  cases v with
  | missing =>
      unfold reqStr at h
      split_ifs at h
      cases h
      exact ⟨rfl, fun _ hMem => by cases hMem⟩
  | other => cases h
  | text v =>
      unfold reqStr at h
      dsimp only at h
      split_ifs at h with hEmpty hLong hControl
      obtain rfl := Except.ok.inj h
      refine ⟨rfl, fun c hc => ?_⟩
      by_contra hLow
      exact hControl (List.any_eq_true.mpr ⟨c, hc, by simpa using hLow⟩)

theorem plan_ok {host : Host} {args : Args} {p : Plan} (h : plan host args = .ok p) :
    ∃ sec, ipv4Section host args.ipv4 = .ok sec ∧
      p = { ssid := args.ssid.given
            path := keyfilePath host args.ssid.given
            body := keyfileBody args.ssid.given args.psk.given sec } ∧
      (∀ c ∈ args.ssid.given.toList, 0x20 ≤ c.toNat) ∧
      (∀ c ∈ args.psk.given.toList, 0x20 ≤ c.toNat) := by
  unfold plan at h
  cases hSsid : reqStr args.ssid "ssid" 32 false with
  | error e =>
      rw [hSsid] at h
      cases h
  | ok ssid =>
      cases hPsk : reqStr args.psk "psk" 63 true with
      | error e =>
          rw [hSsid, hPsk] at h
          cases h
      | ok psk =>
          obtain ⟨rfl, hSsidChars⟩ := reqStr_ok hSsid
          obtain ⟨rfl, hPskChars⟩ := reqStr_ok hPsk
          rw [hSsid, hPsk] at h
          by_cases hShort : args.psk.given ≠ "" ∧ args.psk.given.length < 8
          · change (if args.psk.given ≠ "" ∧ args.psk.given.length < 8 then _ else _) = _ at h
            rw [if_pos hShort] at h
            cases h
          · change (if args.psk.given ≠ "" ∧ args.psk.given.length < 8 then _ else _) = _ at h
            rw [if_neg hShort] at h
            cases hSec : ipv4Section host args.ipv4 with
            | error e =>
                rw [hSec] at h
                cases h
            | ok sec =>
                rw [hSec] at h
                obtain rfl := Except.ok.inj h
                exact ⟨sec, rfl, rfl, hSsidChars, hPskChars⟩

theorem oneLine_of_chars {s : String} (h : ∀ c ∈ s.toList, 0x20 ≤ c.toNat) : OneLine s := by
  constructor
  · intro hMem
    exact absurd (h _ hMem) (by decide)
  · intro hMem
    exact absurd (h _ hMem) (by decide)

/-- Without control characters a leading blank is a space. -/
theorem literal_iff {s : String} (h : ∀ c ∈ s.toList, 0x20 ≤ c.toNat) :
    Literal s.toList ↔ s.toList.head? ≠ some ' ' ∧ '\\' ∉ s.toList := by
  have hStart : s.toList.dropWhile isSpace = s.toList ↔ s.toList.head? ≠ some ' ' := by
    cases hChars : s.toList with
    | nil => simp
    | cons c rest =>
        have hHigh := h c (hChars ▸ List.mem_cons_self)
        rw [List.head?_cons, ne_eq, Option.some.injEq]
        by_cases hSpace : c = ' '
        · subst hSpace
          have hDrop : (' ' :: rest).dropWhile isSpace = rest.dropWhile isSpace :=
            List.dropWhile_cons_of_pos (by decide)
          have hShorter := (List.dropWhile_suffix (l := rest) isSpace).length_le
          refine iff_of_false (fun hEq => ?_) (fun hNe => hNe rfl)
          have hLength := congrArg List.length (hDrop.symm.trans hEq)
          rw [List.length_cons] at hLength
          omega
        · have hOther : isSpace c = false := by
            by_contra hBlank
            rw [Bool.not_eq_false] at hBlank
            rcases isSpace_iff.mp hBlank with hc | rfl | rfl | rfl | rfl
            · exact hSpace hc
            all_goals exact absurd hHigh (by decide)
          exact iff_of_true (List.dropWhile_cons_of_neg (by simp [hOther])) hSpace
  exact ⟨fun hLiteral => ⟨hStart.mp hLiteral.start, hLiteral.noEscape⟩,
    fun hPlain => ⟨hStart.mpr hPlain.1, hPlain.2⟩⟩

/-- The keyfile of an accepted request says what was asked for exactly when the SSID and the
password are literal, and the SSID is no list of bytes. -/
theorem faithful_iff_literal {host : Host} {args : Args} {p : Plan}
    (h : plan host args = .ok p) :
    Faithful args p.body ↔
      (Literal args.ssid.given.toList ∧ byteList args.ssid.given.toList = none) ∧
        Literal args.psk.given.toList := by
  obtain ⟨sec, hSec, rfl, hSsid, hPsk⟩ := plan_ok h
  obtain ⟨rfl, hValid⟩ := ipv4Section_ok hSec
  obtain ⟨file, hLoad, hGroups⟩ := load_body (oneLine_of_chars hSsid) (oneLine_of_chars hPsk)
    (says_addresses hValid)
  have hReads : Faithful args (keyfileBody args.ssid.given args.psk.given
      (sectionText args.askedIpv4)) ↔
      wifiSsid file = some args.ssid.given.toUTF8 ∧
        wifiPsk file = (if args.psk.given ≠ "" then some args.psk.given else none) := by
    constructor
    · rintro ⟨file', hLoad', -, hSsid', hPsk', -⟩
      obtain rfl := Option.some.inj (hLoad.symm.trans hLoad')
      exact ⟨hSsid', hPsk'⟩
    · rintro ⟨hSsid', hPsk'⟩
      exact ⟨file, hLoad, layout_body hGroups, hSsid', hPsk', wifiIpv4_body hGroups hValid⟩
  have hPskReads : wifiPsk file = (if args.psk.given ≠ "" then some args.psk.given else none) ↔
      Literal args.psk.given.toList := by
    rw [wifiPsk_body hGroups]
    by_cases hNone : args.psk.given = ""
    · have hEmpty : Literal args.psk.given.toList := by
        rw [hNone]
        exact ⟨by decide, by decide⟩
      rw [if_neg (not_not_intro hNone), if_neg (not_not_intro hNone)]
      exact iff_of_true rfl hEmpty
    · rw [if_pos hNone, if_pos hNone, ← stringValue_eq_iff]
      constructor
      · intro hMap
        obtain ⟨cs, hCs, hText⟩ := Option.map_eq_some_iff.mp hMap
        rw [← hText, String.toList_ofList]
        rw [← hText, String.toList_ofList] at hCs
        exact hCs
      · intro hText
        rw [hText, Option.map_some, String.ofList_toList]
  rw [hReads, wifiSsid_body hGroups, ssid_read_iff, hPskReads]

/-- The keyfile of an accepted request says what was asked for exactly when the SSID and the
password begin with no space and hold no backslash, and the SSID is no list of bytes. -/
theorem keyfile_faithful_iff {host : Host} {args : Args} {p : Plan}
    (h : plan host args = .ok p) :
    Faithful args p.body ↔
      (args.ssid.given.toList.head? ≠ some ' ' ∧ '\\' ∉ args.ssid.given.toList ∧
        byteList args.ssid.given.toList = none) ∧
      args.psk.given.toList.head? ≠ some ' ' ∧ '\\' ∉ args.psk.given.toList := by
  obtain ⟨_, _, _, hSsid, hPsk⟩ := plan_ok h
  rw [faithful_iff_literal h, literal_iff hSsid, literal_iff hPsk]
  simp only [and_assoc]

/-- A host that only knows ASCII. -/
def asciiHost : Host where
  isAlnum := Char.isAlphanum
  addressError := fun s => "Expected 4 octets in '" ++ s ++ "'"
  fileId := id

/-- A join with a fixed address. -/
def fixedArgs : Args where
  ssid := .text "Barn 5G; upper"
  psk := .text "sunny days "
  ipv4 := some {
    method := some "manual"
    address := " 192.168.1.50"
    prefixLength := some 24
    gateway := "192.168.1.1"
    dns := "1.1.1.1, 9.9.9.9" }

theorem keyfile_faithful_fixed :
    ∃ p, plan asciiHost fixedArgs = .ok p ∧ Faithful fixedArgs p.body :=
  ⟨_, rfl, (keyfile_faithful_iff rfl).mpr (by decide)⟩

/-- A password with a backslash. -/
def backslashArgs : Args where
  ssid := .text "Home"
  psk := .text "solar\\sun9"
  ipv4 := none

/-- Its `\s` is read as a space. -/
theorem backslash_psk_misread :
    ∃ p, plan asciiHost backslashArgs = .ok p ∧ ¬ Faithful backslashArgs p.body := by
  refine ⟨_, rfl, fun hFaithful => ?_⟩
  have hLiteral := ((faithful_iff_literal rfl).mp hFaithful).2
  exact absurd hLiteral.noEscape (by decide)

end WifiJoin
