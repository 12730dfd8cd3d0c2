import WattPost.Lib.KeyFile

/-! How NetworkManager reads a Wi-Fi profile from a keyfile. -/
namespace NmProfile

open PyDict

/-! ### The name, the SSID and the password -/

/-- The name of a profile: its `id`, else what the file name gives. -/
def profileName (fileId : String → String) (path content : String) : Option String :=
  (KeyFile.load content).map fun file =>
    (KeyFile.getString file "connection" "id").getD (fileId path)

/-- A number of one to three digits, at most 255, with blanks around it. -/
def byteOf (piece : List Char) : Option UInt8 :=
  let digits := PyText.rstripBy KeyFile.isSpace (piece.dropWhile KeyFile.isSpace)
  if digits.length ≤ 3 then
    (PyText.digitsValue digits).bind fun n => if n ≤ 255 then some n.toUInt8 else none
  else none

/-- The old notation of an SSID: numbers, each with a `;` behind it. -/
def byteList (cs : List Char) : Option (List UInt8) :=
  let pieces := PyText.splitChars ';' cs
  if 2 ≤ pieces.length ∧ (pieces.getLastD []).all KeyFile.isSpace then
    pieces.dropLast.mapM byteOf
  else none

/-- In the plain notation a `;` may be escaped. -/
def unescapeSemicolons : List Char → List Char
  | [] => []
  | '\\' :: ';' :: rest => ';' :: unescapeSemicolons rest
  | c :: rest => c :: unescapeSemicolons rest

def ssidBytes (cs : List Char) : ByteArray :=
  match byteList cs with
  | some bytes => ⟨bytes.toArray⟩
  | none => (String.ofList (unescapeSemicolons cs)).toUTF8

def wifiSsid (file : Dict (Dict String)) : Option ByteArray :=
  (KeyFile.getString file "wifi" "ssid").map fun s => ssidBytes s.toList

def wifiPsk (file : Dict (Dict String)) : Option String :=
  KeyFile.getString file "wifi-security" "psk"

/-! ### The addresses -/

/-- A fixed address and what belongs to it. -/
structure StaticIpv4 where
  address : String
  prefixLength : Int
  gateway : Option String
  dns : List String
deriving DecidableEq

/-- `address/length`. -/
def readAddress (cs : List Char) : Option (String × Int) :=
  match PyText.splitChars '/' cs with
  | [address, length] =>
      (PyText.digitsValue length).map fun n : Nat => (String.ofList address, (n : Int))
  | _ => none

/-- `address/length` or `address/length,gateway`. -/
def readAddress1 (cs : List Char) : Option (String × Int × Option String) :=
  match PyText.splitChars ',' cs with
  | [address] => (readAddress address).map fun a => (a.1, a.2, none)
  | [address, gateway] =>
      (readAddress address).map fun a => (a.1, a.2, some (String.ofList gateway))
  | _ => none

/-- The addresses of a profile: `none` inside for automatic ones. -/
def wifiIpv4 (file : Dict (Dict String)) : Option (Option StaticIpv4) := do
  let method ← KeyFile.getString file "ipv4" "method"
  if method = "auto" then some none
  else if method = "manual" then
    let address1 ← KeyFile.getString file "ipv4" "address1"
    let (address, length, gateway) ← readAddress1 address1.toList
    some (some {
      address := address
      prefixLength := length
      gateway := gateway
      dns := (KeyFile.getStringList file "ipv4" "dns").getD [] })
  else none

/-! ### An SSID that is read as it was written -/

theorem length_splitChars (c : Char) (cs : List Char) :
    ((PyText.splitChars c cs).map List.length).sum + (PyText.splitChars c cs).length =
      cs.length + 1 := by
  induction cs with
  | nil => rfl
  | cons x xs ih =>
      rw [PyText.splitChars]
      split_ifs with hSep
      · simp only [List.map_cons, List.sum_cons, List.length_cons, List.length_nil]
        omega
      · cases hPieces : PyText.splitChars c xs with
        | nil => exact absurd hPieces (PyText.splitChars_ne_nil c xs)
        | cons piece pieces =>
            rw [hPieces] at ih
            simp only [List.map_cons, List.sum_cons, List.length_cons] at ih ⊢
            omega

theorem byteOf_length {piece : List Char} {b : UInt8} (h : byteOf piece = some b) :
    1 ≤ piece.length := by
  cases piece with
  | nil => cases h
  | cons c rest => exact Nat.succ_le_succ (Nat.zero_le _)

theorem length_of_mapM_byteOf {pieces : List (List Char)} {bytes : List UInt8}
    (h : pieces.mapM byteOf = some bytes) :
    bytes.length = pieces.length ∧ pieces.length ≤ (pieces.map List.length).sum := by
  induction pieces generalizing bytes with
  | nil =>
      cases h
      exact ⟨rfl, Nat.le_refl _⟩
  | cons piece pieces ih =>
      rw [List.mapM_cons] at h
      obtain ⟨b, hb, h⟩ := Option.bind_eq_some_iff.mp h
      obtain ⟨rest, hRest, h⟩ := Option.bind_eq_some_iff.mp h
      cases h
      obtain ⟨hLength, hSum⟩ := ih hRest
      have hOne := byteOf_length hb
      simp only [List.length_cons, List.map_cons, List.sum_cons]
      omega

/-- A list of bytes takes at least two characters for each. -/
theorem byteList_length {cs : List Char} {bytes : List UInt8} (h : byteList cs = some bytes) :
    0 < bytes.length ∧ 2 * bytes.length ≤ cs.length := by
  unfold byteList at h
  dsimp only at h
  split_ifs at h with hList
  obtain ⟨hTwo, -⟩ := hList
  have hAll := length_splitChars ';' cs
  obtain ⟨hLength, hSum⟩ := length_of_mapM_byteOf h
  have hSplit := List.dropLast_append_getLast (PyText.splitChars_ne_nil ';' cs)
  have hParts : ((PyText.splitChars ';' cs).map List.length).sum =
      ((PyText.splitChars ';' cs).dropLast.map List.length).sum +
        ((PyText.splitChars ';' cs).getLast (PyText.splitChars_ne_nil ';' cs)).length := by
    conv_lhs => rw [← hSplit, List.map_append, List.sum_append]
    simp
  rw [List.length_dropLast] at hLength hSum
  omega

theorem unescapeSemicolons_length (cs : List Char) :
    (unescapeSemicolons cs).length ≤ cs.length := by
  induction cs using unescapeSemicolons.induct with
  | case1 => exact Nat.le_refl _
  | case2 rest ih =>
      rw [unescapeSemicolons, List.length_cons, List.length_cons, List.length_cons]
      omega
  | case3 c rest hNot ih =>
      rw [unescapeSemicolons]
      · exact Nat.succ_le_succ ih
      · exact hNot

theorem unescapeSemicolons_of_notMem {cs : List Char} (h : '\\' ∉ cs) :
    unescapeSemicolons cs = cs := by
  induction cs with
  | nil => rfl
  | cons c rest ih =>
      rw [List.mem_cons, not_or] at h
      rw [unescapeSemicolons, ih h.2]
      intro more hEq
      exact absurd hEq.symm h.1

theorem length_le_utf8 (cs : List Char) : cs.length ≤ (String.ofList cs).toUTF8.size := by
  induction cs with
  | nil => exact Nat.le_refl _
  | cons c rest ih =>
      have hCons : String.ofList (c :: rest) = String.singleton c ++ String.ofList rest := by
        rw [String.singleton_eq_ofList, ← String.ofList_append]
        rfl
      have hPos : 0 < c.utf8Size := Char.utf8Size_pos c
      rw [String.toUTF8_eq_toByteArray, String.size_toByteArray] at ih ⊢
      rw [hCons, String.utf8ByteSize_append, String.utf8ByteSize_singleton, List.length_cons]
      omega

/-- Blanks at the start of a value are lost. -/
theorem dropWhile_length (cs : List Char) :
    (cs.dropWhile KeyFile.isSpace).length ≤ cs.length ∧
      ((cs.dropWhile KeyFile.isSpace).length = cs.length →
        cs.dropWhile KeyFile.isSpace = cs) := by
  have hSuffix := List.dropWhile_suffix (l := cs) KeyFile.isSpace
  exact ⟨hSuffix.length_le, fun h => hSuffix.eq_of_length h⟩

/-- What a value of a keyfile is read as, without its leading blanks. -/
def stringValue (cs : List Char) : Option (List Char) :=
  KeyFile.unescape (cs.dropWhile KeyFile.isSpace)

/-- A value that loses nothing when it is read. -/
structure Literal (cs : List Char) : Prop where
  start : cs.dropWhile KeyFile.isSpace = cs
  noEscape : '\\' ∉ cs

theorem Literal.stringValue {cs : List Char} (h : Literal cs) : stringValue cs = some cs := by
  rw [NmProfile.stringValue, h.start, KeyFile.unescape_of_notMem h.noEscape]

theorem stringValue_length {cs text : List Char} (h : stringValue cs = some text) :
    text.length ≤ cs.length ∧ (text.length = cs.length → Literal cs ∧ text = cs) := by
  obtain ⟨hDrop, hStart⟩ := dropWhile_length cs
  obtain ⟨hLength, hFree⟩ := KeyFile.unescape_length h
  refine ⟨hLength.trans hDrop, fun hEq => ?_⟩
  have hWhole : cs.dropWhile KeyFile.isSpace = cs := hStart (by omega)
  have hNoEscape : '\\' ∉ cs := hWhole ▸ hFree (by omega)
  have hLiteral : Literal cs := ⟨hWhole, hNoEscape⟩
  exact ⟨hLiteral, Option.some.inj (h.symm.trans hLiteral.stringValue)⟩

/-- A text is read back exactly when it is literal. -/
theorem stringValue_eq_iff {cs : List Char} : stringValue cs = some cs ↔ Literal cs :=
  ⟨fun h => ((stringValue_length h).2 rfl).1, Literal.stringValue⟩

/-- An SSID is read back exactly when it is literal and no list of bytes. -/
theorem ssid_read_iff {ssid : String} :
    (stringValue ssid.toList).map ssidBytes = some ssid.toUTF8 ↔
      Literal ssid.toList ∧ byteList ssid.toList = none := by
  have hOfList : String.ofList ssid.toList = ssid := String.ofList_toList
  constructor
  · intro h
    obtain ⟨text, hText, hBytes⟩ := Option.map_eq_some_iff.mp h
    obtain ⟨hLength, hWhole⟩ := stringValue_length hText
    unfold ssidBytes at hBytes
    cases hList : byteList text with
    | some bytes =>
        -- A byte list stands for fewer bytes than the SSID has characters.
        rw [hList] at hBytes
        obtain ⟨hPos, hTwice⟩ := byteList_length hList
        have hSize : bytes.length = ssid.toUTF8.size := congrArg ByteArray.size hBytes
        have hUtf8 := length_le_utf8 ssid.toList
        rw [hOfList] at hUtf8
        omega
    | none =>
        rw [hList] at hBytes
        have hSame : unescapeSemicolons text = ssid.toList := by
          rw [String.toUTF8_eq_toByteArray, String.toUTF8_eq_toByteArray,
            String.toByteArray_inj] at hBytes
          rw [← hBytes, String.toList_ofList]
        have hShorter := unescapeSemicolons_length text
        rw [hSame] at hShorter
        obtain ⟨hLiteral, rfl⟩ := hWhole (Nat.le_antisymm hLength hShorter)
        exact ⟨hLiteral, hList⟩
  · rintro ⟨hLiteral, hList⟩
    rw [hLiteral.stringValue, Option.map_some, ssidBytes, hList]
    dsimp only
    rw [unescapeSemicolons_of_notMem hLiteral.noEscape, hOfList]

end NmProfile
