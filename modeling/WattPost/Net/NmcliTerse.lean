import WattPost.Lib.EscapedFields

/-! The helper reads nmcli's terse lines: fields between colons, with a backslash in front of
each colon and backslash of a field. It has two ways to read them. One takes the backslashes
away while it splits; the other, of the Wi-Fi scan, splits first and takes them away from what
it has put together again. -/
namespace NmcliTerse

open EscapedFields (Token)

/-! ### The helper -/

/-- The loop that splits a line at the colons without a backslash; `kept` is what it appends for
a backslash and the character behind it. -/
def splitLoop (kept : Char → List Char) :
    List Char → List String → List Char → List String
  | '\\' :: c :: rest, parts, cur => splitLoop kept rest parts (cur ++ kept c)
  | ':' :: rest, parts, cur => splitLoop kept rest (parts ++ [String.ofList cur]) []
  | c :: rest, parts, cur => splitLoop kept rest parts (cur ++ [c])
  | [], parts, cur => parts ++ [String.ofList cur]

/-- `_split_nmcli_t`. -/
def splitNmcliT (line : String) : List String := splitLoop (fun c => [c]) line.toList [] []

/-- The splitter inside `_act_wifi_scan`. -/
def scanParts (line : String) : List String :=
  splitLoop (fun c => ['\\', c]) line.toList [] []

def unescapeLoop : List Char → List Char → List Char
  | '\\' :: c :: rest, out => unescapeLoop rest (out ++ [c])
  | c :: rest, out => unescapeLoop rest (out ++ [c])
  | [], out => out

/-- `_unescape_nmcli`. -/
def unescapeNmcli (s : String) : String := String.ofList (unescapeLoop s.toList [])

/-- The columns of a line of the scan: signal, security, in-use and SSID. A line with fewer is
skipped. -/
def scanColumns (line : String) : Option (String × String × String × String) :=
  let parts := scanParts line
  if parts.length < 4 then none
  else some (parts.getD 0 "", parts.getD 1 "", parts.getD 2 "",
    unescapeNmcli (String.intercalate ":" (parts.drop 3)))

/-! ### nmcli -/

/-- `nmcli -t -e yes` on the characters of a field. -/
def escapeField (s : String) : String :=
  String.ofList (s.toList.flatMap fun c => if c = '\\' ∨ c = ':' then ['\\', c] else [c])

/-- A line of fields. -/
def terseLine (fields : List String) : String :=
  String.intercalate ":" (fields.map escapeField)

/-! ### The loops by tokens -/

/-- The tokens of a line. -/
def lex (line : List Char) : List (Token Char) := EscapedFields.lex '\\' ':' line

/-- The fields of a line, in tokens. -/
def fields (line : List Char) : List (List (Token Char)) := EscapedFields.fields '\\' ':' line

/-- What a splitter makes of a line. -/
def pieces (kept : Char → List Char) (line : List Char) : List (List Char) :=
  (fields line).map fun field => field.flatMap (Token.text ':' kept)

/-- The branch of a character that is no mark, or at the end of the line. -/
theorem lex_bare {c : Char} {rest : List Char}
    (hNotEscaped : ∀ d rest', c = '\\' → rest = d :: rest' → False) :
    lex (c :: rest) = EscapedFields.bare ':' c :: lex rest := by
  by_cases hMark : c = '\\'
  · cases rest with
    | nil => rfl
    | cons d rest => exact (hNotEscaped d rest hMark rfl).elim
  · exact EscapedFields.lex_cons hMark rest

theorem pieces_colon (kept : Char → List Char) (rest : List Char) :
    pieces kept (':' :: rest) = [] :: pieces kept rest := by
  have hNe : ':' ≠ '\\' := by decide
  unfold pieces fields EscapedFields.fields
  rw [EscapedFields.lex_cons hNe, List.splitOn_cons_eq_if_modifyHead]
  rfl

/-- A token that is no separator goes in front of the first piece. -/
theorem pieces_front (kept : Char → List Char) {line rest : List Char} {t : Token Char}
    (hLex : lex line = t :: lex rest) (ht : t ≠ .separator) :
    pieces kept line = (pieces kept rest).modifyHead (t.text ':' kept ++ ·) := by
  have hBeq : (t == Token.separator) = false := beq_false_of_ne ht
  unfold pieces fields EscapedFields.fields
  unfold lex at hLex
  rw [hLex, List.splitOn_cons_eq_if_modifyHead, hBeq]
  cases (EscapedFields.lex '\\' ':' rest).splitOn .separator with
  | nil => rfl
  | cons field later => rfl

theorem splitLoop_eq (kept : Char → List Char) (cs : List Char) (parts : List String)
    (cur : List Char) :
    splitLoop kept cs parts cur =
      parts ++ ((pieces kept cs).modifyHead (cur ++ ·)).map String.ofList := by
  fun_induction splitLoop kept cs parts cur with
  | case1 c rest parts cur ih =>
      have hFront := pieces_front kept (EscapedFields.lex_escaped c rest) fun h => by cases h
      rw [ih, hFront, List.modifyHead_modifyHead]
      simp [Function.comp_def, Token.text]
  | case2 rest parts cur ih =>
      rw [ih, pieces_colon]
      cases pieces kept rest with
      | nil => simp
      | cons piece later => simp
  | case3 c rest parts cur hNotEscaped hNotColon ih =>
      have hPlain : EscapedFields.bare ':' c = .plain c := if_neg hNotColon
      have hFront := pieces_front kept ((lex_bare hNotEscaped).trans (congrArg (· :: _) hPlain))
        fun h => by cases h
      rw [ih, hFront, List.modifyHead_modifyHead]
      simp [Function.comp_def, Token.text]
  | case4 parts cur =>
      have hEmpty : pieces kept [] = [[]] := rfl
      rw [hEmpty]
      simp

theorem splitLoop_start (kept : Char → List Char) (cs : List Char) :
    splitLoop kept cs [] [] = (pieces kept cs).map String.ofList := by
  rw [splitLoop_eq, List.nil_append]
  cases pieces kept cs with
  | nil => rfl
  | cons piece later => rfl

theorem unescapeLoop_eq (cs out : List Char) :
    unescapeLoop cs out = out ++ (lex cs).map (Token.value ':') := by
  fun_induction unescapeLoop cs out with
  | case1 c rest out ih =>
      have hLex : lex ('\\' :: c :: rest) = .escaped c :: lex rest :=
        EscapedFields.lex_escaped c rest
      rw [ih, hLex]
      simp [Token.value]
  | case2 c rest out hNotEscaped ih =>
      rw [ih, lex_bare hNotEscaped]
      simp
  | case3 out => exact (List.append_nil out).symm

/-- One splitter keeps the value of a token. -/
theorem splitNmcliT_eq (line : String) :
    splitNmcliT line = (fields line.toList).map fun field =>
      String.ofList (field.map (Token.value ':')) := by
  have hText : ∀ t : Token Char, t.text ':' (fun c => [c]) = [t.value ':'] := by
    intro t
    cases t with
    | separator => rfl
    | plain c => rfl
    | escaped c => rfl
  rw [splitNmcliT, splitLoop_start, pieces, List.map_map]
  refine List.map_congr_left fun field _ => congrArg String.ofList ?_
  rw [List.map_eq_flatMap]
  exact List.flatMap_congr fun t _ => hText t

/-- The other one keeps the token as it stands in the line. -/
theorem scanParts_eq (line : String) :
    scanParts line = (fields line.toList).map fun field =>
      String.ofList (field.flatMap (Token.source '\\' ':')) := by
  rw [scanParts, splitLoop_start, pieces, List.map_map]
  rfl

theorem unescapeNmcli_eq (s : String) :
    unescapeNmcli s = String.ofList ((lex s.toList).map (Token.value ':')) := by
  rw [unescapeNmcli, unescapeLoop_eq, List.nil_append]

/-! ### Every line -/

/-- To split first and to take the backslashes away from each part is to take them away while
splitting, on every line. -/
theorem splitNmcliT_eq_map_unescapeNmcli (line : String) :
    splitNmcliT line = (scanParts line).map unescapeNmcli := by
  rw [splitNmcliT_eq, scanParts_eq, List.map_map]
  refine List.map_congr_left fun field hField => ?_
  have hRead : lex (field.flatMap (Token.source '\\' ':')) = field :=
    EscapedFields.lex_field _ field hField
  rw [Function.comp_apply, unescapeNmcli_eq, String.toList_ofList, hRead]

/-- The scan loses nothing of a line when it splits. -/
theorem intercalate_scanParts (line : String) : String.intercalate ":" (scanParts line) = line := by
  have hLine : [':'].intercalate ((fields line.toList).map fun field =>
      field.flatMap (Token.source '\\' ':')) = line.toList :=
    EscapedFields.intercalate_fields line.toList
  refine String.toList_injective ?_
  rw [String.toList_intercalate, scanParts_eq, List.map_map]
  exact (congrArg _ (List.map_congr_left fun field _ => String.toList_ofList)).trans hLine

/-- On every line the scan's SSID is what the other splitter makes of the last columns. -/
theorem scanColumns_ssid {line signal security inUse ssid : String}
    (h : scanColumns line = some (signal, security, inUse, ssid)) :
    ssid = String.intercalate ":" ((splitNmcliT line).drop 3) := by
  unfold scanColumns at h
  dsimp only at h
  split_ifs at h with hShort
  obtain rfl : unescapeNmcli (String.intercalate ":" ((scanParts line).drop 3)) = ssid :=
    (Prod.mk.inj (Prod.mk.inj (Prod.mk.inj (Option.some.inj h)).2).2).2
  have hTail : (String.intercalate ":" ((scanParts line).drop 3)).toList =
      ([Token.separator].intercalate ((fields line.toList).drop 3)).flatMap
        (Token.source '\\' ':') := by
    rw [String.toList_intercalate, scanParts_eq, EscapedFields.flatMap_intercalate,
      ← List.map_drop, List.map_map]
    exact congrArg _ (List.map_congr_left fun field _ => String.toList_ofList)
  have hRead : lex (String.intercalate ":" ((scanParts line).drop 3)).toList =
      [.separator].intercalate ((fields line.toList).drop 3) :=
    (congrArg lex hTail).trans (EscapedFields.lex_drop line.toList 3)
  rw [unescapeNmcli_eq, hRead, EscapedFields.map_intercalate]
  refine String.toList_injective ?_
  rw [String.toList_ofList, String.toList_intercalate, splitNmcliT_eq, ← List.map_drop,
    List.map_map]
  exact congrArg _ (List.map_congr_left fun field _ => String.toList_ofList.symm)

/-! ### The lines of nmcli -/

theorem toList_escapeField (s : String) :
    (escapeField s).toList = EscapedFields.escape '\\' ':' s.toList := String.toList_ofList

theorem toList_terseLine (fs : List String) :
    (terseLine fs).toList = EscapedFields.join '\\' ':' (fs.map String.toList) := by
  rw [terseLine, String.toList_intercalate, EscapedFields.join, List.map_map, List.map_map]
  exact congrArg _ (List.map_congr_left fun s _ => toList_escapeField s)

theorem fields_terseLine {fs : List String} (hSome : fs ≠ []) :
    fields (terseLine fs).toList =
      fs.map fun s => s.toList.map (EscapedFields.tokenOf '\\' ':') := by
  rw [toList_terseLine, fields, EscapedFields.fields_join (by decide) (by simpa using hSome),
    List.map_map]
  rfl

theorem splitNmcliT_terseLine {fs : List String} (hSome : fs ≠ []) :
    splitNmcliT (terseLine fs) = fs := by
  rw [splitNmcliT_eq, fields_terseLine hSome, List.map_map]
  refine (List.map_congr_left fun s _ => ?_).trans (List.map_id fs)
  rw [Function.comp_apply, EscapedFields.map_value_tokenOf, String.ofList_toList]
  rfl

theorem scanParts_terseLine {fs : List String} (hSome : fs ≠ []) :
    scanParts (terseLine fs) = fs.map escapeField := by
  rw [scanParts_eq, fields_terseLine hSome, List.map_map]
  refine List.map_congr_left fun s _ => ?_
  rw [Function.comp_apply, EscapedFields.flatMap_source_tokenOf]
  rfl

theorem unescapeNmcli_escapeField (s : String) : unescapeNmcli (escapeField s) = s := by
  rw [unescapeNmcli_eq, toList_escapeField, lex, EscapedFields.lex_escape,
    EscapedFields.map_value_tokenOf, String.ofList_toList]

/-- Neither a colon nor a backslash. -/
def Plain (s : String) : Prop := ':' ∉ s.toList ∧ '\\' ∉ s.toList

theorem Plain.escapeField_eq {s : String} (h : Plain s) : escapeField s = s := by
  refine String.toList_injective ?_
  rw [toList_escapeField]
  refine EscapedFields.escape_of_plain fun c hc => ⟨?_, ?_⟩
  · rintro rfl
    exact h.2 hc
  · rintro rfl
    exact h.1 hc

/-- The scan reads a line of four fields as it was written. -/
theorem scanColumns_terseLine {signal security inUse : String} (hSignal : Plain signal)
    (hSecurity : Plain security) (hInUse : Plain inUse) (ssid : String) :
    scanColumns (terseLine [signal, security, inUse, ssid]) =
      some (signal, security, inUse, ssid) := by
  have hParts : scanParts (terseLine [signal, security, inUse, ssid]) =
      [signal, security, inUse, escapeField ssid] := by
    rw [scanParts_terseLine (List.cons_ne_nil _ _), List.map_cons, List.map_cons, List.map_cons,
      List.map_singleton, hSignal.escapeField_eq, hSecurity.escapeField_eq,
      hInUse.escapeField_eq]
  have hTail : unescapeNmcli (String.intercalate ":" [escapeField ssid]) = ssid := by
    rw [String.intercalate_singleton, unescapeNmcli_escapeField]
  simp only [scanColumns, hParts]
  exact congrArg (fun s => some (signal, security, inUse, s)) hTail

/-- **Terse lines.** What nmcli escapes and joins is read back: by the splitter that unescapes on
the way, for every line of at least one field, and by the scan, whose last column is the SSID
whatever its characters. -/
theorem terse_lines_read_back :
    (∀ fs : List String, splitNmcliT (terseLine fs) = fs ↔ fs ≠ []) ∧
      ∀ signal security inUse ssid, Plain signal → Plain security → Plain inUse →
        scanColumns (terseLine [signal, security, inUse, ssid]) =
          some (signal, security, inUse, ssid) := by
  refine ⟨fun fs => ⟨?_, splitNmcliT_terseLine⟩, fun signal security inUse ssid hSignal hSecurity
    hInUse => scanColumns_terseLine hSignal hSecurity hInUse ssid⟩
  rintro hRead rfl
  have hOne : splitNmcliT (terseLine []) = [""] := by decide
  rw [hOne] at hRead
  cases hRead

/-- Backslashes before colons, and one at the end of a field. -/
theorem terse_lines_read_back_backslashes :
    splitNmcliT (terseLine ["a\\\\:", ":b\\", ""]) = ["a\\\\:", ":b\\", ""] ∧
      scanColumns (terseLine ["71", "WPA2", "*", "a\\\\:b\\"]) =
        some ("71", "WPA2", "*", "a\\\\:b\\") :=
  ⟨(terse_lines_read_back.1 _).mpr (by decide),
    terse_lines_read_back.2 _ _ _ _ ⟨by decide, by decide⟩ ⟨by decide, by decide⟩
      ⟨by decide, by decide⟩⟩

/-- No field at all and one empty field are the same line, which is read as one field. -/
theorem no_fields_read_as_one : ¬ splitNmcliT (terseLine []) = [] := by decide

end NmcliTerse
