import WattPost.Lib.PyDict

/-! GLib's key files: groups of `key=value` lines, and the escapes inside a value. Texts have
no NUL character, and translated keys (`key[locale]`) are not read. -/
namespace KeyFile

open PyDict

/-! ### Lines -/

/-- `g_ascii_isspace`. -/
def isSpace (c : Char) : Bool :=
  c == ' ' || c == '\t' || c == '\n' || c == '\x0c' || c == '\r'

theorem isSpace_iff {c : Char} :
    isSpace c = true ↔ c = ' ' ∨ c = '\t' ∨ c = '\n' ∨ c = '\x0c' ∨ c = '\r' := by
  simp only [isSpace, Bool.or_eq_true, beq_iff_eq, or_assoc]

/-- A carriage return in front of the line feed belongs to the line end. -/
def chopReturn (line : List Char) : List Char :=
  if line.getLast? = some '\r' then line.dropLast else line

def linesOf (text : List Char) : List (List Char) :=
  let pieces := PyText.splitChars '\n' text
  pieces.dropLast.map chopReturn ++ [pieces.getLastD []]

/-- What one line says. -/
inductive Entry where
  | blank
  | group (name : String)
  | pair (key value : String)
deriving DecidableEq

/-- The name on a group line; only blanks stand behind its bracket. -/
def readGroup : List Char → Option (List Char)
  | '[' :: rest =>
      match rest.dropWhile (· != ']') with
      | [] => none
      | _ :: behind =>
          if behind.all fun c => c == ' ' || c == '\t' then some (rest.takeWhile (· != ']'))
          else none
  | _ => none

def isGroupName (name : List Char) : Bool :=
  !name.isEmpty && name.all fun c => c != '[' && !(c.toNat < 0x20 || c.toNat == 0x7f)

def isKeyName (key : List Char) : Bool :=
  !key.isEmpty && key.all fun c => c != '[' && c != ']'

/-- Blanks around the `=` belong to neither side; those at the end of the value do. -/
def readPair (line : List Char) : Option Entry :=
  match line.dropWhile (· != '=') with
  | [] => none
  | _ :: value =>
      let key := PyText.rstripBy isSpace (line.takeWhile (· != '='))
      if isKeyName key then
        some (.pair (String.ofList key) (String.ofList (value.dropWhile isSpace)))
      else none

def readLine (line : List Char) : Option Entry :=
  let start := line.dropWhile isSpace
  if start.isEmpty || start.head? == some '#' then some .blank
  else
    match readGroup start with
    | some name => if isGroupName name then some (.group (String.ofList name)) else none
    | none => readPair start

/-! ### Files -/

/-- The groups read so far, and the one that is open. -/
abbrev Reading := Option String × Dict (Dict String)

/-- A group that comes again goes on; a key that comes again is replaced. -/
def take : Reading → Entry → Option Reading
  | reading, .blank => some reading
  | (_, groups), .group name => some (some name, groups.setDefault name Dict.empty)
  | (none, _), .pair _ _ => none
  | (some name, groups), .pair key value =>
      some (some name, groups.set name (((groups.get name).getD Dict.empty).set key value))

def gather (entries : List Entry) : Option (Dict (Dict String)) :=
  (entries.foldlM take (none, Dict.empty)).map Prod.snd

/-- `g_key_file_load_from_data`. -/
def load (text : String) : Option (Dict (Dict String)) :=
  ((linesOf text.toList).mapM readLine).bind gather

/-- The groups of a file with their keys, in order. -/
def layout (file : Dict (Dict String)) : List (String × List String) :=
  file.entries.map fun group => (group.1, group.2.keys)

def value (file : Dict (Dict String)) (group key : String) : Option String :=
  (file.get group).bind fun pairs => pairs.get key

/-! ### Values -/

def escaped : Char → Option Char
  | 's' => some ' '
  | 'n' => some '\n'
  | 't' => some '\t'
  | 'r' => some '\r'
  | '\\' => some '\\'
  | _ => none

/-- A value as a string. Of an unknown escape, or of one at the end, GLib reports
`G_KEY_FILE_ERROR_INVALID_VALUE`; there is no string then, as in the versions that return none
with the error. -/
def unescape : List Char → Option (List Char)
  | [] => some []
  | ['\\'] => none
  | '\\' :: c :: rest =>
      match escaped c with
      | some d => (unescape rest).map fun cs => d :: cs
      | none => none
  | c :: rest => (unescape rest).map fun cs => c :: cs

/-- `g_key_file_get_string`. -/
def getString (file : Dict (Dict String)) (group key : String) : Option String :=
  (value file group key).bind fun text => (unescape text.toList).map String.ofList

/-- A character in front of the first piece of a list. -/
def push (c : Char) : List (List Char) → List (List Char)
  | [] => [[c]]
  | piece :: pieces => (c :: piece) :: pieces

/-- The pieces of a list value; in a list the separator has an escape too. -/
def piecesOf : List Char → Option (List (List Char))
  | [] => some [[]]
  | ['\\'] => none
  | '\\' :: c :: rest =>
      match if c = ';' then some ';' else escaped c with
      | some d => (piecesOf rest).map (push d)
      | none => none
  | ';' :: rest => (piecesOf rest).map fun pieces => [] :: pieces
  | c :: rest => (piecesOf rest).map (push c)

/-- `g_key_file_get_string_list`: nothing stands behind the last separator. -/
def getStringList (file : Dict (Dict String)) (group key : String) : Option (List String) :=
  (value file group key).bind fun text => (piecesOf text.toList).map fun pieces =>
    (if pieces.getLast? = some [] then pieces.dropLast else pieces).map String.ofList

/-! ### Reading what was written -/

theorem chopReturn_of_notMem {line : List Char} (h : '\r' ∉ line) : chopReturn line = line :=
  if_neg fun hLast => h (List.mem_of_getLast? hLast)

/-- Lines that were each written with a line feed are read back one by one. -/
theorem linesOf_lines {lines : List (List Char)}
    (h : ∀ line ∈ lines, '\n' ∉ line ∧ '\r' ∉ line) :
    linesOf (lines.flatMap fun line => line ++ ['\n']) = lines ++ [[]] := by
  have hSplit := PyText.splitChars_lines fun line hLine => (h line hLine).1
  have hChop : lines.map chopReturn = lines := by
    calc lines.map chopReturn = lines.map id :=
          List.map_congr_left fun line hLine => chopReturn_of_notMem (h line hLine).2
      _ = lines := List.map_id lines
  rw [linesOf, hSplit, List.dropLast_concat, hChop, List.getLastD_concat]

/-- Blank lines and comments say nothing. -/
theorem gather_blank (before after : List Entry) :
    gather (before ++ .blank :: after) = gather (before ++ after) := by
  rw [gather, gather, List.foldlM_append, List.foldlM_append]
  rfl

/-- A text made of whole lines, and what they say. -/
def Says (text : String) (entries : List Entry) : Prop :=
  ∃ lines : List (List Char), text.toList = (lines.flatMap fun line => line ++ ['\n']) ∧
    (∀ line ∈ lines, '\n' ∉ line ∧ '\r' ∉ line) ∧ lines.mapM readLine = some entries

theorem Says.append {text text' : String} {entries entries' : List Entry}
    (h : Says text entries) (h' : Says text' entries') :
    Says (text ++ text') (entries ++ entries') := by
  obtain ⟨lines, hText, hPlain, hRead⟩ := h
  obtain ⟨lines', hText', hPlain', hRead'⟩ := h'
  refine ⟨lines ++ lines', ?_, ?_, ?_⟩
  · rw [String.toList_append, hText, hText', List.flatMap_append]
  · intro line hLine
    exact (List.mem_append.mp hLine).elim (hPlain line) (hPlain' line)
  · rw [List.mapM_append, hRead, hRead']
    rfl

theorem Says.line {line : String} {entry : Entry} (hFeed : '\n' ∉ line.toList)
    (hReturn : '\r' ∉ line.toList) (h : readLine line.toList = some entry) :
    Says (line ++ "\n") [entry] := by
  refine ⟨[line.toList], ?_, ?_, ?_⟩
  · rw [String.toList_append, List.flatMap_singleton]
    rfl
  · intro l hl
    obtain rfl := List.mem_singleton.mp hl
    exact ⟨hFeed, hReturn⟩
  · rw [List.mapM_cons, h]
    rfl

/-- A file of such lines is what they say. -/
theorem Says.load {text : String} {entries : List Entry} (h : Says text entries) :
    load text = gather entries := by
  obtain ⟨lines, hText, hPlain, hRead⟩ := h
  have hBlank : [[]].mapM readLine = some [.blank] := by decide
  rw [KeyFile.load, hText, linesOf_lines hPlain, List.mapM_append, hRead, hBlank]
  exact (gather_blank entries []).trans (congrArg gather (List.append_nil entries))

/-! ### Groups written one after the other -/

/-- The groups of a file with their pairs, in order. -/
def groupsOf (file : Dict (Dict String)) : List (String × List (String × String)) :=
  file.entries.map fun group => (group.1, group.2.entries)

def entriesOf (groups : List (String × List (String × String))) : List Entry :=
  groups.flatMap fun group => .group group.1 :: group.2.map fun pair => .pair pair.1 pair.2

theorem entriesOf_append (xs ys : List (String × List (String × String))) :
    entriesOf (xs ++ ys) = entriesOf xs ++ entriesOf ys := List.flatMap_append

theorem layout_eq (file : Dict (Dict String)) :
    layout file = (groupsOf file).map fun group => (group.1, group.2.map Prod.fst) := by
  rw [groupsOf, List.map_map]
  rfl

theorem value_eq (file : Dict (Dict String)) (group key : String) :
    value file group key = ((groupsOf file).lookup group).bind fun pairs => pairs.lookup key := by
  rw [value, Dict.get, groupsOf]
  induction file.entries with
  | nil => rfl
  | cons e rest ih =>
      rw [List.map_cons, lookup_cons_ite, lookup_cons_ite]
      split_ifs
      · rfl
      · exact ih

theorem setEntry_append {α : Type} {k : String} {xs : List (String × α)}
    (h : k ∉ xs.map Prod.fst) (v : α) (ys : List (String × α)) :
    setEntry k v (xs ++ ys) = xs ++ setEntry k v ys := by
  induction xs with
  | nil => rfl
  | cons e rest ih =>
      rw [List.map_cons, List.mem_cons, not_or] at h
      rw [List.cons_append, setEntry, if_neg (Ne.symm h.1), ih h.2]
      rfl

theorem setEntry_of_notMem {α : Type} {k : String} {xs : List (String × α)}
    (h : k ∉ xs.map Prod.fst) (v : α) : setEntry k v xs = xs ++ [(k, v)] := by
  have hAppend := setEntry_append h v []
  rwa [List.append_nil] at hAppend

/-- A new pair comes last in the group that is open. -/
theorem take_pair {file : Dict (Dict String)} {name : String}
    {before : List (String × Dict String)} {pairs : Dict String}
    (hFile : file.entries = before ++ [(name, pairs)]) {key : String} (hKey : key ∉ pairs.keys)
    (text : String) :
    ∃ file' : Dict (Dict String), ∃ pairs' : Dict String,
      take (some name, file) (.pair key text) = some (some name, file') ∧
        file'.entries = before ++ [(name, pairs')] ∧
        pairs'.entries = pairs.entries ++ [(key, text)] := by
  have hGet : file.get name = some pairs := by
    rw [← Dict.mem_iff_get, hFile]
    exact List.mem_append_right _ List.mem_cons_self
  have hNew : name ∉ before.map Prod.fst := by
    have hNodup := file.nodup
    rw [hFile, List.map_append, List.nodup_append] at hNodup
    intro hMem
    exact hNodup.2.2 name hMem name List.mem_cons_self rfl
  refine ⟨file.set name (pairs.set key text), pairs.set key text, ?_, ?_,
    setEntry_of_notMem hKey text⟩
  · rw [take, hGet, Option.getD_some]
  · show setEntry name (pairs.set key text) file.entries = _
    rw [hFile, setEntry_append hNew, setEntry, if_pos rfl]

theorem foldlM_pairs {file : Dict (Dict String)} {name : String}
    {before : List (String × Dict String)} {pairs : Dict String}
    (hFile : file.entries = before ++ [(name, pairs)]) (more : List (String × String))
    (hKeys : (pairs.keys ++ more.map Prod.fst).Nodup) :
    ∃ file' : Dict (Dict String), ∃ pairs' : Dict String,
      (more.map fun pair => Entry.pair pair.1 pair.2).foldlM take (some name, file) =
          some (some name, file') ∧
        file'.entries = before ++ [(name, pairs')] ∧ pairs'.entries = pairs.entries ++ more := by
  induction more generalizing file pairs with
  | nil => exact ⟨file, pairs, rfl, hFile, (List.append_nil _).symm⟩
  | cons pair more ih =>
      have hKey : pair.1 ∉ pairs.keys := by
        intro hMem
        exact (List.nodup_append.mp hKeys).2.2 _ hMem _ List.mem_cons_self rfl
      obtain ⟨mid, pairs', hTake, hMid, hPairs⟩ := take_pair hFile hKey pair.2
      have hRest : (pairs'.keys ++ more.map Prod.fst).Nodup := by
        rw [Dict.keys, hPairs, List.map_append, List.append_assoc]
        exact hKeys
      obtain ⟨file', pairs'', hFold, hFile', hAll⟩ := ih hMid hRest
      refine ⟨file', pairs'', ?_, hFile', ?_⟩
      · rw [List.map_cons, List.foldlM_cons, hTake]
        exact hFold
      · rw [hAll, hPairs, List.append_assoc]
        rfl

theorem foldlM_groups {groups : List (String × List (String × String))}
    (hPairs : ∀ group ∈ groups, (group.2.map Prod.fst).Nodup) (opened : Option String)
    {file : Dict (Dict String)} (hNames : (file.keys ++ groups.map Prod.fst).Nodup) :
    ∃ reading, (entriesOf groups).foldlM take (opened, file) = some reading ∧
      groupsOf reading.2 = groupsOf file ++ groups := by
  induction groups generalizing opened file with
  | nil => exact ⟨(opened, file), rfl, (List.append_nil _).symm⟩
  | cons group groups ih =>
      obtain ⟨hGroup, hRest⟩ := List.forall_mem_cons.mp hPairs
      have hNew : group.1 ∉ file.keys := by
        intro hMem
        exact (List.nodup_append.mp hNames).2.2 _ hMem _ List.mem_cons_self rfl
      have hOpened : (file.setDefault group.1 Dict.empty).entries =
          file.entries ++ [(group.1, Dict.empty)] := by
        rw [Dict.setDefault, Dict.get_eq_none_iff.mpr hNew]
        exact setEntry_of_notMem hNew _
      obtain ⟨mid, pairs, hFold, hMid, hAll⟩ := foldlM_pairs hOpened group.2 hGroup
      have hGroups : groupsOf mid = groupsOf file ++ [group] := by
        rw [groupsOf, hMid, List.map_append, groupsOf]
        refine congrArg (_ ++ ·) ?_
        rw [List.map_singleton, hAll]
        rfl
      have hKeys : mid.keys = file.keys ++ [group.1] := by
        rw [Dict.keys, hMid, List.map_append]
        rfl
      have hMidNames : (mid.keys ++ groups.map Prod.fst).Nodup := by
        rw [hKeys, List.append_assoc]
        exact hNames
      obtain ⟨reading, hReading, hOf⟩ := ih hRest (some group.1) hMidNames
      refine ⟨reading, ?_, ?_⟩
      · rw [entriesOf, List.flatMap_cons, List.foldlM_append, List.foldlM_cons]
        show ((group.2.map fun pair => Entry.pair pair.1 pair.2).foldlM take
          (some group.1, file.setDefault group.1 Dict.empty)).bind _ = _
        rw [hFold]
        exact hReading
      · rw [hOf, hGroups, List.append_assoc]
        rfl

/-- Groups with distinct names, each with distinct keys, are read back as they were written. -/
theorem gather_entriesOf {groups : List (String × List (String × String))}
    (hNames : (groups.map Prod.fst).Nodup)
    (hPairs : ∀ group ∈ groups, (group.2.map Prod.fst).Nodup) :
    ∃ file, gather (entriesOf groups) = some file ∧ groupsOf file = groups := by
  obtain ⟨reading, hFold, hGroups⟩ := foldlM_groups hPairs none
    (show (Dict.keys (Dict.empty : Dict (Dict String)) ++ groups.map Prod.fst).Nodup from hNames)
  refine ⟨reading.2, ?_, hGroups⟩
  rw [gather, hFold]
  rfl

/-! ### Reading a pair -/

/-- A key without blanks and brackets, whose line is read as a pair. -/
def Plain (key : List Char) : Prop :=
  isKeyName key = true ∧ key.all (fun c => !isSpace c && c != '=') = true ∧
    key.head? ≠ some '#'

instance (key : List Char) : Decidable (Plain key) := inferInstanceAs (Decidable (_ ∧ _))

/-- The pair that a line with a plain key says. -/
theorem readLine_pair {key : List Char} (h : Plain key) (text : List Char) :
    readLine (key ++ '=' :: text) =
      some (.pair (String.ofList key) (String.ofList (text.dropWhile isSpace))) := by
  obtain ⟨hName, hChars, hHash⟩ := h
  have hChar : ∀ c ∈ key, isSpace c = false ∧ c ≠ '=' := by
    intro c hc
    simpa using List.all_eq_true.mp hChars c hc
  have hNoEq : '=' ∉ key := fun hMem => (hChar _ hMem).2 rfl
  obtain ⟨hTake, hDrop⟩ := PyText.takeWhile_sep hNoEq text
  have hPair : readPair (key ++ '=' :: text) =
      some (.pair (String.ofList key) (String.ofList (text.dropWhile isSpace))) := by
    rw [readPair, hDrop, hTake]
    dsimp only
    rw [PyText.rstripBy_of_all fun c hc => (hChar c hc).1, if_pos hName]
  cases key with
  | nil => exact absurd hName (by decide)
  | cons first more =>
      have hFirst := (hChar first List.mem_cons_self).1
      have hBracket : first ≠ '[' := by
        rintro rfl
        simp [isKeyName] at hName
      have hGroup : readGroup ((first :: more) ++ '=' :: text) = none := by
        rw [List.cons_append, readGroup]
        intro rest hRest
        exact hBracket (List.cons.inj hRest).1
      have hStart : ((first :: more) ++ '=' :: text).dropWhile isSpace =
          (first :: more) ++ '=' :: text := by
        rw [List.cons_append, List.dropWhile_cons_of_neg (by simp [hFirst])]
      have hNoHash : (first == '#') = false := by
        rw [beq_eq_false_iff_ne]
        rintro rfl
        exact hHash rfl
      rw [readLine, hStart, hGroup]
      simpa [hNoHash] using hPair

/-! ### Values that need no escape -/

theorem unescape_of_notMem {cs : List Char} (h : '\\' ∉ cs) : unescape cs = some cs := by
  induction cs with
  | nil => rfl
  | cons c rest ih =>
      rw [List.mem_cons, not_or] at h
      rw [unescape, ih h.2]
      · rfl
      · intro hEq
        exact absurd hEq.symm h.1
      · intro d more hEq
        exact absurd hEq.symm h.1

theorem getString_of_value {file : Dict (Dict String)} {group key v : String}
    (h : value file group key = some v) (hPlain : '\\' ∉ v.toList) :
    getString file group key = some v := by
  rw [getString, h, Option.bind_some, unescape_of_notMem hPlain, Option.map_some,
    String.ofList_toList]

/-- Reading escapes makes a text shorter, and leaves it alone only where there are none. -/
theorem unescape_length {cs text : List Char} (h : unescape cs = some text) :
    text.length ≤ cs.length ∧ (text.length = cs.length → '\\' ∉ cs) := by
  induction cs using unescape.induct generalizing text with
  | case1 =>
      cases h
      simp
  | case2 => cases h
  | case3 c rest d hd ih =>
      rw [unescape, hd] at h
      obtain ⟨tail, hTail, rfl⟩ := Option.map_eq_some_iff.mp h
      have hLength := (ih hTail).1
      simp only [List.length_cons]
      omega
  | case4 c rest hNone =>
      rw [unescape, hNone] at h
      cases h
  | case5 c rest hLast hMore ih =>
      rw [unescape] at h
      · obtain ⟨tail, hTail, rfl⟩ := Option.map_eq_some_iff.mp h
        obtain ⟨hLength, hFree⟩ := ih hTail
        refine ⟨Nat.succ_le_succ hLength, fun hEq => ?_⟩
        have hRest : '\\' ∉ rest := hFree (Nat.succ.inj hEq)
        rw [List.mem_cons, not_or]
        refine ⟨fun hSlash => ?_, hRest⟩
        cases rest with
        | nil => exact hLast hSlash.symm rfl
        | cons d more => exact hMore d more hSlash.symm rfl
      · exact hLast
      · exact hMore

/-- A piece without separator and escapes is read as it stands. -/
theorem piecesOf_append {cs : List Char} (hSlash : '\\' ∉ cs) (hSep : ';' ∉ cs)
    (rest : List Char) :
    piecesOf (cs ++ ';' :: rest) = (piecesOf rest).map fun pieces => cs :: pieces := by
  induction cs with
  | nil => rfl
  | cons c more ih =>
      rw [List.mem_cons, not_or] at hSlash hSep
      rw [List.cons_append, piecesOf, ih hSlash.2 hSep.2]
      · cases piecesOf rest <;> rfl
      · intro hEq
        exact absurd hEq.symm hSlash.1
      · intro d behind hEq
        exact absurd hEq.symm hSlash.1
      · intro hEq
        exact absurd hEq.symm hSep.1

theorem piecesOf_list {items : List (List Char)}
    (h : ∀ item ∈ items, '\\' ∉ item ∧ ';' ∉ item) :
    piecesOf (items.flatMap fun item => item ++ [';']) = some (items ++ [[]]) := by
  induction items with
  | nil => rfl
  | cons item items ih =>
      obtain ⟨hItem, hRest⟩ := List.forall_mem_cons.mp h
      rw [List.flatMap_cons, List.append_assoc, List.singleton_append,
        piecesOf_append hItem.1 hItem.2, ih hRest]
      rfl

/-- A list whose items each end in a separator. -/
theorem getStringList_of_value {file : Dict (Dict String)} {group key v : String}
    (h : value file group key = some v) {items : List String}
    (hText : v.toList = (items.map String.toList).flatMap fun item => item ++ [';'])
    (hPlain : ∀ item ∈ items, '\\' ∉ item.toList ∧ ';' ∉ item.toList) :
    getStringList file group key = some items := by
  have hItems : ∀ item ∈ items.map String.toList, '\\' ∉ item ∧ ';' ∉ item := by
    intro item hItem
    obtain ⟨text, hMem, rfl⟩ := List.mem_map.mp hItem
    exact hPlain text hMem
  have hBack : (items.map String.toList).map String.ofList = items := by
    rw [List.map_map]
    calc items.map (String.ofList ∘ String.toList) = items.map id :=
          List.map_congr_left fun item _ => String.ofList_toList
      _ = items := List.map_id items
  rw [getStringList, h, Option.bind_some, hText, piecesOf_list hItems, Option.map_some,
    List.getLast?_concat, if_pos rfl, List.dropLast_concat, hBack]

end KeyFile
