import Mathlib.Data.String.Basic
import WattPost.Cloud.Json
import WattPost.Lib.PyText
import WattPost.Lib.Table
import WattPost.Lib.Unambiguous
import WattPost.Storage.SignedAudit

/-! `json.dumps` with sorted keys, the separators `,` and `:` and `ensure_ascii` off. Two
values that `json.loads` can return have one text if and only if they are equal, up to the
order of the names in their objects. -/
namespace WattPost.Cloud.Json

open Keyed Unambiguous
open SignedAudit (jsonChar)

/-! ### The encoder -/

/-- A float: the names for what is no number are not those of `repr`. -/
def floatText (literal : String) : String :=
  if literal = "nan" then "NaN"
  else if literal = "inf" then "Infinity"
  else if literal = "-inf" then "-Infinity"
  else literal

/-- A string behind its opening quote. -/
def stringTail (s : String) : List Char := s.toList.flatMap jsonChar ++ ['"']

mutual

def encode : Json → List Char
  | .null => "null".toList
  | .bool b => (if b then "true" else "false").toList
  | .int n => (toString n).toList
  | .float literal => (floatText literal).toList
  | .str s => '"' :: stringTail s
  | .arr values => '[' :: separated ',' ']' (encodeAll values)
  | .obj fields => '\x7b' :: separated ',' '\x7d' (encodeFields fields)

def encodeAll : List Json → List (List Char)
  | [] => []
  | value :: values => encode value :: encodeAll values

def encodeFields : List (String × Json) → List (List Char)
  | [] => []
  | (name, value) :: fields =>
      ('"' :: stringTail name ++ ':' :: encode value) :: encodeFields fields

end

mutual

/-- `sort_keys`; the last of several equal names counts. -/
def sortKeys : Json → Json
  | .arr values => .arr (sortKeysAll values)
  | .obj fields => .obj (Table.empty.insertAll (sortKeysFields fields)).rows
  | .null => .null
  | .bool b => .bool b
  | .int n => .int n
  | .float literal => .float literal
  | .str s => .str s

def sortKeysAll : List Json → List Json
  | [] => []
  | value :: values => sortKeys value :: sortKeysAll values

def sortKeysFields : List (String × Json) → List (String × Json)
  | [] => []
  | (name, value) :: fields => (name, sortKeys value) :: sortKeysFields fields

end

def dumps (j : Json) : String := String.ofList (encode (sortKeys j))

def encodeField (field : String × Json) : List Char :=
  '"' :: stringTail field.1 ++ ':' :: encode field.2

theorem encodeAll_eq (values : List Json) : encodeAll values = values.map encode := by
  induction values with
  | nil => rfl
  | cons value values ih => rw [encodeAll, ih, List.map_cons]

theorem encodeFields_eq (fields : List (String × Json)) :
    encodeFields fields = fields.map encodeField := by
  induction fields with
  | nil => rfl
  | cons field fields ih => rw [encodeFields, ih, List.map_cons, encodeField]

theorem sortKeysAll_eq (values : List Json) : sortKeysAll values = values.map sortKeys := by
  induction values with
  | nil => rfl
  | cons value values ih => rw [sortKeysAll, ih, List.map_cons]

theorem sortKeysFields_eq (fields : List (String × Json)) :
    sortKeysFields fields = fields.map fun field => (field.1, sortKeys field.2) := by
  induction fields with
  | nil => rfl
  | cons field fields ih => rw [sortKeysFields, ih, List.map_cons]

/-- What holds of a value when it holds of its members holds of every value. -/
@[elab_as_elim]
theorem membersInduction {P : Json → Prop} (null : P .null) (bool : ∀ b, P (.bool b))
    (int : ∀ n, P (.int n)) (float : ∀ literal, P (.float literal)) (str : ∀ s, P (.str s))
    (arr : ∀ values, (∀ value ∈ values, P value) → P (.arr values))
    (obj : ∀ fields, (∀ field ∈ fields, P field.2) → P (.obj fields)) (a : Json) : P a := by
  refine @Json.rec P (fun values => ∀ value ∈ values, P value)
    (fun fields => ∀ field ∈ fields, P field.2) (fun field => P field.2)
    null bool int float str arr obj ?_ ?_ ?_ ?_ ?_ a
  · intro value hMem
    cases hMem
  · intro value values hValue hValues
    exact List.forall_mem_cons.mpr ⟨hValue, hValues⟩
  · intro field hMem
    cases hMem
  · intro field fields hField hFields
    exact List.forall_mem_cons.mpr ⟨hField, hFields⟩
  · intro name value hValue
    exact hValue

/-! ### What `json.loads` returns -/

/-- The characters of numbers. -/
def numeralChar (c : Char) : Bool := c.isDigit || ['.', 'e', '+', '-'].contains c

/-- What `repr` writes for a float. -/
def IsFloatRepr (literal : String) : Prop :=
  literal ∈ ["nan", "inf", "-inf"] ∨
    (∀ c ∈ literal.toList, numeralChar c = true) ∧
      ∃ c ∈ literal.toList, c = '.' ∨ c = 'e'

mutual

/-- A value whose floats are floats. -/
def Loaded : Json → Prop
  | .float literal => IsFloatRepr literal
  | .arr values => LoadedAll values
  | .obj fields => LoadedFields fields
  | .null => True
  | .bool _ => True
  | .int _ => True
  | .str _ => True

def LoadedAll : List Json → Prop
  | [] => True
  | value :: values => Loaded value ∧ LoadedAll values

def LoadedFields : List (String × Json) → Prop
  | [] => True
  | (_, value) :: fields => Loaded value ∧ LoadedFields fields

end

theorem loadedAll_iff {values : List Json} : LoadedAll values ↔ ∀ value ∈ values, Loaded value := by
  induction values with
  | nil => simp [LoadedAll]
  | cons value values ih => simp [LoadedAll, ih]

theorem loadedFields_iff {fields : List (String × Json)} :
    LoadedFields fields ↔ ∀ field ∈ fields, Loaded field.2 := by
  induction fields with
  | nil => simp [LoadedFields]
  | cons field fields ih => simp [LoadedFields, ih]

/-! ### Strings -/

/-- The value of a hexadecimal digit in lower case. -/
def hexValue (c : Char) : Nat :=
  if c.isDigit then c.toNat - '0'.toNat else c.toNat - 'a'.toNat + 10

theorem hexValue_digitChar : ∀ d < 16, hexValue (Nat.digitChar d) = d := by decide

/-- One character of a string is read back. -/
def readChar : List Char → Option (Char × List Char)
  | '\\' :: 'n' :: rest => some ('\n', rest)
  | '\\' :: 'r' :: rest => some ('\r', rest)
  | '\\' :: 't' :: rest => some ('\t', rest)
  | '\\' :: 'f' :: rest => some (Char.ofNat 0x0c, rest)
  | '\\' :: 'b' :: rest => some (Char.ofNat 0x08, rest)
  | '\\' :: 'u' :: _ :: _ :: high :: low :: rest =>
      some (Char.ofNat (16 * hexValue high + hexValue low), rest)
  | '\\' :: c :: rest => some (c, rest)
  | c :: rest => some (c, rest)
  | [] => none

theorem readChar_jsonChar (c : Char) (rest : List Char) :
    readChar (jsonChar c ++ rest) = some (c, rest) := by
  unfold jsonChar
  split
  case isTrue h =>
    subst h
    rfl
  split
  case isTrue h =>
    subst h
    rfl
  split
  case isTrue h =>
    subst h
    rfl
  split
  case isTrue h =>
    subst h
    rfl
  split
  case isTrue h =>
    subst h
    rfl
  split
  case isTrue h =>
    have hChar : Char.ofNat 0x0c = c := by rw [← h, Char.ofNat_toNat]
    rw [← hChar]
    rfl
  split
  case isTrue h =>
    have hChar : Char.ofNat 0x08 = c := by rw [← h, Char.ofNat_toNat]
    rw [← hChar]
    rfl
  split
  case isTrue h =>
    have hHigh := hexValue_digitChar (c.toNat / 16) (by omega)
    have hLow := hexValue_digitChar (c.toNat % 16) (by omega)
    have hChar : Char.ofNat (16 * (c.toNat / 16) + c.toNat % 16) = c := by
      rw [Nat.div_add_mod, Char.ofNat_toNat]
    simp only [List.cons_append, List.nil_append, readChar, hHigh, hLow, hChar]
  case isFalse hQuote hBackslash _ _ _ _ _ _ =>
    rw [List.singleton_append, readChar.eq_def]
    split
    all_goals simp_all

theorem jsonChar_ne_quote (c : Char) (rest rest' : List Char) :
    jsonChar c ++ rest ≠ '"' :: rest' := by
  intro h
  have hRead := readChar_jsonChar c rest
  rw [h] at hRead
  obtain rfl : '"' = c := congrArg Prod.fst (Option.some.inj hRead)
  cases h

theorem stringTail_append_injective {s t : String} {u v : List Char}
    (h : stringTail s ++ u = stringTail t ++ v) : s = t ∧ u = v := by
  rw [stringTail, stringTail, List.append_assoc, List.append_assoc] at h
  obtain ⟨hChars, hRest⟩ := quoted_append_injective readChar_jsonChar jsonChar_ne_quote h
  exact ⟨String.ext hChars, hRest⟩

/-! ### Numbers and names -/

/-- The characters of numbers and of the names of constants. -/
def atomChar (c : Char) : Bool := c.isAlphanum || ['.', '+', '-'].contains c

/-- What the first character of a text tells apart. -/
inductive Kind where
  | atom
  | string
  | array
  | object
deriving DecidableEq

def kind : Json → Kind
  | .null => .atom
  | .bool _ => .atom
  | .int _ => .atom
  | .float _ => .atom
  | .str _ => .string
  | .arr _ => .array
  | .obj _ => .object

def kindOfHead (c : Char) : Kind :=
  if c = '"' then .string
  else if c = '[' then .array
  else if c = '\x7b' then .object
  else .atom

/-- An integer is read back. -/
def readInt : List Char → Int
  | '-' :: digits => -Nat.ofDigitChars 10 digits 0
  | digits => Nat.ofDigitChars 10 digits 0

theorem toList_toString_int (n : Int) :
    (toString n).toList =
      if 0 ≤ n then n.toNat.repr.toList else '-' :: (-n).toNat.repr.toList := by
  rw [Int.toString_eq_repr, Int.repr_eq_if]
  split
  · rfl
  · rw [String.toList_append]
    rfl

theorem mem_toString_int {n : Int} {c : Char} (hc : c ∈ (toString n).toList) :
    c.isDigit = true ∨ c = '-' := by
  rw [toList_toString_int] at hc
  split at hc
  · exact Or.inl (PyText.isDigit_of_mem_repr hc)
  · rcases List.mem_cons.mp hc with rfl | hc
    · exact Or.inr rfl
    · exact Or.inl (PyText.isDigit_of_mem_repr hc)

theorem readInt_toString (n : Int) : readInt (toString n).toList = n := by
  rw [toList_toString_int]
  split
  case isTrue hPos =>
    have hRead : readInt n.toNat.repr.toList = Nat.ofDigitChars 10 n.toNat.repr.toList 0 := by
      unfold readInt
      split
      case h_1 digits hText =>
        have hMinus : '-' ∈ n.toNat.repr.toList := hText ▸ List.mem_cons_self
        have hDigit := PyText.isDigit_of_mem_repr hMinus
        cases hDigit
      case h_2 => rfl
    rw [hRead, Nat.toList_repr, Nat.ofDigitChars_ten_toDigits]
    omega
  case isFalse hNeg =>
    rw [readInt, Nat.toList_repr, Nat.ofDigitChars_ten_toDigits]
    omega

/-- A run of such characters is none of the names. -/
theorem numeral_ne {text name : List Char} (hText : ∀ c ∈ text, numeralChar c = true)
    (hName : name.all numeralChar = false) : text ≠ name := by
  rintro rfl
  rw [List.all_eq_true.mpr hText] at hName
  cases hName

/-- A constant or a number is read back. -/
def readAtom (text : List Char) : Json :=
  if text = "null".toList then .null
  else if text = "true".toList then .bool true
  else if text = "false".toList then .bool false
  else if text = "NaN".toList then .float "nan"
  else if text = "Infinity".toList then .float "inf"
  else if text = "-Infinity".toList then .float "-inf"
  else if text.any (fun c => c = '.' || c = 'e') then .float (String.ofList text)
  else .int (readInt text)

theorem readAtom_numeral {text : List Char} (hText : ∀ c ∈ text, numeralChar c = true) :
    readAtom text =
      if text.any (fun c => c = '.' || c = 'e') then .float (String.ofList text)
      else .int (readInt text) := by
  rw [readAtom, if_neg (numeral_ne hText (by decide)), if_neg (numeral_ne hText (by decide)),
    if_neg (numeral_ne hText (by decide)), if_neg (numeral_ne hText (by decide)),
    if_neg (numeral_ne hText (by decide)), if_neg (numeral_ne hText (by decide))]

/-- The text of a float that is a number is its literal. -/
theorem floatText_numeral {literal : String} (h : ∀ c ∈ literal.toList, numeralChar c = true) :
    floatText literal = literal := by
  have hNe : ∀ name : String, name.toList.all numeralChar = false → literal ≠ name := by
    intro name hName hEq
    exact numeral_ne h hName (congrArg String.toList hEq)
  rw [floatText, if_neg (hNe "nan" (by decide)), if_neg (hNe "inf" (by decide)),
    if_neg (hNe "-inf" (by decide))]

theorem numeralChar_toString_int {n : Int} {c : Char} (hc : c ∈ (toString n).toList) :
    numeralChar c = true := by
  rcases mem_toString_int hc with hDigit | rfl
  · simp [numeralChar, hDigit]
  · rfl

theorem readAtom_encode {a : Json} (hAtom : kind a = .atom) (h : Loaded a) :
    readAtom (encode a) = a := by
  cases a with
  | null => rfl
  | bool b => cases b <;> rfl
  | int n =>
      rw [encode, readAtom_numeral fun c hc => numeralChar_toString_int hc, if_neg,
        readInt_toString]
      rw [List.any_eq_true]
      rintro ⟨c, hc, hPoint⟩
      rcases mem_toString_int hc with hDigit | rfl
      · simp only [Bool.or_eq_true, decide_eq_true_eq] at hPoint
        rcases hPoint with rfl | rfl
        · cases hDigit
        · cases hDigit
      · cases hPoint
  | float literal =>
      rw [Loaded] at h
      rcases h with hName | ⟨hChars, c, hc, hPoint⟩
      · simp only [List.mem_cons, List.not_mem_nil, or_false] at hName
        rcases hName with rfl | rfl | rfl
        · rfl
        · rfl
        · rfl
      · rw [encode, floatText_numeral hChars, readAtom_numeral hChars, if_pos, String.ofList_toList]
        rw [List.any_eq_true]
        exact ⟨c, hc, by simpa using hPoint⟩
  | str s => cases hAtom
  | arr values => cases hAtom
  | obj fields => cases hAtom

theorem atomChar_of_numeralChar {c : Char} (h : numeralChar c = true) : atomChar c = true := by
  simp only [numeralChar, Bool.or_eq_true, List.contains_eq_mem, List.mem_cons,
    List.not_mem_nil, or_false, decide_eq_true_eq] at h
  rcases h with hDigit | rfl | rfl | rfl | rfl
  · simp [atomChar, Char.isAlphanum, hDigit]
  · rfl
  · rfl
  · rfl
  · rfl

theorem atomChar_encode {a : Json} (hAtom : kind a = .atom) (h : Loaded a) :
    ∀ c ∈ encode a, atomChar c = true := by
  cases a with
  | null => exact List.all_eq_true.mp (by decide)
  | bool b =>
      cases b with
      | false => exact List.all_eq_true.mp (by decide)
      | true => exact List.all_eq_true.mp (by decide)
  | int n =>
      intro c hc
      exact atomChar_of_numeralChar (numeralChar_toString_int hc)
  | float literal =>
      rw [Loaded] at h
      rcases h with hName | ⟨hChars, _⟩
      · simp only [List.mem_cons, List.not_mem_nil, or_false] at hName
        rcases hName with rfl | rfl | rfl
        · exact List.all_eq_true.mp (by decide)
        · exact List.all_eq_true.mp (by decide)
        · exact List.all_eq_true.mp (by decide)
      · rw [encode, floatText_numeral hChars]
        intro c hc
        exact atomChar_of_numeralChar (hChars c hc)
  | str s => cases hAtom
  | arr values => cases hAtom
  | obj fields => cases hAtom

/-- The first character of a text tells the kind of the value. -/
theorem encode_head {a : Json} (h : Loaded a) :
    ∃ c rest, encode a = c :: rest ∧ kindOfHead c = kind a := by
  by_cases hAtom : kind a = .atom
  · cases hText : encode a with
    | nil =>
        have hRead := readAtom_encode hAtom h
        rw [hText] at hRead
        subst hRead
        cases hText
    | cons c rest =>
        refine ⟨c, rest, rfl, ?_⟩
        have hChar := atomChar_encode hAtom h c (hText ▸ List.mem_cons_self)
        rw [hAtom, kindOfHead, if_neg, if_neg, if_neg]
        all_goals
          rintro rfl
          cases hChar
  · cases a with
    | str s => exact ⟨_, _, rfl, rfl⟩
    | arr values => exact ⟨_, _, rfl, rfl⟩
    | obj fields => exact ⟨_, _, rfl, rfl⟩
    | _ => exact absurd rfl hAtom

theorem kind_eq {a b : Json} (ha : Loaded a) (hb : Loaded b) {r s : List Char}
    (h : encode a ++ r = encode b ++ s) : kind a = kind b := by
  obtain ⟨c, rest, hA, hKind⟩ := encode_head ha
  obtain ⟨d, rest', hB, hKind'⟩ := encode_head hb
  rw [hA, hB] at h
  obtain rfl := (List.cons.inj h).1
  exact hKind.symm.trans hKind'

/-! ### Values -/

/-- What stands behind a value is no part of it. -/
abbrev Ends : List Char → Prop := StartsOutside atomChar

theorem ends_comma (rest : List Char) : Ends (',' :: rest) := startsOutside_cons rfl rest

theorem readsOff_atom {a : Json} (hAtom : kind a = .atom) (ha : Loaded a) :
    ReadsOff encode Loaded Ends a := by
  intro b r s hb hr hs h
  have hAtom' : kind b = .atom := (kind_eq ha hb h).symm.trans hAtom
  obtain ⟨hText, hRest⟩ :=
    run_append_injective (atomChar_encode hAtom ha) (atomChar_encode hAtom' hb) hr hs h
  refine ⟨?_, hRest⟩
  rw [← readAtom_encode hAtom ha, hText, readAtom_encode hAtom' hb]

theorem readsOff_str (s : String) : ReadsOff encode Loaded Ends (.str s) := by
  intro b u v hb _ _ h
  have hString : Loaded (.str s) := trivial
  have hKind := kind_eq hString hb h
  cases b with
  | str t =>
      rw [encode, encode, List.cons_append, List.cons_append] at h
      obtain ⟨rfl, rfl⟩ := stringTail_append_injective (List.cons.inj h).2
      exact ⟨rfl, rfl⟩
  | _ => cases hKind

/-- No value starts like the end of an array. -/
theorem encode_ne_close {a : Json} (ha : Loaded a) (rest rest' : List Char) :
    encode a ++ rest ≠ ']' :: rest' := by
  intro h
  obtain ⟨c, text, hA, hKind⟩ := encode_head ha
  rw [hA] at h
  obtain rfl : c = ']' := (List.cons.inj h).1
  have hAtom : kind a = .atom := hKind.symm
  have hChar := atomChar_encode hAtom ha ']' (hA ▸ List.mem_cons_self)
  cases hChar

theorem readsOff_arr {values : List Json} (hLoaded : ∀ value ∈ values, Loaded value)
    (hReads : ∀ value ∈ values, ReadsOff encode Loaded Ends value) :
    ReadsOff encode Loaded Ends (.arr values) := by
  intro b r s hb _ _ h
  have hArray : Loaded (.arr values) := loadedAll_iff.mpr hLoaded
  have hKind := kind_eq hArray hb h
  cases b with
  | arr values' =>
      have hLoaded' := loadedAll_iff.mp hb
      rw [encode, encode, encodeAll_eq, encodeAll_eq, List.cons_append, List.cons_append] at h
      obtain ⟨rfl, rfl⟩ := separated_append_injective (by decide) ends_comma
        (startsOutside_cons rfl) hReads (fun value hMem => encode_ne_close (hLoaded value hMem))
        (fun value hMem => encode_ne_close (hLoaded' value hMem)) hLoaded' (List.cons.inj h).2
      exact ⟨rfl, rfl⟩
  | _ => cases hKind

theorem readsOff_field {field : String × Json} (hReads : ReadsOff encode Loaded Ends field.2) :
    ReadsOff encodeField (fun field => Loaded field.2) Ends field := by
  intro field' r s hLoaded hr hs h
  rw [encodeField, encodeField, List.cons_append, List.cons_append, List.append_assoc,
    List.append_assoc] at h
  obtain ⟨hName, hValue⟩ := stringTail_append_injective (List.cons.inj h).2
  obtain ⟨hSame, hRest⟩ := hReads field'.2 r s hLoaded hr hs (List.cons.inj hValue).2
  exact ⟨Prod.ext hName hSame, hRest⟩

theorem encodeField_ne_close (field : String × Json) (rest rest' : List Char) :
    encodeField field ++ rest ≠ '\x7d' :: rest' := by
  intro h
  have hHead : '"' = '\x7d' := (List.cons.inj h).1
  cases hHead

theorem readsOff_obj {fields : List (String × Json)} (hLoaded : ∀ field ∈ fields, Loaded field.2)
    (hReads : ∀ field ∈ fields, ReadsOff encode Loaded Ends field.2) :
    ReadsOff encode Loaded Ends (.obj fields) := by
  intro b r s hb _ _ h
  have hObject : Loaded (.obj fields) := loadedFields_iff.mpr hLoaded
  have hKind := kind_eq hObject hb h
  cases b with
  | obj fields' =>
      rw [encode, encode, encodeFields_eq, encodeFields_eq, List.cons_append,
        List.cons_append] at h
      obtain ⟨rfl, rfl⟩ := separated_append_injective (by decide) ends_comma
        (startsOutside_cons rfl) (fun field hMem => readsOff_field (hReads field hMem))
        (fun field _ => encodeField_ne_close field) (fun field _ => encodeField_ne_close field)
        (loadedFields_iff.mp hb) (List.cons.inj h).2
      exact ⟨rfl, rfl⟩
  | _ => cases hKind

/-- A value can be read off the front of a text. -/
theorem readsOff_encode {a : Json} (h : Loaded a) : ReadsOff encode Loaded Ends a := by
  induction a using membersInduction with
  | null => exact readsOff_atom rfl h
  | bool b => exact readsOff_atom rfl h
  | int n => exact readsOff_atom rfl h
  | float literal => exact readsOff_atom rfl h
  | str s => exact readsOff_str s
  | arr values ih =>
      have hLoaded := loadedAll_iff.mp h
      exact readsOff_arr hLoaded fun value hMem => ih value hMem (hLoaded value hMem)
  | obj fields ih =>
      have hLoaded := loadedFields_iff.mp h
      exact readsOff_obj hLoaded fun field hMem => ih field hMem (hLoaded field hMem)

theorem encode_injective {a b : Json} (ha : Loaded a) (hb : Loaded b)
    (h : encode a = encode b) : a = b := by
  have hText : encode a ++ [] = encode b ++ [] := by rw [h]
  exact (readsOff_encode ha b [] [] hb startsOutside_nil startsOutside_nil hText).1

/-! ### Sorted keys -/

theorem loaded_sortKeys {a : Json} (h : Loaded a) : Loaded (sortKeys a) := by
  induction a using membersInduction with
  | null => exact h
  | bool b => exact h
  | int n => exact h
  | float literal => exact h
  | str s => exact h
  | arr values ih =>
      have hLoaded := loadedAll_iff.mp h
      rw [sortKeys, Loaded, loadedAll_iff, sortKeysAll_eq, List.forall_mem_map]
      exact fun value hMem => ih value hMem (hLoaded value hMem)
  | obj fields ih =>
      have hLoaded := loadedFields_iff.mp h
      rw [sortKeys, Loaded, loadedFields_iff]
      intro field hMem
      have hLookup := Table.lookup_eq_some_iff.mpr hMem
      rw [Table.lookup_insertAll, Table.lookup_empty, Option.or_none] at hLookup
      have hSorted := Table.lastRow_eq_some hLookup
      rw [sortKeysFields_eq] at hSorted
      obtain ⟨other, hOther, hSame⟩ := List.mem_map.mp hSorted
      rw [← congrArg Prod.snd hSame]
      exact ih other hOther (hLoaded other hOther)

/-- What `json.loads` returned has the same text if and only if it is the same, up to the
order of the names. -/
theorem dumps_eq_iff {a b : Json} (ha : Loaded a) (hb : Loaded b) :
    dumps a = dumps b ↔ sortKeys a = sortKeys b := by
  constructor
  · intro h
    exact encode_injective (loaded_sortKeys ha) (loaded_sortKeys hb) (String.ofList_injective h)
  · intro h
    rw [dumps, h, dumps]

theorem get?_eq_lastRow (fields : List (String × Json)) (name : String) :
    get? fields name = Table.lastRow name fields := by
  induction fields with
  | nil => rfl
  | cons field fields ih =>
      rw [Table.lastRow, ← ih, get?, get?, List.reverse_cons, List.find?_append, Option.map_or]
      congr 1
      by_cases hName : field.1 = name
      · simp [hName]
      · simp [hName]

/-- Under every name stands what stood there. -/
theorem get?_sorted (fields : List (String × Json)) (name : String) :
    get? (Table.empty.insertAll (sortKeysFields fields)).rows name =
      (get? fields name).map sortKeys := by
  rw [get?_eq_lastRow, Table.lastRow_rows, Table.lookup_insertAll, Table.lookup_empty,
    Option.or_none, sortKeysFields_eq, get?_eq_lastRow]
  exact Table.lastRow_map Function.injective_id sortKeys name fields

/-- Objects with one text have the same under every name. -/
theorem get?_of_sortKeys_eq {fields fields' : List (String × Json)}
    (h : sortKeys (.obj fields) = sortKeys (.obj fields')) (name : String) :
    (get? fields name).map sortKeys = (get? fields' name).map sortKeys := by
  rw [sortKeys, sortKeys, Json.obj.injEq] at h
  rw [← get?_sorted, ← get?_sorted, h]

end WattPost.Cloud.Json
