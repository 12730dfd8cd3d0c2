import Mathlib.Data.List.TakeWhile
import WattPost.Cloud.JsonDumps
import WattPost.Cloud.JsonText

/-! `json.loads`, and that it reads back what `json.dumps` writes. A lone half of a surrogate
pair, which Python lets pass, is no character here. -/
namespace WattPost.Cloud.JsonText

open ExtrasTrim (asciiChar asciiString unitEscape)

/-! ### Strings -/

def isWs (c : Char) : Bool := c = ' ' || c = '\t' || c = '\n' || c = '\r'

def skipWs (cs : List Char) : List Char := cs.dropWhile isWs

def hexValue (c : Char) : Option Nat :=
  if c.isDigit then some (c.toNat - '0'.toNat)
  else if 'a' ≤ c ∧ c ≤ 'f' then some (c.toNat - 'a'.toNat + 10)
  else if 'A' ≤ c ∧ c ≤ 'F' then some (c.toNat - 'A'.toNat + 10)
  else none

/-- Four hexadecimal digits. -/
def decodeUnit : List Char → Option (Nat × List Char)
  | a :: b :: c :: d :: rest => do
      return (4096 * (← hexValue a) + 256 * (← hexValue b) + 16 * (← hexValue c) + (← hexValue d),
        rest)
  | _ => none

/-- The character behind `\u`; one outside the basic plane takes two such escapes. -/
def unitChar (cs : List Char) : Option (Char × List Char) := do
  let (unit, rest) ← decodeUnit cs
  if 0xd800 ≤ unit ∧ unit ≤ 0xdfff then
    match rest with
    | '\\' :: 'u' :: rest =>
        let (low, rest) ← decodeUnit rest
        if unit ≤ 0xdbff ∧ 0xdc00 ≤ low ∧ low ≤ 0xdfff then
          return (Char.ofNat (0x10000 + 0x400 * (unit - 0xd800) + (low - 0xdc00)), rest)
        else none
    | _ => none
  else return (Char.ofNat unit, rest)

/-- The other escapes. -/
def escaped (c : Char) : Option Char :=
  if c = '"' ∨ c = '\\' ∨ c = '/' then some c
  else if c = 'b' then some (Char.ofNat 0x08)
  else if c = 'f' then some (Char.ofNat 0x0c)
  else if c = 'n' then some '\n'
  else if c = 'r' then some '\r'
  else if c = 't' then some '\t'
  else none

/-- One character of a string; a control character stands in none. -/
def scanChar : List Char → Option (Char × List Char)
  | '\\' :: 'u' :: rest => unitChar rest
  | '\\' :: c :: rest => (escaped c).map fun c => (c, rest)
  | ['\\'] => none
  | c :: rest => if c.toNat < 0x20 then none else some (c, rest)
  | [] => none

/-- A string behind its opening quote, in so many turns at most. -/
def scanString : Nat → List Char → Option (String × List Char)
  | 0, _ => none
  | _ + 1, '"' :: rest => some ("", rest)
  | n + 1, cs => do
      let (c, rest) ← scanChar cs
      let (s, rest) ← scanString n rest
      return (String.ofList (c :: s.toList), rest)

/-! ### Numbers -/

def scanSign : List Char → List Char × List Char
  | '-' :: rest => (['-'], rest)
  | cs => ([], cs)

/-- No digit follows a leading zero. -/
def scanWhole : List Char → List Char × List Char
  | '0' :: rest => (['0'], rest)
  | cs => cs.span Char.isDigit

def scanFraction : List Char → List Char × List Char
  | '.' :: rest =>
      let (digits, rest') := rest.span Char.isDigit
      if digits = [] then ([], '.' :: rest) else ('.' :: digits, rest')
  | cs => ([], cs)

/-- The sign of an exponent. -/
def scanMark : List Char → List Char × List Char
  | '+' :: rest => (['+'], rest)
  | '-' :: rest => (['-'], rest)
  | cs => ([], cs)

def scanExponent : List Char → List Char × List Char
  | e :: rest =>
      if e = 'e' ∨ e = 'E' then
        let (sign, rest') := scanMark rest
        let (digits, rest') := rest'.span Char.isDigit
        if digits = [] then ([], e :: rest) else (e :: sign ++ digits, rest')
      else ([], e :: rest)
  | [] => ([], [])

/-- What Python's floats and its own limits add: `repr` of the float of a numeral, the number of
digits that `int` takes, and how deep a value may be nested. -/
structure Decoder where
  floatRepr : String → String
  maxDigits : Nat
  depth : Nat

namespace Decoder

def number (d : Decoder) (sign whole fraction exponent : List Char) : Option Json :=
  if whole = [] then none
  else if fraction = [] ∧ exponent = [] then
    if d.maxDigits < whole.length then none
    else some (.int (Json.readInt (sign ++ whole)))
  else some (.float (d.floatRepr (String.ofList (sign ++ whole ++ fraction ++ exponent))))

def scanNumber (d : Decoder) (cs : List Char) : Option (Json × List Char) :=
  let (sign, cs) := scanSign cs
  let (whole, cs) := scanWhole cs
  let (fraction, cs) := scanFraction cs
  let (exponent, cs) := scanExponent cs
  (d.number sign whole fraction exponent).map fun j => (j, cs)

/-- A value that holds no others. -/
def scanAtom (d : Decoder) : List Char → Option (Json × List Char)
  | '"' :: cs => (scanString (cs.length + 1) cs).map fun (s, cs) => (.str s, cs)
  | 'n' :: 'u' :: 'l' :: 'l' :: cs => some (.null, cs)
  | 't' :: 'r' :: 'u' :: 'e' :: cs => some (.bool true, cs)
  | 'f' :: 'a' :: 'l' :: 's' :: 'e' :: cs => some (.bool false, cs)
  | 'N' :: 'a' :: 'N' :: cs => some (.float "nan", cs)
  | 'I' :: 'n' :: 'f' :: 'i' :: 'n' :: 'i' :: 't' :: 'y' :: cs => some (.float "inf", cs)
  | '-' :: 'I' :: 'n' :: 'f' :: 'i' :: 'n' :: 'i' :: 't' :: 'y' :: cs => some (.float "-inf", cs)
  | cs => d.scanNumber cs

end Decoder

/-! ### Values -/

section Items

variable {α : Type}

/-- What stands between commas up to the closing bracket, in so many turns at most. -/
def items (item : List Char → Option (α × List Char)) (close : Char) :
    Nat → List Char → Option (List α × List Char)
  | 0, _ => none
  | n + 1, cs => do
      let (a, cs) ← item cs
      match skipWs cs with
      | [] => none
      | c :: cs =>
          if c = close then return ([a], cs)
          else if c = ',' then
            let (as, cs) ← items item close n (skipWs cs)
            return (a :: as, cs)
          else none

/-- An array or an object behind its opening bracket. -/
def members (item : List Char → Option (α × List Char)) (close : Char) (cs : List Char) :
    Option (List α × List Char) :=
  match skipWs cs with
  | [] => none
  | c :: rest => if c = close then some ([], rest) else items item close cs.length (c :: rest)

end Items

/-- A name and its value. -/
def field (value : List Char → Option (Json × List Char)) :
    List Char → Option ((String × Json) × List Char)
  | '"' :: cs => do
      let (name, cs) ← scanString (cs.length + 1) cs
      match skipWs cs with
      | ':' :: cs =>
          let (j, cs) ← value (skipWs cs)
          return ((name, j), cs)
      | _ => none
  | _ => none

namespace Decoder

/-- A value that is nested so deep at most. -/
def scanOnce (d : Decoder) : Nat → List Char → Option (Json × List Char)
  | 0, cs => d.scanAtom cs
  | depth + 1, cs =>
      match cs with
      | '[' :: cs =>
          (members (d.scanOnce depth) ']' cs).map fun (values, cs) => (.arr values, cs)
      | '\x7b' :: cs =>
          (members (field (d.scanOnce depth)) '\x7d' cs).map fun (fields, cs) => (.obj fields, cs)
      | cs => d.scanAtom cs

/-- `json.loads(s)`. -/
def loads (d : Decoder) (s : String) : Option Json := do
  let (j, cs) ← d.scanOnce d.depth (skipWs s.toList)
  if skipWs cs = [] then return j else none

end Decoder

/-! ### Strings are read back -/

theorem hexValue_digitChar : ∀ n < 16, hexValue (Nat.digitChar n) = some n := by decide

theorem decodeUnit_unitEscape {n : Nat} (h : n < 0x10000) (rest : List Char) :
    ∃ digits, unitEscape n = '\\' :: 'u' :: digits ∧
      decodeUnit (digits ++ rest) = some (n, rest) := by
  refine ⟨_, rfl, ?_⟩
  have hDigits (k : Nat) := hexValue_digitChar (k % 16) (Nat.mod_lt _ (by decide))
  have hSum : 4096 * (n / 4096 % 16) + 256 * (n / 256 % 16) + 16 * (n / 16 % 16) + n % 16 = n := by
    omega
  simp [decodeUnit, hDigits, hSum]

theorem scanChar_unitEscape {c : Char} (h : c.toNat < 0x10000) (rest : List Char) :
    scanChar (unitEscape c.toNat ++ rest) = some (c, rest) := by
  obtain ⟨digits, hText, hUnit⟩ := decodeUnit_unitEscape h rest
  have hPlane : ¬ (0xd800 ≤ c.toNat ∧ c.toNat ≤ 0xdfff) := by
    have hValid : c.toNat < 0xd800 ∨ 0xdfff < c.toNat ∧ c.toNat < 0x110000 := c.valid
    omega
  rw [hText]
  simp [scanChar, unitChar, hUnit, if_neg hPlane]

theorem unitChar_pair {cs low rest : List Char} {unit half : Nat}
    (hHigh : decodeUnit cs = some (unit, '\\' :: 'u' :: low))
    (hLow : decodeUnit low = some (half, rest)) (hUnit : 0xd800 ≤ unit ∧ unit ≤ 0xdbff)
    (hHalf : 0xdc00 ≤ half ∧ half ≤ 0xdfff) :
    unitChar cs =
      some (Char.ofNat (0x10000 + 0x400 * (unit - 0xd800) + (half - 0xdc00)), rest) := by
  have hPlane : 0xd800 ≤ unit ∧ unit ≤ 0xdfff := ⟨hUnit.1, hUnit.2.trans (by decide)⟩
  simp only [unitChar, hHigh, hLow, Option.bind_eq_bind, Option.bind_some, if_pos hPlane,
    if_pos (And.intro hUnit.2 hHalf), Option.pure_def]

theorem scanChar_pair {c : Char} (h : 0x10000 ≤ c.toNat) (rest : List Char) :
    scanChar (unitEscape (0xd800 + (c.toNat - 0x10000) / 1024) ++
      unitEscape (0xdc00 + (c.toNat - 0x10000) % 1024) ++ rest) = some (c, rest) := by
  have hTop : c.toNat < 0x110000 := by
    have hValid : c.toNat < 0xd800 ∨ 0xdfff < c.toNat ∧ c.toNat < 0x110000 := c.valid
    omega
  obtain ⟨unit, hUnit⟩ : ∃ unit, 0xd800 + (c.toNat - 0x10000) / 1024 = unit := ⟨_, rfl⟩
  obtain ⟨half, hHalf⟩ : ∃ half, 0xdc00 + (c.toNat - 0x10000) % 1024 = half := ⟨_, rfl⟩
  rw [hUnit, hHalf]
  obtain ⟨low, hLow, hLowUnit⟩ := decodeUnit_unitEscape (n := half) (by omega) rest
  obtain ⟨high, hHigh, hHighUnit⟩ :=
    decodeUnit_unitEscape (n := unit) (by omega) (unitEscape half ++ rest)
  have hChar : 0x10000 + 0x400 * (unit - 0xd800) + (half - 0xdc00) = c.toNat := by omega
  rw [hLow, List.cons_append, List.cons_append] at hHighUnit
  have hRead := unitChar_pair hHighUnit hLowUnit (by omega) (by omega)
  rw [hChar, Char.ofNat_toNat] at hRead
  rw [hHigh, hLow]
  simpa only [List.cons_append, List.append_assoc, scanChar] using hRead

theorem scanChar_asciiChar (c : Char) (rest : List Char) :
    scanChar (asciiChar c ++ rest) = some (c, rest) := by
  unfold asciiChar
  split
  case isTrue h => rw [h]; rfl
  split
  case isTrue h => rw [h]; rfl
  split
  case isTrue h => rw [h]; rfl
  split
  case isTrue h => rw [h]; rfl
  split
  case isTrue h => rw [h]; rfl
  split
  case isTrue h =>
    have hChar : c = Char.ofNat 0x0c := by rw [← h, Char.ofNat_toNat]
    rw [hChar]
    rfl
  split
  case isTrue h =>
    have hChar : c = Char.ofNat 0x08 := by rw [← h, Char.ofNat_toNat]
    rw [hChar]
    rfl
  split
  case isTrue hBackslash _ _ _ _ _ h =>
    have hPrints : ¬ c.toNat < 0x20 := by omega
    rw [List.singleton_append, scanChar.eq_def]
    split
    all_goals simp_all
  split
  case isTrue h => exact scanChar_unitEscape h rest
  case isFalse h => exact scanChar_pair (not_lt.mp h) rest

theorem asciiChar_length (c : Char) : 0 < (asciiChar c).length := by
  refine List.length_pos_of_ne_nil fun hNil => ?_
  have hScan := scanChar_asciiChar c []
  rw [hNil] at hScan
  cases hScan

theorem asciiChar_ne_quote (c : Char) (rest rest' : List Char) :
    asciiChar c ++ rest ≠ '"' :: rest' := by
  intro h
  have hScan := scanChar_asciiChar c rest
  rw [h] at hScan
  obtain rfl : '"' = c := congrArg Prod.fst (Option.some.inj hScan)
  cases h

theorem scanString_step {n : Nat} {cs : List Char} (h : ∀ rest, cs ≠ '"' :: rest) :
    scanString (n + 1) cs = (do
      let (c, rest) ← scanChar cs
      let (s, rest) ← scanString n rest
      return (String.ofList (c :: s.toList), rest)) := by
  cases cs with
  | nil => rfl
  | cons c cs =>
      rw [scanString]
      exact h

theorem scanString_chars (chars rest : List Char) {n : Nat}
    (hn : (chars.flatMap asciiChar).length < n) :
    scanString n (chars.flatMap asciiChar ++ '"' :: rest) =
      some (String.ofList chars, rest) := by
  induction chars generalizing n with
  | nil =>
      obtain ⟨n, rfl⟩ := Nat.exists_eq_succ_of_ne_zero (Nat.ne_zero_of_lt hn)
      rfl
  | cons c chars ih =>
      obtain ⟨n, rfl⟩ := Nat.exists_eq_succ_of_ne_zero (Nat.ne_zero_of_lt hn)
      have hLength := asciiChar_length c
      rw [List.flatMap_cons, List.length_append] at hn
      rw [List.flatMap_cons, List.append_assoc, scanString_step (asciiChar_ne_quote c _),
        scanChar_asciiChar]
      simp only [Option.bind_eq_bind, Option.bind_some]
      rw [ih (by omega)]
      simp

theorem scanString_asciiString (s : String) (rest : List Char) {n : Nat}
    (hn : (s.toList.flatMap asciiChar).length < n) :
    scanString n (s.toList.flatMap asciiChar ++ '"' :: rest) = some (s, rest) := by
  rw [scanString_chars _ _ hn, String.ofList_toList]

/-! ### Numbers are read back -/

/-- What follows does not go on with a number. -/
def Ends (rest : List Char) : Prop :=
  ∀ c ∈ rest.head?, c.isDigit = false ∧ c ≠ '.' ∧ c ≠ 'e' ∧ c ≠ 'E'

theorem span_digits {digits rest : List Char} (h : ∀ c ∈ digits, c.isDigit = true)
    (hRest : ∀ c ∈ rest.head?, c.isDigit = false) :
    (digits ++ rest).span Char.isDigit = (digits, rest) := by
  have hTake : rest.takeWhile Char.isDigit = [] ∧ rest.dropWhile Char.isDigit = rest := by
    cases rest with
    | nil => exact ⟨rfl, rfl⟩
    | cons c rest =>
        have hc : c.isDigit = false := hRest c rfl
        simp [hc]
  rw [List.span_eq_takeWhile_dropWhile, List.takeWhile_append_of_pos h,
    List.dropWhile_append_of_pos h, hTake.1, hTake.2, List.append_nil]

/-- The parts of a numeral as they are written. -/
structure Numeral where
  sign : List Char
  whole : List Char
  fraction : List Char
  exponent : List Char
  isSign : sign = [] ∨ sign = ['-']
  isWhole : whole = ['0'] ∨ whole ≠ [] ∧ whole.head? ≠ some '0' ∧ ∀ c ∈ whole, c.isDigit = true
  isFraction : fraction = [] ∨
    ∃ digits, digits ≠ [] ∧ (∀ c ∈ digits, c.isDigit = true) ∧ fraction = '.' :: digits
  isExponent : exponent = [] ∨
    ∃ e mark digits, (e = 'e' ∨ e = 'E') ∧ (mark = [] ∨ mark = ['+'] ∨ mark = ['-']) ∧
      digits ≠ [] ∧ (∀ c ∈ digits, c.isDigit = true) ∧ exponent = e :: mark ++ digits

namespace Numeral

variable (m : Numeral)

def text : List Char := m.sign ++ m.whole ++ m.fraction ++ m.exponent

theorem scanExponent_eq {rest : List Char} (h : Ends rest) :
    scanExponent (m.exponent ++ rest) = (m.exponent, rest) := by
  rcases m.isExponent with hNone | ⟨e, mark, digits, hE, hMark, hSome, hDigits, hExponent⟩
  · rw [hNone, List.nil_append]
    cases rest with
    | nil => rfl
    | cons c rest =>
        obtain ⟨-, -, hLower, hUpper⟩ := h c rfl
        simp [scanExponent, hLower, hUpper]
  · have hSpan := span_digits hDigits fun c hc => (h c hc).1
    rw [hExponent]
    rcases hMark with rfl | rfl | rfl
    · obtain ⟨c, digits, rfl⟩ := List.exists_cons_of_ne_nil hSome
      have hPlus : c ≠ '+' := by
        rintro rfl
        exact absurd (hDigits _ List.mem_cons_self) (by decide)
      have hMinus : c ≠ '-' := by
        rintro rfl
        exact absurd (hDigits _ List.mem_cons_self) (by decide)
      rw [List.cons_append] at hSpan
      simp [-List.span_eq_takeWhile_dropWhile, scanExponent, scanMark, hE, hSpan, hPlus, hMinus]
    · simp [-List.span_eq_takeWhile_dropWhile, scanExponent, scanMark, hE, hSpan, hSome]
    · simp [-List.span_eq_takeWhile_dropWhile, scanExponent, scanMark, hE, hSpan, hSome]

theorem exponent_ends {rest : List Char} (h : Ends rest) :
    ∀ c ∈ (m.exponent ++ rest).head?, c.isDigit = false ∧ c ≠ '.' := by
  rcases m.isExponent with hNone | ⟨e, mark, digits, hE, -, -, -, hExponent⟩
  · rw [hNone]
    exact fun c hc => ⟨(h c hc).1, (h c hc).2.1⟩
  · rw [hExponent]
    rintro c hc
    obtain rfl := Option.some.inj hc
    rcases hE with rfl | rfl
    · decide
    · decide

theorem scanFraction_eq {rest : List Char} (h : ∀ c ∈ rest.head?, c.isDigit = false ∧ c ≠ '.') :
    scanFraction (m.fraction ++ rest) = (m.fraction, rest) := by
  rcases m.isFraction with hNone | ⟨digits, hSome, hDigits, hFraction⟩
  · rw [hNone, List.nil_append]
    cases rest with
    | nil => rfl
    | cons c rest =>
        obtain ⟨-, hPoint⟩ := h c rfl
        rw [scanFraction]
        simpa using hPoint
  · rw [hFraction, List.cons_append, scanFraction, span_digits hDigits fun c hc => (h c hc).1]
    simp [hSome]

theorem fraction_ends {rest : List Char} (h : ∀ c ∈ rest.head?, c.isDigit = false ∧ c ≠ '.') :
    ∀ c ∈ (m.fraction ++ rest).head?, c.isDigit = false := by
  rcases m.isFraction with hNone | ⟨digits, -, -, hFraction⟩
  · rw [hNone]
    exact fun c hc => (h c hc).1
  · rw [hFraction]
    rintro c hc
    obtain rfl := Option.some.inj hc
    decide

theorem scanWhole_eq {rest : List Char} (h : ∀ c ∈ rest.head?, c.isDigit = false) :
    scanWhole (m.whole ++ rest) = (m.whole, rest) := by
  rcases m.isWhole with hZero | ⟨hSome, hHead, hDigits⟩
  · rw [hZero]
    rfl
  · obtain ⟨c, digits, hWhole⟩ := List.exists_cons_of_ne_nil hSome
    have hc : c ≠ '0' := by
      rintro rfl
      exact hHead (hWhole ▸ rfl)
    have hSpan := span_digits hDigits h
    rw [hWhole, List.cons_append] at hSpan ⊢
    rw [scanWhole, hSpan]
    simpa using hc

theorem head_whole : ∃ c rest, m.whole = c :: rest ∧ c.isDigit = true := by
  rcases m.isWhole with hZero | ⟨hSome, -, hDigits⟩
  · exact ⟨'0', [], hZero, rfl⟩
  · obtain ⟨c, digits, hWhole⟩ := List.exists_cons_of_ne_nil hSome
    exact ⟨c, digits, hWhole, hDigits c (hWhole ▸ List.mem_cons_self)⟩

theorem scanSign_eq (rest : List Char) :
    scanSign (m.sign ++ (m.whole ++ rest)) = (m.sign, m.whole ++ rest) := by
  rcases m.isSign with hNone | hMinus
  · obtain ⟨c, digits, hWhole, hDigit⟩ := m.head_whole
    have hc : c ≠ '-' := by
      rintro rfl
      exact absurd hDigit (by decide)
    rw [hNone, hWhole, List.nil_append, List.cons_append, scanSign]
    simpa using hc
  · rw [hMinus]
    rfl

theorem scanNumber_text (d : Decoder) {rest : List Char} (h : Ends rest) :
    d.scanNumber (m.text ++ rest) =
      (d.number m.sign m.whole m.fraction m.exponent).map fun j => (j, rest) := by
  have hEnds := m.exponent_ends h
  have hText : m.text ++ rest =
      m.sign ++ (m.whole ++ (m.fraction ++ (m.exponent ++ rest))) := by simp [text]
  rw [Decoder.scanNumber, hText, m.scanSign_eq]
  dsimp only
  rw [m.scanWhole_eq (m.fraction_ends hEnds)]
  dsimp only
  rw [m.scanFraction_eq hEnds]
  dsimp only
  rw [m.scanExponent_eq h]

/-- The first character of a numeral is a digit or a sign, and no `I` follows a sign. -/
theorem head_text (rest : List Char) :
    ∃ c tail, m.text ++ rest = c :: tail ∧ (c.isDigit = true ∨
      c = '-' ∧ ∃ c' tail', tail = c' :: tail' ∧ c'.isDigit = true) := by
  obtain ⟨c, digits, hWhole, hDigit⟩ := m.head_whole
  rcases m.isSign with hNone | hMinus
  · refine ⟨c, digits ++ (m.fraction ++ (m.exponent ++ rest)), ?_, Or.inl hDigit⟩
    simp [text, hNone, hWhole]
  · refine ⟨'-', c :: (digits ++ (m.fraction ++ (m.exponent ++ rest))), ?_,
      Or.inr ⟨rfl, c, _, rfl, hDigit⟩⟩
    simp [text, hMinus, hWhole]

theorem scanAtom_text (d : Decoder) {rest : List Char} (h : Ends rest) :
    d.scanAtom (m.text ++ rest) =
      (d.number m.sign m.whole m.fraction m.exponent).map fun j => (j, rest) := by
  rw [← m.scanNumber_text d h]
  obtain ⟨c, tail, hText, hHead⟩ := m.head_text rest
  rw [hText]
  rcases hHead with hDigit | ⟨rfl, c', tail', rfl, hDigit⟩
  · have hNe : ∀ x : Char, x.isDigit = false → c ≠ x := by
      rintro x hx rfl
      rw [hx] at hDigit
      cases hDigit
    rw [Decoder.scanAtom.eq_def]
    split
    all_goals first | rfl | simp_all
  · have hNe : c' ≠ 'I' := by
      rintro rfl
      cases hDigit
    rw [Decoder.scanAtom.eq_def]
    split
    all_goals first | rfl | simp_all

end Numeral

/-- No numeral is one of the names. -/
theorem Numeral.floatText_text (m : Numeral) :
    Json.floatText (String.ofList m.text) = String.ofList m.text := by
  have hNames : (["nan", "inf", "-inf"].all fun name => name.toList.all fun c => !c.isDigit) =
      true := by decide
  have hNe : ∀ name ∈ ["nan", "inf", "-inf"], String.ofList m.text ≠ name := by
    intro name hName hEq
    obtain ⟨c, digits, hWhole, hDigit⟩ := m.head_whole
    have hMem : c ∈ (String.ofList m.text).toList := by
      rw [String.toList_ofList]
      simp [text, hWhole]
    have hLetter := List.all_eq_true.mp (List.all_eq_true.mp hNames name hName) c (hEq ▸ hMem)
    rw [hDigit] at hLetter
    cases hLetter
  rw [Json.floatText, if_neg (hNe _ (by decide)), if_neg (hNe _ (by decide)),
    if_neg (hNe _ (by decide))]

theorem head_repr {n : Nat} (h : n ≠ 0) : n.repr.toList.head? ≠ some '0' := by
  have hDigit : ∀ k < 10, k ≠ 0 → Nat.digitChar k ≠ '0' := by decide
  rw [Nat.toList_repr]
  induction n using Nat.strongRecOn with
  | ind n ih =>
      rw [Nat.toDigits_eq_if (by decide)]
      split_ifs with hn
      · intro hHead
        exact hDigit n hn h (Option.some.inj hHead)
      · have hLess : n / 10 < n := Nat.div_lt_self (Nat.pos_of_ne_zero h) (by decide)
        have hSome : n / 10 ≠ 0 := by omega
        rw [List.head?_append_of_ne_nil _ Nat.toDigits_ne_nil]
        exact ih _ hLess hSome

/-- An integer as it is written. -/
def Numeral.ofInt (n : Int) : Numeral where
  sign := if 0 ≤ n then [] else ['-']
  whole := n.natAbs.repr.toList
  fraction := []
  exponent := []
  isSign := by
    split_ifs
    · exact Or.inl rfl
    · exact Or.inr rfl
  isWhole := by
    by_cases hn : n.natAbs = 0
    · exact Or.inl (by rw [hn]; rfl)
    · refine Or.inr ⟨?_, head_repr hn, fun c hc => PyText.isDigit_of_mem_repr hc⟩
      rw [Nat.toList_repr]
      exact Nat.toDigits_ne_nil
  isFraction := Or.inl rfl
  isExponent := Or.inl rfl

theorem Numeral.text_ofInt (n : Int) : (Numeral.ofInt n).text = (toString n).toList := by
  rw [Json.toList_toString_int, Numeral.text, Numeral.ofInt, List.append_nil, List.append_nil]
  dsimp only
  split_ifs with hn
  · rw [List.nil_append, show n.natAbs = n.toNat by omega]
  · rw [List.singleton_append]
    congr 3
    omega

/-! ### Values are read back -/

/-- A float that its own text stands for. -/
def Decoder.ReadsFloat (d : Decoder) (literal : String) : Prop :=
  literal ∈ ["nan", "inf", "-inf"] ∨
    d.floatRepr literal = literal ∧
      ∃ m : Numeral, ¬ (m.fraction = [] ∧ m.exponent = []) ∧ literal = String.ofList m.text

/-- A value that keeps to the limits of the decoder. -/
inductive Decoder.Fits (d : Decoder) : Nat → Json → Prop where
  | null (depth : Nat) : d.Fits depth .null
  | bool (depth : Nat) (b : Bool) : d.Fits depth (.bool b)
  | int (depth : Nat) {n : Int} : n.natAbs.repr.length ≤ d.maxDigits → d.Fits depth (.int n)
  | float (depth : Nat) {literal : String} : d.ReadsFloat literal → d.Fits depth (.float literal)
  | str (depth : Nat) (s : String) : d.Fits depth (.str s)
  | arr {depth : Nat} {values : List Json} :
      (∀ value ∈ values, d.Fits depth value) → d.Fits (depth + 1) (.arr values)
  | obj {depth : Nat} {fields : List (String × Json)} :
      (∀ field ∈ fields, d.Fits depth field.2) → d.Fits (depth + 1) (.obj fields)

def encodeField (field : String × Json) : List Char :=
  asciiString field.1 ++ [':', ' '] ++ encode field.2

theorem encodeAll_eq (values : List Json) : encodeAll values = values.map encode := by
  induction values with
  | nil => rfl
  | cons value values ih => rw [encodeAll, ih, List.map_cons]

theorem encodeFields_eq (fields : List (String × Json)) :
    encodeFields fields = fields.map encodeField := by
  induction fields with
  | nil => rfl
  | cons field fields ih => rw [encodeFields, ih, List.map_cons, encodeField]

section Items

variable {α : Type} {item : List Char → Option (α × List Char)} {text : α → List Char}
  {close : Char}

theorem skipWs_cons {c : Char} {cs : List Char} (h : isWs c = false) :
    skipWs (c :: cs) = c :: cs := by
  rw [skipWs, List.dropWhile_cons_of_neg (by simp [h])]

/-- How a member of an array or an object reads. -/
structure ReadsBack (item : List Char → Option (α × List Char)) (text : α → List Char)
    (close : Char) (a : α) : Prop where
  read : ∀ rest, Ends rest → item (text a ++ rest) = some (a, rest)
  head : ∃ c tail, text a = c :: tail ∧ isWs c = false ∧ c ≠ close

theorem head_members {a : α} {c : Char} {tail : List Char} (h : text a = c :: tail)
    (as : List α) (rest : List Char) :
    ∃ more, (((a :: as).map text).intersperse [',', ' ']).flatten ++ rest = c :: more := by
  cases as with
  | nil => exact ⟨tail ++ rest, by simp [h]⟩
  | cons b as =>
      refine ⟨tail ++ ([',', ' '] ++ (((b :: as).map text).intersperse [',', ' ']).flatten ++ rest),
        ?_⟩
      simp [h]

theorem items_text (hClose : close = ']' ∨ close = '\x7d') {as : List α}
    (h : ∀ a ∈ as, ReadsBack item text close a) (hSome : as ≠ []) {n : Nat} (hn : as.length ≤ n)
    (rest : List Char) :
    items item close n (((as.map text).intersperse [',', ' ']).flatten ++ close :: rest) =
      some (as, rest) := by
  have hEnds : ∀ rest, Ends (close :: rest) ∧ isWs close = false := by
    intro rest
    rcases hClose with rfl | rfl
    · exact ⟨fun c hc => by obtain rfl := Option.some.inj hc; decide, rfl⟩
    · exact ⟨fun c hc => by obtain rfl := Option.some.inj hc; decide, rfl⟩
  have hComma : close ≠ ',' := by
    rcases hClose with rfl | rfl
    · decide
    · decide
  induction as generalizing n with
  | nil => exact absurd rfl hSome
  | cons a as ih =>
      obtain ⟨n, rfl⟩ := Nat.exists_eq_succ_of_ne_zero (Nat.ne_zero_of_lt hn)
      have hRead := (h a List.mem_cons_self).read
      cases as with
      | nil =>
          have hLast := hRead _ (hEnds rest).1
          simp [items, hLast, skipWs_cons (hEnds rest).2]
      | cons b as =>
          have hRest := ih (fun a ha => h a (List.mem_cons_of_mem _ ha)) (List.cons_ne_nil _ _)
            (n := n) (Nat.le_of_succ_le_succ hn)
          obtain ⟨c, tail, hText, hWs, -⟩ := (h b (by simp)).head
          obtain ⟨more, hMore⟩ := head_members hText as (close :: rest)
          have hNext : Ends (',' :: ' ' :: c :: more) := by
            intro c hc
            obtain rfl := Option.some.inj hc
            decide
          have hSplit : ((List.map text (a :: b :: as)).intersperse [',', ' ']).flatten ++
              close :: rest = text a ++ ',' :: ' ' :: c :: more := by
            rw [← hMore]
            simp
          have hSkip : skipWs (' ' :: c :: more) = c :: more :=
            (List.dropWhile_cons_of_pos rfl).trans (skipWs_cons hWs)
          rw [hMore] at hRest
          have hThis := hRead _ hNext
          rw [hSplit]
          simp only [items, hThis, Option.bind_eq_bind, Option.bind_some,
            skipWs_cons (c := ',') (by decide), if_neg hComma.symm, if_pos, hSkip, hRest]
          rfl

theorem length_intersperse {as : List α} (h : ∀ a ∈ as, ReadsBack item text close a) :
    as.length ≤ ((as.map text).intersperse [',', ' ']).flatten.length := by
  induction as with
  | nil => exact Nat.le_refl _
  | cons a as ih =>
      obtain ⟨c, tail, hText, -, -⟩ := (h a List.mem_cons_self).head
      have hRest := ih fun a ha => h a (List.mem_cons_of_mem _ ha)
      cases as with
      | nil => simp [hText]
      | cons b as =>
          simp only [List.map_cons, List.intersperse_cons_cons, List.flatten_cons,
            List.length_append, List.length_cons, hText] at hRest ⊢
          omega

theorem members_text (hClose : close = ']' ∨ close = '\x7d') {as : List α}
    (h : ∀ a ∈ as, ReadsBack item text close a) (rest : List Char) :
    members item close (((as.map text).intersperse [',', ' ']).flatten ++ close :: rest) =
      some (as, rest) := by
  have hWs : isWs close = false := by
    rcases hClose with rfl | rfl
    · rfl
    · rfl
  cases as with
  | nil => simp [members, skipWs_cons hWs]
  | cons a as =>
      obtain ⟨c, tail, hText, hFirst, hNe⟩ := (h a List.mem_cons_self).head
      obtain ⟨more, hMore⟩ := head_members hText as (close :: rest)
      have hLength : (a :: as).length ≤ (c :: more).length := by
        rw [← hMore, List.length_append]
        exact (length_intersperse h).trans (Nat.le_add_right _ _)
      have hItems := items_text hClose h (List.cons_ne_nil _ _) hLength rest
      rw [hMore] at hItems ⊢
      rw [members, skipWs_cons hFirst]
      dsimp only
      rw [if_neg hNe, hItems]

end Items

variable {d : Decoder}

theorem scanOnce_atom {depth : Nat} {c : Char} {cs : List Char} (hArr : c ≠ '[')
    (hObj : c ≠ '\x7b') : d.scanOnce depth (c :: cs) = d.scanAtom (c :: cs) := by
  cases depth with
  | zero => rfl
  | succ depth =>
      rw [Decoder.scanOnce]
      · exact fun _ h => hArr (List.cons.inj h).1
      · exact fun _ h => hObj (List.cons.inj h).1

theorem scanOnce_numeral {depth : Nat} (m : Numeral) {rest : List Char} (h : Ends rest) :
    d.scanOnce depth (m.text ++ rest) =
      (d.number m.sign m.whole m.fraction m.exponent).map fun j => (j, rest) := by
  obtain ⟨c, tail, hText, hHead⟩ := m.head_text rest
  have hNe : c ≠ '[' ∧ c ≠ '\x7b' := by
    rcases hHead with hDigit | ⟨rfl, -⟩
    · refine ⟨?_, ?_⟩
      · rintro rfl
        cases hDigit
      · rintro rfl
        cases hDigit
    · decide
  rw [← m.scanAtom_text d h, hText, scanOnce_atom hNe.1 hNe.2]

/-- The text of a value starts with none of the characters that may stand before or after one. -/
theorem head_encode {depth : Nat} {j : Json} (h : d.Fits depth j) :
    ∃ c tail, encode j = c :: tail ∧ isWs c = false ∧ c ≠ ']' := by
  have hNumeral (m : Numeral) : ∃ c tail, m.text = c :: tail ∧ isWs c = false ∧ c ≠ ']' := by
    obtain ⟨c, tail, hText, hHead⟩ := m.head_text []
    rw [List.append_nil] at hText
    refine ⟨c, tail, hText, ?_⟩
    rcases hHead with hDigit | ⟨rfl, -⟩
    · have hNe : ∀ x : Char, x.isDigit = false → c ≠ x := by
        rintro x hx rfl
        rw [hx] at hDigit
        cases hDigit
      exact ⟨by simp [isWs, hNe], hNe _ rfl⟩
    · decide
  cases h with
  | null => exact ⟨'n', _, rfl, rfl, by decide⟩
  | bool _ b =>
      cases b with
      | false => exact ⟨'f', _, rfl, rfl, by decide⟩
      | true => exact ⟨'t', _, rfl, rfl, by decide⟩
  | @int _ n _ =>
      rw [encode, ← Numeral.text_ofInt]
      exact hNumeral _
  | float _ hFloat =>
      rcases hFloat with hName | ⟨-, m, -, rfl⟩
      · simp only [List.mem_cons, List.not_mem_nil, or_false] at hName
        rcases hName with rfl | rfl | rfl
        · exact ⟨'N', _, rfl, rfl, by decide⟩
        · exact ⟨'I', _, rfl, rfl, by decide⟩
        · exact ⟨'-', _, rfl, rfl, by decide⟩
      · rw [encode, m.floatText_text, String.toList_ofList]
        exact hNumeral m
  | str _ s => exact ⟨'"', _, rfl, rfl, by decide⟩
  | arr => exact ⟨'[', _, rfl, rfl, by decide⟩
  | obj => exact ⟨'\x7b', _, rfl, rfl, by decide⟩

theorem scanString_field (s : String) (rest : List Char) :
    scanString ((s.toList.flatMap asciiChar ++ '"' :: rest).length + 1)
      (s.toList.flatMap asciiChar ++ '"' :: rest) = some (s, rest) := by
  refine scanString_asciiString s rest ?_
  rw [List.length_append]
  omega

/-- A value is read back from what `json.dumps` writes, whatever follows. -/
theorem scanOnce_encode {depth : Nat} {j : Json} (h : d.Fits depth j) {rest : List Char}
    (hRest : Ends rest) : d.scanOnce depth (encode j ++ rest) = some (j, rest) := by
  induction h generalizing rest with
  | null => exact scanOnce_atom (by decide) (by decide)
  | bool depth b =>
      cases b with
      | false => exact scanOnce_atom (by decide) (by decide)
      | true => exact scanOnce_atom (by decide) (by decide)
  | @int depth n hDigits =>
      have hWhole : (Numeral.ofInt n).whole ≠ [] := by
        obtain ⟨c, digits, hWhole, -⟩ := (Numeral.ofInt n).head_whole
        simp [hWhole]
      have hLength : ¬ d.maxDigits < (Numeral.ofInt n).whole.length := not_lt.mpr hDigits
      have hValue : (Numeral.ofInt n).sign ++ (Numeral.ofInt n).whole = (toString n).toList := by
        rw [← Numeral.text_ofInt, Numeral.text]
        simp [Numeral.ofInt]
      rw [encode, ← Numeral.text_ofInt, scanOnce_numeral _ hRest, Decoder.number, if_neg hWhole,
        if_pos ⟨rfl, rfl⟩, if_neg hLength, hValue, Json.readInt_toString]
      rfl
  | float depth hFloat =>
      rcases hFloat with hName | ⟨hRepr, m, hPoint, rfl⟩
      · simp only [List.mem_cons, List.not_mem_nil, or_false] at hName
        rcases hName with rfl | rfl | rfl
        · exact scanOnce_atom (by decide) (by decide)
        · exact scanOnce_atom (by decide) (by decide)
        · exact scanOnce_atom (by decide) (by decide)
      · have hWhole : m.whole ≠ [] := by
          obtain ⟨c, digits, hWhole, -⟩ := m.head_whole
          simp [hWhole]
        rw [encode, m.floatText_text, String.toList_ofList, scanOnce_numeral _ hRest,
          Decoder.number, if_neg hWhole, if_neg hPoint]
        exact congrArg (fun s => some (Json.float s, rest)) hRepr
  | str depth s =>
      rw [encode, asciiString, List.cons_append, List.cons_append, List.append_assoc,
        List.singleton_append, scanOnce_atom (by decide) (by decide), Decoder.scanAtom,
        scanString_field]
      rfl
  | @arr depth values hValues ih =>
      have hBack : ∀ value ∈ values, ReadsBack (d.scanOnce depth) encode ']' value :=
        fun value hMem => ⟨fun rest hRest => ih value hMem hRest, head_encode (hValues value hMem)⟩
      rw [encode, encodeAll_eq, List.cons_append, List.cons_append, List.append_assoc,
        List.singleton_append, Decoder.scanOnce, members_text (Or.inl rfl) hBack]
      rfl
  | @obj depth fields hFields ih =>
      have hBack : ∀ f ∈ fields, ReadsBack (field (d.scanOnce depth)) encodeField '\x7d' f := by
        intro f hMem
        refine ⟨fun rest hRest => ?_, '"', _, rfl, rfl, by decide⟩
        obtain ⟨c, tail, hText, hWs, -⟩ := head_encode (hFields f hMem)
        have hSkip : skipWs (' ' :: (encode f.2 ++ rest)) = encode f.2 ++ rest := by
          rw [hText]
          exact (List.dropWhile_cons_of_pos rfl).trans (skipWs_cons hWs)
        have hColon : skipWs (':' :: ' ' :: (encode f.2 ++ rest)) =
            ':' :: ' ' :: (encode f.2 ++ rest) := skipWs_cons rfl
        have hName : encodeField f ++ rest = '"' :: (f.1.toList.flatMap asciiChar ++
            '"' :: ':' :: ' ' :: (encode f.2 ++ rest)) := by simp [encodeField, asciiString]
        rw [hName, field, scanString_field]
        simp only [Option.bind_eq_bind, Option.bind_some, hColon, hSkip, ih f hMem hRest]
        rfl
      rw [encode, encodeFields_eq, List.cons_append, List.cons_append, List.append_assoc,
        List.singleton_append, Decoder.scanOnce, members_text (Or.inr rfl) hBack]
      rfl

/-- A value that keeps to the limits is read back from its text. -/
theorem loads_dumps {j : Json} (h : d.Fits d.depth j) : d.loads (dumps j) = some j := by
  obtain ⟨c, tail, hText, hWs, -⟩ := head_encode h
  have hSkip : skipWs (encode j) = encode j := by
    rw [hText]
    exact skipWs_cons hWs
  have hEnds : Ends [] := fun c hc => by cases hc
  have hScan := scanOnce_encode h hEnds
  rw [List.append_nil] at hScan
  rw [Decoder.loads, dumps, String.toList_ofList, hSkip, hScan]
  rfl

/-! ### The text is printable -/

def isPrintable (c : Char) : Bool := 0x20 ≤ c.toNat && c.toNat ≤ 0x7e

theorem isPrintable_digit {c : Char} (h : c.isDigit = true) : isPrintable c = true := by
  rw [Char.isDigit, Bool.and_eq_true, decide_eq_true_eq, decide_eq_true_eq] at h
  have hLow : 48 ≤ c.toNat := UInt32.le_iff_toNat_le.mp h.1
  have hHigh : c.toNat ≤ 57 := UInt32.le_iff_toNat_le.mp h.2
  rw [isPrintable, Bool.and_eq_true, decide_eq_true_eq, decide_eq_true_eq]
  omega

theorem isPrintable_unitEscape (n : Nat) : ∀ c ∈ unitEscape n, isPrintable c = true := by
  have hDigit : ∀ k < 16, isPrintable (Nat.digitChar k) = true := by decide
  have hMod (k : Nat) := hDigit (k % 16) (Nat.mod_lt _ (by decide))
  intro c hc
  simp only [unitEscape, List.mem_cons, List.not_mem_nil, or_false] at hc
  rcases hc with rfl | rfl | rfl | rfl | rfl | rfl
  · rfl
  · rfl
  · exact hMod _
  · exact hMod _
  · exact hMod _
  · exact hMod _

theorem isPrintable_asciiChar (c : Char) : ∀ x ∈ asciiChar c, isPrintable x = true := by
  unfold asciiChar
  split_ifs with _ _ _ _ _ _ _ hPlain
  case pos => exact List.all_eq_true.mp (by decide)
  case pos => exact List.all_eq_true.mp (by decide)
  case pos => exact List.all_eq_true.mp (by decide)
  case pos => exact List.all_eq_true.mp (by decide)
  case pos => exact List.all_eq_true.mp (by decide)
  case pos => exact List.all_eq_true.mp (by decide)
  case pos => exact List.all_eq_true.mp (by decide)
  case pos =>
    intro x hx
    obtain rfl := List.mem_singleton.mp hx
    simpa [isPrintable] using hPlain
  case pos => exact isPrintable_unitEscape _
  case neg =>
    intro x hx
    rcases List.mem_append.mp hx with hx | hx
    · exact isPrintable_unitEscape _ _ hx
    · exact isPrintable_unitEscape _ _ hx

theorem isPrintable_asciiString (s : String) : ∀ c ∈ asciiString s, isPrintable c = true := by
  intro c hc
  simp only [asciiString, List.mem_append, List.mem_cons, List.mem_flatMap, List.not_mem_nil,
    or_false] at hc
  rcases hc with (rfl | ⟨x, -, hc⟩) | rfl
  · rfl
  · exact isPrintable_asciiChar x c hc
  · rfl

theorem Numeral.isPrintable_text (m : Numeral) : ∀ c ∈ m.text, isPrintable c = true := by
  have hSign : ∀ c ∈ m.sign, isPrintable c = true := by
    rcases m.isSign with h | h
    · simp [h]
    · rw [h]
      exact List.all_eq_true.mp (by decide)
  have hWhole : ∀ c ∈ m.whole, isPrintable c = true := by
    rcases m.isWhole with h | ⟨-, -, h⟩
    · rw [h]
      exact List.all_eq_true.mp (by decide)
    · exact fun c hc => isPrintable_digit (h c hc)
  have hFraction : ∀ c ∈ m.fraction, isPrintable c = true := by
    rcases m.isFraction with h | ⟨digits, -, hDigits, h⟩
    · simp [h]
    · rw [h]
      exact List.forall_mem_cons.mpr ⟨rfl, fun c hc => isPrintable_digit (hDigits c hc)⟩
  have hExponent : ∀ c ∈ m.exponent, isPrintable c = true := by
    rcases m.isExponent with h | ⟨e, mark, digits, hE, hMark, -, hDigits, h⟩
    · simp [h]
    · rw [h]
      have hFirst : isPrintable e = true := by
        rcases hE with rfl | rfl
        · rfl
        · rfl
      have hMarkPrints : ∀ c ∈ e :: mark, isPrintable c = true := by
        refine List.forall_mem_cons.mpr ⟨hFirst, ?_⟩
        rcases hMark with rfl | rfl | rfl
        · exact List.all_eq_true.mp (by decide)
        · exact List.all_eq_true.mp (by decide)
        · exact List.all_eq_true.mp (by decide)
      exact List.forall_mem_append.mpr
        ⟨hMarkPrints, fun c hc => isPrintable_digit (hDigits c hc)⟩
  rw [text]
  exact List.forall_mem_append.mpr ⟨List.forall_mem_append.mpr
    ⟨List.forall_mem_append.mpr ⟨hSign, hWhole⟩, hFraction⟩, hExponent⟩

theorem isPrintable_members {texts : List (List Char)}
    (h : ∀ text ∈ texts, ∀ c ∈ text, isPrintable c = true) :
    ∀ c ∈ (texts.intersperse [',', ' ']).flatten, isPrintable c = true := by
  induction texts with
  | nil => exact fun c hc => by cases hc
  | cons text texts ih =>
      have hText := h text List.mem_cons_self
      have hRest := ih fun t ht => h t (List.mem_cons_of_mem _ ht)
      cases texts with
      | nil => simpa using hText
      | cons next texts =>
          rw [List.intersperse_cons_cons, List.flatten_cons, List.flatten_cons]
          exact List.forall_mem_append.mpr
            ⟨hText, List.forall_mem_append.mpr ⟨List.all_eq_true.mp (by decide), hRest⟩⟩

theorem isPrintable_encode {depth : Nat} {j : Json} (h : d.Fits depth j) :
    ∀ c ∈ encode j, isPrintable c = true := by
  induction h with
  | null => exact List.all_eq_true.mp (by decide)
  | bool _ b =>
      cases b with
      | false => exact List.all_eq_true.mp (by decide)
      | true => exact List.all_eq_true.mp (by decide)
  | @int _ n _ =>
      rw [encode, ← Numeral.text_ofInt]
      exact (Numeral.ofInt n).isPrintable_text
  | float _ hFloat =>
      rcases hFloat with hName | ⟨-, m, -, rfl⟩
      · simp only [List.mem_cons, List.not_mem_nil, or_false] at hName
        rcases hName with rfl | rfl | rfl
        · exact List.all_eq_true.mp (by decide)
        · exact List.all_eq_true.mp (by decide)
        · exact List.all_eq_true.mp (by decide)
      · rw [encode, m.floatText_text, String.toList_ofList]
        exact m.isPrintable_text
  | str _ s => exact isPrintable_asciiString s
  | @arr _ values _ ih =>
      rw [encode, encodeAll_eq]
      have hValues : ∀ c ∈ ((values.map encode).intersperse [',', ' ']).flatten,
          isPrintable c = true := by
        refine isPrintable_members fun text hText => ?_
        obtain ⟨value, hMem, rfl⟩ := List.mem_map.mp hText
        exact ih value hMem
      exact List.forall_mem_append.mpr
        ⟨List.forall_mem_cons.mpr ⟨rfl, hValues⟩, List.forall_mem_singleton.mpr rfl⟩
  | @obj _ fields _ ih =>
      rw [encode, encodeFields_eq]
      have hFields : ∀ c ∈ ((fields.map encodeField).intersperse [',', ' ']).flatten,
          isPrintable c = true := by
        refine isPrintable_members fun text hText => ?_
        obtain ⟨f, hMem, rfl⟩ := List.mem_map.mp hText
        exact List.forall_mem_append.mpr ⟨List.forall_mem_append.mpr
          ⟨isPrintable_asciiString f.1, List.all_eq_true.mp (by decide)⟩, ih f hMem⟩
      exact List.forall_mem_append.mpr
        ⟨List.forall_mem_cons.mpr ⟨rfl, hFields⟩, List.forall_mem_singleton.mpr rfl⟩

end WattPost.Cloud.JsonText
