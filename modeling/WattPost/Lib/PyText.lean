import Mathlib.Data.List.Infix
import Mathlib.Data.List.TakeWhile
import Mathlib.Data.Rat.Defs

/-! Python's string methods on Lean strings. A byte string that the program
decodes as latin-1 is the string of its bytes. Everything recurses over the
list of characters, so that it evaluates. -/
namespace PyText

/-- The characters that `str.strip` removes. -/
def isSpace (c : Char) : Bool :=
  let n := c.toNat
  (0x09 ≤ n && n ≤ 0x0d) || (0x1c ≤ n && n ≤ 0x20) || n == 0x85 || n == 0xa0 ||
    n == 0x1680 || (0x2000 ≤ n && n ≤ 0x200a) || n == 0x2028 || n == 0x2029 ||
    n == 0x202f || n == 0x205f || n == 0x3000

def rstripBy (p : Char → Bool) (cs : List Char) : List Char :=
  (cs.reverse.dropWhile p).reverse

/-- `s.strip()`. -/
def strip (s : String) : String :=
  String.ofList (rstripBy isSpace (s.toList.dropWhile isSpace))

/-- `s.rstrip(c)` for one character. -/
def rstrip (s : String) (c : Char) : String :=
  String.ofList (rstripBy (· == c) s.toList)

/-- A text without blanks is its own strip. -/
theorem strip_ofList {cs : List Char} (h : ∀ c ∈ cs, isSpace c = false) :
    strip (String.ofList cs) = String.ofList cs := by
  have hDrop : ∀ xs : List Char, (∀ c ∈ xs, isSpace c = false) → xs.dropWhile isSpace = xs := by
    intro xs hxs
    cases xs with
    | nil => rfl
    | cons x xs => rw [List.dropWhile_cons, hxs x List.mem_cons_self]; rfl
  rw [strip, String.toList_ofList, hDrop cs h, rstripBy,
    hDrop _ fun c hc => h c (List.mem_reverse.mp hc), List.reverse_reverse]

/-- `s.upper()` and `s.lower()`, of ASCII letters only: letters of other scripts stay as they
are here, where Python changes the case of some. -/
def upper (s : String) : String := String.ofList (s.toList.map Char.toUpper)

def lower (s : String) : String := String.ofList (s.toList.map Char.toLower)

/-- `s.startswith(p)`. -/
def startsWith (s p : String) : Bool := p.toList.isPrefixOf s.toList

theorem startsWith_append (p s : String) : startsWith (p ++ s) p = true := by
  rw [startsWith, String.toList_append, List.isPrefixOf_iff_prefix]
  exact List.prefix_append _ _

/-- `s.startswith(ps)` for a tuple. -/
def startsWithAny (s : String) (ps : List String) : Bool := ps.any (startsWith s)

/-- `s.endswith(p)`. -/
def endsWith (s p : String) : Bool := p.toList.isSuffixOf s.toList

/-- `p in s`. -/
def contains (s p : String) : Bool := decide (p.toList <:+: s.toList)

/-- `s[n:]`. -/
def dropFirst (s : String) (n : Nat) : String := String.ofList (s.toList.drop n)

/-- `s[:n]`. -/
def takeFirst (s : String) (n : Nat) : String := String.ofList (s.toList.take n)

/-- The pieces of `s.split(c)`; there is always at least one. -/
def splitChars (c : Char) : List Char → List (List Char)
  | [] => [[]]
  | x :: xs =>
      if x = c then [] :: splitChars c xs
      else
        match splitChars c xs with
        | [] => [[x]]
        | piece :: pieces => (x :: piece) :: pieces

/-- `s.split(c)`. -/
def split (s : String) (c : Char) : List String :=
  (splitChars c s.toList).map String.ofList

theorem splitChars_ne_nil (c : Char) (cs : List Char) : splitChars c cs ≠ [] := by
  cases cs with
  | nil => exact List.cons_ne_nil _ _
  | cons x xs =>
      rw [splitChars]
      split_ifs
      · exact List.cons_ne_nil _ _
      · split <;> exact List.cons_ne_nil _ _

/-- A start without the separator belongs to the first piece. -/
theorem splitChars_append {c : Char} {xs : List Char} (h : c ∉ xs) (ys : List Char) :
    splitChars c (xs ++ ys) =
      (xs ++ (splitChars c ys).headD []) :: (splitChars c ys).tail := by
  induction xs with
  | nil =>
      cases hPieces : splitChars c ys with
      | nil => exact absurd hPieces (splitChars_ne_nil c ys)
      | cons piece pieces => rw [List.nil_append, hPieces]; rfl
  | cons x xs ih =>
      rw [List.mem_cons, not_or] at h
      rw [List.cons_append, splitChars, if_neg (Ne.symm h.1), ih h.2]
      rfl

/-- A piece has no characters of its own. -/
theorem mem_of_mem_splitChars {c : Char} {cs piece : List Char} (h : piece ∈ splitChars c cs)
    {x : Char} (hx : x ∈ piece) : x ∈ cs := by
  induction cs generalizing piece with
  | nil =>
      rw [splitChars, List.mem_singleton] at h
      exact h ▸ hx
  | cons y ys ih =>
      by_cases hSep : y = c
      · rw [splitChars, if_pos hSep] at h
        rcases List.mem_cons.mp h with rfl | h
        · cases hx
        · exact List.mem_cons_of_mem _ (ih h hx)
      · have hOther : c ∉ [y] := by simpa using Ne.symm hSep
        have hSplit := splitChars_append hOther ys
        rw [List.singleton_append] at hSplit
        rw [hSplit] at h
        have hPieces : splitChars c ys = (splitChars c ys).headD [] :: (splitChars c ys).tail := by
          cases hYs : splitChars c ys with
          | nil => exact absurd hYs (splitChars_ne_nil c ys)
          | cons piece pieces => rfl
        rcases List.mem_cons.mp h with rfl | h
        · rcases List.mem_cons.mp hx with rfl | hx
          · exact List.mem_cons_self
          · exact List.mem_cons_of_mem _ (ih (hPieces ▸ List.mem_cons_self) hx)
        · exact List.mem_cons_of_mem _ (ih (hPieces ▸ List.mem_cons_of_mem _ h) hx)

/-- Every character stands in a piece or separates two. -/
theorem mem_splitChars {c x : Char} {cs : List Char} (h : x ∈ cs) :
    x = c ∨ ∃ piece ∈ splitChars c cs, x ∈ piece := by
  induction cs with
  | nil => cases h
  | cons y ys ih =>
      rw [splitChars]
      split_ifs with hSep
      · rcases List.mem_cons.mp h with rfl | h
        · exact Or.inl hSep
        · rcases ih h with hEq | ⟨piece, hPiece, hx⟩
          · exact Or.inl hEq
          · exact Or.inr ⟨piece, List.mem_cons_of_mem _ hPiece, hx⟩
      · cases hPieces : splitChars c ys with
        | nil => exact absurd hPieces (splitChars_ne_nil c ys)
        | cons piece pieces =>
            rw [hPieces] at ih
            rcases List.mem_cons.mp h with rfl | h
            · exact Or.inr ⟨_, List.mem_cons_self, List.mem_cons_self⟩
            · rcases ih h with hEq | ⟨found, hFound, hx⟩
              · exact Or.inl hEq
              · rcases List.mem_cons.mp hFound with rfl | hFound
                · exact Or.inr ⟨_, List.mem_cons_self, List.mem_cons_of_mem _ hx⟩
                · exact Or.inr ⟨found, List.mem_cons_of_mem _ hFound, hx⟩

theorem splitChars_append_sep {c : Char} {xs : List Char} (h : c ∉ xs) (ys : List Char) :
    splitChars c (xs ++ c :: ys) = xs :: splitChars c ys := by
  have hSep : splitChars c (c :: ys) = [] :: splitChars c ys := by rw [splitChars, if_pos rfl]
  rw [splitChars_append h, hSep, List.headD_cons, List.append_nil, List.tail_cons]

theorem splitChars_of_notMem {c : Char} {xs : List Char} (h : c ∉ xs) :
    splitChars c xs = [xs] := by
  have hSplit := splitChars_append h []
  rwa [List.append_nil, splitChars, List.headD_cons, List.append_nil, List.tail_cons] at hSplit

/-- Texts that each end in a separator are the pieces, and nothing stands behind the last. -/
theorem splitChars_lines {c : Char} {lines : List (List Char)} (h : ∀ line ∈ lines, c ∉ line) :
    splitChars c (lines.flatMap fun line => line ++ [c]) = lines ++ [[]] := by
  induction lines with
  | nil => rfl
  | cons line lines ih =>
      obtain ⟨hLine, hRest⟩ := List.forall_mem_cons.mp h
      rw [List.flatMap_cons, List.append_assoc, List.singleton_append,
        splitChars_append_sep hLine, ih hRest]
      rfl

/-- `s.split()`: the pieces between blanks. -/
def words (s : String) : List String :=
  ((s.toList.splitOnP isSpace).filter fun word => !word.isEmpty).map String.ofList

/-- `s.replace(old, new)` for one character each. -/
def replaceChar (s : String) (old new : Char) : String :=
  String.ofList (s.toList.map fun c => if c = old then new else c)

/-- `s.split(c, 1)[1]`: what stands behind the first `c`. -/
def afterFirst (s : String) (c : Char) : String :=
  String.ofList ((s.toList.dropWhile (· != c)).drop 1)

/-- `re.sub("c{2,}", "c", s)`: every run of `c` becomes one. -/
def squeezeChars (c : Char) : List Char → List Char
  | [] => []
  | [x] => [x]
  | x :: y :: rest =>
      if x = c ∧ y = c then squeezeChars c (y :: rest) else x :: squeezeChars c (y :: rest)

def squeeze (s : String) (c : Char) : String := String.ofList (squeezeChars c s.toList)

/-- Whether `s.encode("latin-1")` succeeds. -/
def isLatin1 (s : String) : Bool := s.toList.all (fun c => c.toNat < 256)

/-- The number a run of decimal digits spells; `none` when it is empty or holds
anything else. -/
def digitsValue (cs : List Char) : Option Nat :=
  if cs.isEmpty || !cs.all Char.isDigit then none
  else some (cs.foldl (fun n c => n * 10 + (c.toNat - '0'.toNat)) 0)

/-- A leading sign, and the rest. -/
def signAndRest : List Char → Int × List Char
  | '-' :: rest => (-1, rest)
  | '+' :: rest => (1, rest)
  | cs => (1, cs)

/-- `int(s)` of ASCII digits. Python takes digits of other scripts and underscores between
digits too, which are no number here; `PyNumber.int` reads all of them. -/
def toInt (s : String) : Option Int :=
  let (sign, rest) := signAndRest (strip s).toList
  (digitsValue rest).map fun n => sign * n

/-- The value of a digit up to `f`. -/
def hexDigit (c : Char) : Option Nat :=
  if c.isDigit then some (c.toNat - '0'.toNat)
  else if 'a' ≤ c ∧ c ≤ 'f' then some (c.toNat - 'a'.toNat + 10)
  else if 'A' ≤ c ∧ c ≤ 'F' then some (c.toNat - 'A'.toNat + 10)
  else none

/-- The number that digits of a base spell, single underscores between them. -/
def groupedValue (base : Nat) (cs : List Char) : Option Nat := do
  let groups ← (splitChars '_' cs).mapM fun group => group.mapM hexDigit
  if groups.any fun group => group.isEmpty || group.any (base ≤ ·) then none
  else some (groups.flatten.foldl (fun n d => n * base + d) 0)

/-- `int(s, 0)`: the base is in the notation. -/
def toIntAnyBase (s : String) : Option Int :=
  let (sign, rest) := signAndRest (strip s).toList
  let prefixed (base : Nat) (cs : List Char) : Option Nat :=
    groupedValue base (if cs.head? = some '_' then cs.tail else cs)
  let value :=
    match rest with
    | '0' :: 'x' :: cs | '0' :: 'X' :: cs => prefixed 16 cs
    | '0' :: 'o' :: cs | '0' :: 'O' :: cs => prefixed 8 cs
    | '0' :: 'b' :: cs | '0' :: 'B' :: cs => prefixed 2 cs
    | '0' :: cs => (groupedValue 10 ('0' :: cs)).filter (· = 0)
    | cs => groupedValue 10 cs
  value.map fun n => sign * n

/-- `float(s)` on plain decimal notation: no exponent, no underscores, no digits of other
scripts and none of the names of what is not finite, all of which `PyNumber.float` reads. -/
def toFloat (s : String) : Option ℚ :=
  let (sign, rest) := signAndRest (strip s).toList
  let whole := rest.takeWhile (· != '.')
  match rest.dropWhile (· != '.') with
  | [] => (digitsValue whole).map fun n => (sign * n : ℚ)
  | _ :: fraction =>
      if whole.isEmpty && fraction.isEmpty then none
      else do
        let n ← if whole.isEmpty then some 0 else digitsValue whole
        let m ← if fraction.isEmpty then some 0 else digitsValue fraction
        some (sign * (n + m / 10 ^ fraction.length : ℚ))

/-! ### Ends and separators -/

theorem bne_of_notMem {c : Char} {cs : List Char} (h : c ∉ cs) : ∀ d ∈ cs, (d != c) = true :=
  fun _ hd => bne_iff_ne.mpr fun hEq => h (hEq ▸ hd)

/-- A text up to its first separator. -/
theorem takeWhile_sep {c : Char} {cs : List Char} (h : c ∉ cs) (rest : List Char) :
    (cs ++ c :: rest).takeWhile (· != c) = cs ∧
      (cs ++ c :: rest).dropWhile (· != c) = c :: rest := by
  constructor
  · rw [List.takeWhile_append_of_pos (bne_of_notMem h), List.takeWhile_cons_of_neg (by simp),
      List.append_nil]
  · rw [List.dropWhile_append_of_pos (bne_of_notMem h), List.dropWhile_cons_of_neg (by simp)]

theorem rstripBy_append {p : Char → Bool} {w blanks : List Char} (hw : ∀ c ∈ w, p c = false)
    (h : ∀ c ∈ blanks, p c = true) : rstripBy p (w ++ blanks) = w := by
  have hWord : w.reverse.dropWhile p = w.reverse := by
    cases hRev : w.reverse with
    | nil => rfl
    | cons c rest =>
        have hMem : c ∈ w := List.mem_reverse.mp (hRev ▸ List.mem_cons_self)
        rw [List.dropWhile_cons, hw c hMem]
        rfl
  rw [rstripBy, List.reverse_append,
    List.dropWhile_append_of_pos fun c hc => h c (List.mem_reverse.mp hc), hWord,
    List.reverse_reverse]

theorem rstripBy_of_all {p : Char → Bool} {cs : List Char} (h : ∀ c ∈ cs, p c = false) :
    rstripBy p cs = cs := by
  have hAppend := rstripBy_append h (fun c (hc : c ∈ []) => nomatch hc)
  rwa [List.append_nil] at hAppend

theorem rstripBy_spec (p : Char → Bool) (cs : List Char) :
    ∃ blanks, cs = rstripBy p cs ++ blanks ∧ ∀ c ∈ blanks, p c = true := by
  refine ⟨(cs.reverse.takeWhile p).reverse, ?_, fun c hc => ?_⟩
  · rw [rstripBy, ← List.reverse_append, List.takeWhile_append_dropWhile,
      List.reverse_reverse]
  · exact List.mem_takeWhile_imp (List.mem_reverse.mp hc)

/-! ### Letters and digits -/

theorem isAlpha_eq (c : Char) : c.isAlpha = (c.isUpper || c.isLower) := rfl

theorem isUpper_eq (c : Char) : c.isUpper = (decide ('A' ≤ c) && decide (c ≤ 'Z')) :=
  Bool.decide_and _ _

theorem isLower_eq (c : Char) : c.isLower = (decide ('a' ≤ c) && decide (c ≤ 'z')) := rfl

theorem digit_range {c : Char} (h : c.isDigit = true) : 48 ≤ c.toNat ∧ c.toNat ≤ 57 := by
  simp only [Char.isDigit, Bool.and_eq_true, decide_eq_true_eq, UInt32.le_iff_toNat_le,
    ge_iff_le] at h
  exact h

theorem isDigit_of_mem_repr {n : Nat} {c : Char} (hc : c ∈ n.repr.toList) : c.isDigit = true := by
  rw [Nat.toList_repr] at hc
  exact Nat.isDigit_of_mem_toDigits (by decide) (by decide) hc

theorem alphanum_range {c : Char} (h : c.isAlphanum = true) : 48 ≤ c.toNat ∧ c.toNat ≤ 122 := by
  simp only [Char.isAlphanum, isAlpha_eq, isUpper_eq, isLower_eq, Bool.or_eq_true,
    Bool.and_eq_true, decide_eq_true_eq, Char.le_def, UInt32.le_iff_toNat_le] at h
  have hVal : c.toNat = c.val.toNat := rfl
  rcases h with ((⟨hLow, hHigh⟩ | ⟨hLow, hHigh⟩) | hDigit)
  · have : ('A'.val.toNat) = 65 := rfl
    have : ('Z'.val.toNat) = 90 := rfl
    omega
  · have : ('a'.val.toNat) = 97 := rfl
    have : ('z'.val.toNat) = 122 := rfl
    omega
  · have := digit_range hDigit
    omega

theorem isSpace_of_range {c : Char} (h : 45 ≤ c.toNat ∧ c.toNat ≤ 122) : isSpace c = false := by
  simp only [isSpace, Bool.or_eq_false_iff, Bool.and_eq_false_iff, decide_eq_false_iff_not,
    beq_eq_false_iff_ne]
  omega

end PyText
