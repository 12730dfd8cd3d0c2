import WattPost.Lib.MapM
import WattPost.Lib.PyFloat

/-! How Python reads numbers from a text: blanks around them, digits of any script, single
underscores between digits, and for floats an exponent and the names of what is not finite. -/
namespace PyNumber

open PyText

/-- The zero of every script that writes decimal numbers. -/
def decimalZeros : List Nat :=
  [0x30, 0x660, 0x6f0, 0x7c0, 0x966, 0x9e6, 0xa66, 0xae6, 0xb66, 0xbe6, 0xc66, 0xce6, 0xd66,
    0xde6, 0xe50, 0xed0, 0xf20, 0x1040, 0x1090, 0x17e0, 0x1810, 0x1946, 0x19d0, 0x1a80, 0x1a90,
    0x1b50, 0x1bb0, 0x1c40, 0x1c50, 0xa620, 0xa8d0, 0xa900, 0xa9d0, 0xa9f0, 0xaa50, 0xabf0,
    0xff10, 0x104a0, 0x10d30, 0x11066, 0x110f0, 0x11136, 0x111d0, 0x112f0, 0x11450, 0x114d0,
    0x11650, 0x116c0, 0x11730, 0x118e0, 0x11950, 0x11c50, 0x11d50, 0x11da0, 0x16a60, 0x16ac0,
    0x16b50, 0x1d7ce, 0x1d7d8, 0x1d7e2, 0x1d7ec, 0x1d7f6, 0x1e140, 0x1e2f0, 0x1e950, 0x1fbf0]

/-- The value of a decimal digit. -/
def decimal (c : Char) : Option Nat :=
  (decimalZeros.find? fun z => z ≤ c.toNat && c.toNat < z + 10).map (c.toNat - ·)

/-- Blanks and digits of all scripts become those of ASCII. What is neither fits no number. -/
def toAscii (c : Char) : Char :=
  if c.toNat < 127 then c
  else if isSpace c then ' '
  else
    match decimal c with
    | some d => Nat.digitChar d
    | none => '?'

def isBlank (c : Char) : Bool := c = ' ' || (0x09 ≤ c.toNat && c.toNat ≤ 0x0d)

/-- The characters of a number, without the blanks around it. -/
def ascii (s : String) : List Char :=
  rstripBy isBlank ((s.toList.map toAscii).dropWhile isBlank)

/-- `int(s)`; `none` is the `ValueError`. -/
def int (s : String) : Option Int :=
  let (sign, rest) := signAndRest (ascii s)
  (groupedValue 10 rest).map fun n : Nat => sign * n

/-- Every underscore stands between two digits. -/
def underscoresBetween : Bool → List Char → Bool
  | _, [] => true
  | afterDigit, c :: rest =>
      if c = '_' then afterDigit && rest.head?.any Char.isDigit && underscoresBetween false rest
      else underscoresBetween c.isDigit rest

/-- What a run of digits spells. -/
def value (cs : List Char) : Nat := cs.foldl (fun n c => n * 10 + (c.toNat - '0'.toNat)) 0

/-- The exponent behind the digits. -/
def exponent : List Char → Option Int
  | [] => some 0
  | c :: rest =>
      if c = 'e' ∨ c = 'E' then
        let (sign, digits) := signAndRest rest
        (digitsValue digits).map fun n : Nat => sign * n
      else none

/-- Digits with a point or without, and an exponent. -/
def decimalNumber (cs : List Char) : Option ℚ :=
  let whole := cs.takeWhile Char.isDigit
  let rest := cs.dropWhile Char.isDigit
  let point := rest.head? = some '.'
  let fraction := if point then rest.tail.takeWhile Char.isDigit else []
  let rest := if point then rest.tail.dropWhile Char.isDigit else rest
  if whole = [] ∧ fraction = [] then none
  else (exponent rest).map fun n : Int =>
    (value (whole ++ fraction) : ℚ) * 10 ^ (n - fraction.length)

/-- `float(s)`; `none` is the `ValueError`. -/
def float (s : String) : Option PyFloat :=
  let cs := ascii s
  if !underscoresBetween false cs then none
  else
    let (sign, rest) := signAndRest (cs.filter (· != '_'))
    let name := rest.map Char.toLower
    if name = "inf".toList ∨ name = "infinity".toList then some (.infinite (sign = -1))
    else if name = "nan".toList then some .nan
    else (decimalNumber rest).map fun q => .ofRat (sign * q)

/-! ### Plain digits -/

section Plain

variable {cs : List Char}

/-- What stands in a number without a sign and without an exponent. -/
def isPlain (c : Char) : Bool := c.isDigit || c = '.'

theorem isPlain_of_isDigit {c : Char} (h : c.isDigit = true) : isPlain c = true := by
  rw [isPlain, h, Bool.true_or]

theorem isPlain_range {c : Char} (h : isPlain c = true) : 46 ≤ c.toNat ∧ c.toNat ≤ 57 := by
  rcases Bool.or_eq_true_iff.mp h with hDigit | hPoint
  · have := digit_range hDigit
    omega
  · rw [of_decide_eq_true hPoint]
    decide

theorem ne_of_isPlain {c d : Char} (h : isPlain c = true) (hd : d.toNat < 46 ∨ 57 < d.toNat) :
    c ≠ d := by
  rintro rfl
  have := isPlain_range h
  omega

theorem ascii_plain (h : ∀ c ∈ cs, isPlain c = true) : ascii (String.ofList cs) = cs := by
  have hAscii : cs.map toAscii = cs := by
    refine (List.map_congr_left fun c hc => ?_).trans (List.map_id cs)
    have := isPlain_range (h c hc)
    exact if_pos (by omega)
  have hBlank : ∀ c ∈ cs, isBlank c = false := by
    intro c hc
    have hSpace := ne_of_isPlain (d := ' ') (h c hc) (by decide)
    have := isPlain_range (h c hc)
    rw [isBlank, decide_eq_false hSpace, Bool.false_or, Bool.and_eq_false_iff]
    exact Or.inr (decide_eq_false (by omega))
  have hStart : cs.dropWhile isBlank = cs := by
    cases cs with
    | nil => rfl
    | cons c cs => exact List.dropWhile_cons_of_neg (by simp [hBlank c List.mem_cons_self])
  rw [ascii, String.toList_ofList, hAscii, hStart, rstripBy_of_all hBlank]

theorem signAndRest_plain (h : ∀ c ∈ cs, isPlain c = true) : signAndRest cs = (1, cs) := by
  cases cs with
  | nil => rfl
  | cons c cs =>
      have hMinus := ne_of_isPlain (d := '-') (h c List.mem_cons_self) (by decide)
      have hPlus := ne_of_isPlain (d := '+') (h c List.mem_cons_self) (by decide)
      unfold signAndRest
      split
      · rename_i hEq
        exact absurd (List.cons.inj hEq).1 hMinus
      · rename_i hEq
        exact absurd (List.cons.inj hEq).1 hPlus
      · rfl

/-- Without a group every digit counts. -/
theorem groupedValue_digits (h : ∀ c ∈ cs, c.isDigit = true) (hSome : cs ≠ []) :
    groupedValue 10 cs = some (value cs) := by
  have hNo : '_' ∉ cs := fun hMem => absurd (h _ hMem) (by decide)
  have hDigits : cs.mapM hexDigit = some (cs.map fun c => c.toNat - '0'.toNat) :=
    WattPost.mapM_eq_map fun c hc => if_pos (h c hc)
  have hGroups : ([cs].mapM fun group => group.mapM hexDigit) =
      some [cs.map fun c => c.toNat - '0'.toNat] := by
    rw [List.mapM_cons, hDigits]
    rfl
  have hSmall : ∀ d ∈ cs.map fun c => c.toNat - '0'.toNat, d < 10 := by
    intro d hd
    obtain ⟨c, hc, rfl⟩ := List.mem_map.mp hd
    have := digit_range (h c hc)
    show c.toNat - 48 < 10
    omega
  have hAllowed : ([cs.map fun c => c.toNat - '0'.toNat].any fun group =>
      group.isEmpty || group.any (10 ≤ ·)) = false := by
    rw [List.any_cons, List.any_nil, Bool.or_false, Bool.or_eq_false_iff]
    refine ⟨?_, List.any_eq_false.mpr fun d hd => ?_⟩
    · rw [List.isEmpty_map, List.isEmpty_eq_false_iff]
      exact hSome
    · have := hSmall d hd
      simp only [decide_eq_true_eq]
      omega
  rw [groupedValue, splitChars_of_notMem hNo, hGroups]
  show (if _ then none else some _) = _
  rw [hAllowed, if_neg Bool.false_ne_true, List.flatten_singleton, List.foldl_map]
  rfl

theorem int_digits (h : ∀ c ∈ cs, c.isDigit = true) (hSome : cs ≠ []) :
    int (String.ofList cs) = some (value cs : Int) := by
  have hPlain : ∀ c ∈ cs, isPlain c = true := fun c hc => isPlain_of_isDigit (h c hc)
  rw [int, ascii_plain hPlain, signAndRest_plain hPlain]
  simp only [groupedValue_digits h hSome, Option.map_some, one_mul]

theorem repr_ne_nil (n : Nat) : n.repr.toList ≠ [] := by
  rw [Nat.toList_repr]
  exact Nat.toDigits_ne_nil

theorem value_repr (n : Nat) : value n.repr.toList = n := by
  rw [Nat.toList_repr]
  refine Eq.trans ?_ (Nat.ofDigitChars_ten_toDigits (n := n))
  rw [value, Nat.ofDigitChars_eq_foldl]
  simp only [Nat.mul_comm]

/-- A number is read as it is printed. -/
theorem int_repr (n : Nat) : int n.repr = some (n : Int) := by
  have hInt := int_digits (fun c hc => isDigit_of_mem_repr hc) (repr_ne_nil n)
  rwa [String.ofList_toList, value_repr] at hInt

theorem digitsValue_repr (n : Nat) : digitsValue n.repr.toList = some n := by
  have hDigits : n.repr.toList.all Char.isDigit = true :=
    List.all_eq_true.mpr fun c hc => isDigit_of_mem_repr hc
  have hSome : n.repr.toList.isEmpty = false := List.isEmpty_eq_false_iff.mpr (repr_ne_nil n)
  rw [digitsValue, hDigits, hSome, Bool.not_true, Bool.or_false, if_neg Bool.false_ne_true]
  exact congrArg some (value_repr n)

theorem underscoresBetween_plain (h : ∀ c ∈ cs, isPlain c = true) (afterDigit : Bool) :
    underscoresBetween afterDigit cs = true := by
  induction cs generalizing afterDigit with
  | nil => rfl
  | cons c cs ih =>
      obtain ⟨hc, hRest⟩ := List.forall_mem_cons.mp h
      rw [underscoresBetween, if_neg (ne_of_isPlain hc (by decide)), ih hRest]

/-- A text without signs, letters and blanks is the decimal number that it looks like. -/
theorem float_plain (h : ∀ c ∈ cs, isPlain c = true) :
    float (String.ofList cs) = (decimalNumber cs).map PyFloat.ofRat := by
  have hFilter : cs.filter (· != '_') = cs :=
    List.filter_eq_self.mpr fun c hc => bne_iff_ne.mpr (ne_of_isPlain (h c hc) (by decide))
  have hLower : cs.map Char.toLower = cs := by
    refine (List.map_congr_left fun c hc => ?_).trans (List.map_id cs)
    have hc := isPlain_range (h c hc)
    refine dif_neg fun hUpper => ?_
    have hHigh : c.toNat = c.val.toNat := rfl
    have hLow := UInt32.le_iff_toNat_le.mp hUpper.1
    have hLetter : 'A'.val.toNat = 65 := rfl
    omega
  have hName : ∀ name : List Char, 'n' ∈ name → cs ≠ name := by
    rintro name hMem rfl
    exact absurd (h 'n' hMem) (by decide)
  have hInf := hName "inf".toList (by decide)
  have hInfinity := hName "infinity".toList (by decide)
  have hNan := hName "nan".toList (by decide)
  rw [float, ascii_plain h, underscoresBetween_plain h, hFilter, signAndRest_plain h]
  simp only [hLower, hInf, hInfinity, hNan, Bool.not_true, Bool.false_eq_true, if_false, or_self,
    Int.cast_one, one_mul]

theorem takeWhile_digits (h : ∀ c ∈ cs, c.isDigit = true) (rest : List Char) :
    (cs ++ rest).takeWhile Char.isDigit = cs ++ rest.takeWhile Char.isDigit ∧
      (cs ++ rest).dropWhile Char.isDigit = rest.dropWhile Char.isDigit :=
  ⟨List.takeWhile_append_of_pos h, List.dropWhile_append_of_pos h⟩

theorem decimalNumber_whole (h : ∀ c ∈ cs, c.isDigit = true) (hSome : cs ≠ []) :
    decimalNumber cs = some (value cs : ℚ) := by
  have hSplit := takeWhile_digits h []
  rw [List.append_nil] at hSplit
  unfold decimalNumber
  rw [hSplit.1, hSplit.2]
  simp [hSome, exponent]

theorem decimalNumber_point {fraction : List Char} (h : ∀ c ∈ cs, c.isDigit = true)
    (hFraction : ∀ c ∈ fraction, c.isDigit = true) (hSome : cs ≠ []) :
    decimalNumber (cs ++ '.' :: fraction) =
      some ((value (cs ++ fraction) : ℚ) / 10 ^ fraction.length) := by
  have hSplit := takeWhile_digits h ('.' :: fraction)
  have hRest := takeWhile_digits hFraction []
  rw [List.append_nil] at hRest
  unfold decimalNumber
  rw [hSplit.1, hSplit.2]
  have hPoint : Char.isDigit '.' = false := by decide
  simp [hPoint, hRest.1, hRest.2, hSome, exponent, zpow_neg, div_eq_mul_inv]

end Plain

/-! ### Digits and their decimals -/

section Decimals

variable {whole decimals : List Char}

theorem value_append (whole decimals : List Char) :
    value (whole ++ decimals) = value whole * 10 ^ decimals.length + value decimals := by
  have hFold : ∀ (cs : List Char) (n : Nat),
      cs.foldl (fun n c => n * 10 + (c.toNat - '0'.toNat)) n =
        n * 10 ^ cs.length + value cs := by
    intro cs
    induction cs with
    | nil => intro n; simp [value]
    | cons c cs ih =>
        intro n
        rw [value, List.foldl_cons, List.foldl_cons, ih, ih, List.length_cons, pow_succ]
        ring
  rw [value, List.foldl_append]
  exact hFold decimals _

theorem value_lt (h : ∀ c ∈ decimals, c.isDigit = true) :
    value decimals < 10 ^ decimals.length := by
  induction decimals with
  | nil => decide
  | cons c decimals ih =>
      obtain ⟨hc, hRest⟩ := List.forall_mem_cons.mp h
      have hTail := ih hRest
      have hRange := digit_range hc
      have hHead : value [c] ≤ 9 := by
        show 0 * 10 + (c.toNat - 48) ≤ 9
        omega
      have hMul := Nat.mul_le_mul_right (10 ^ decimals.length) hHead
      rw [← List.singleton_append, value_append, List.length_append, List.length_singleton, pow_add,
        pow_one]
      omega

/-- The decimals add less than one. -/
theorem value_div_bounds (whole : List Char) (h : ∀ c ∈ decimals, c.isDigit = true) :
    (value whole : ℚ) ≤ value (whole ++ decimals) / 10 ^ decimals.length ∧
      value (whole ++ decimals) / 10 ^ decimals.length < (value whole : ℚ) + 1 := by
  have hPos : (0 : ℚ) < 10 ^ decimals.length := by positivity
  have hLt : (value decimals : ℚ) < 10 ^ decimals.length := by exact_mod_cast value_lt h
  have hNonneg : (0 : ℚ) ≤ value decimals := Nat.cast_nonneg _
  rw [value_append, le_div_iff₀ hPos, div_lt_iff₀ hPos]
  push_cast
  constructor
  · linarith
  · rw [add_mul, one_mul]
    linarith

/-- Digits and, behind a point, their decimals. -/
def pointAnd : Option (List Char) → List Char
  | none => []
  | some decimals => '.' :: decimals

/-- A small number in digits is read as the double nearest to it. -/
theorem float_pointAnd {decimals : Option (List Char)} (hWhole : ∀ c ∈ whole, c.isDigit = true)
    (hDecimals : ∀ c ∈ decimals.getD [], c.isDigit = true) (hSome : whole ≠ [])
    (hSmall : value whole < 100) :
    float (String.ofList (whole ++ pointAnd decimals)) =
      some (.finite (Binary64.nearest
        (value (whole ++ decimals.getD []) / 10 ^ (decimals.getD []).length))) := by
  have hPlain : ∀ c ∈ whole ++ pointAnd decimals, isPlain c = true := by
    intro c hc
    rcases List.mem_append.mp hc with hc | hc
    · exact isPlain_of_isDigit (hWhole c hc)
    · cases decimals with
      | none => cases hc
      | some decimals =>
          rcases List.mem_cons.mp hc with rfl | hc
          · rfl
          · exact isPlain_of_isDigit (hDecimals c hc)
  have hNumber : decimalNumber (whole ++ pointAnd decimals) =
      some ((value (whole ++ decimals.getD []) : ℚ) / 10 ^ (decimals.getD []).length) := by
    cases decimals with
    | none =>
        rw [pointAnd, Option.getD_none, List.append_nil, decimalNumber_whole hWhole hSome,
          List.length_nil, pow_zero, div_one]
    | some decimals => exact decimalNumber_point hWhole hDecimals hSome
  obtain ⟨hLow, hHigh⟩ := value_div_bounds whole hDecimals
  have hNonneg : (0 : ℚ) ≤ value whole := Nat.cast_nonneg _
  have hBelow : (value whole : ℚ) + 1 ≤ 100 := by exact_mod_cast hSmall
  rw [float_plain hPlain, hNumber, Option.map_some, PyFloat.ofRat_small]
  rw [abs_of_nonneg (hNonneg.trans hLow)]
  exact (hHigh.le.trans hBelow).trans (by norm_num)

end Decimals

/-! ### How large a short text can be -/

section Bounds

theorem flatten_splitChars_length (c : Char) (cs : List Char) :
    (splitChars c cs).flatten.length ≤ cs.length := by
  induction cs with
  | nil => rfl
  | cons x cs ih =>
      rw [splitChars]
      split_ifs
      · rw [List.flatten_cons, List.nil_append]
        exact ih.trans (Nat.le_succ _)
      · split
        · exact Nat.succ_le_succ (Nat.zero_le _)
        · rename_i piece pieces hPieces
          rw [hPieces] at ih
          exact Nat.succ_le_succ ih

theorem flatten_mapM_length {f : Char → Option Nat} {pieces : List (List Char)}
    {groups : List (List Nat)} (h : (pieces.mapM fun piece => piece.mapM f) = some groups) :
    groups.flatten.length = pieces.flatten.length := by
  have hPiece : ∀ (piece : List Char) (group : List Nat), piece.mapM f = some group →
      group.length = piece.length := by
    intro piece
    induction piece with
    | nil =>
        intro group h
        cases h
        rfl
    | cons c piece ih =>
        intro group h
        obtain ⟨d, -, ds, hRest, rfl⟩ := WattPost.mapM_cons_eq_some.mp h
        rw [List.length_cons, List.length_cons, ih ds hRest]
  induction pieces generalizing groups with
  | nil =>
      cases h
      rfl
  | cons piece pieces ih =>
      obtain ⟨group, hGroup, rest, hRest, rfl⟩ := WattPost.mapM_cons_eq_some.mp h
      rw [List.flatten_cons, List.flatten_cons, List.length_append, List.length_append,
        hPiece piece group hGroup, ih hRest]

theorem foldl_digits_lt {ds : List Nat} (h : ∀ d ∈ ds, d < 10) :
    ds.foldl (fun n d => n * 10 + d) 0 < 10 ^ ds.length := by
  induction ds using List.reverseRecOn with
  | nil => decide
  | append_singleton ds d ih =>
      have hRest := ih fun d' hd' => h d' (List.mem_append_left _ hd')
      have hLast := h d (List.mem_append_right _ List.mem_cons_self)
      rw [List.foldl_append, List.length_append, List.length_singleton, pow_succ]
      show _ * 10 + d < _
      omega

theorem groupedValue_lt {cs : List Char} {n : Nat} (h : groupedValue 10 cs = some n) :
    n < 10 ^ cs.length := by
  rw [groupedValue] at h
  obtain ⟨groups, hGroups, h⟩ := Option.bind_eq_some_iff.mp h
  split_ifs at h with hAllowed
  cases h
  have hDigits : ∀ d ∈ groups.flatten, d < 10 := by
    intro d hd
    obtain ⟨group, hGroup, hd⟩ := List.mem_flatten.mp hd
    by_contra hLarge
    refine hAllowed (List.any_eq_true.mpr ⟨group, hGroup, Bool.or_eq_true_iff.mpr (Or.inr ?_)⟩)
    exact List.any_eq_true.mpr ⟨d, hd, decide_eq_true (not_lt.mp hLarge)⟩
  have hLength := (flatten_mapM_length hGroups).trans_le (flatten_splitChars_length '_' cs)
  exact (foldl_digits_lt hDigits).trans_le (Nat.pow_le_pow_right (by decide) hLength)

theorem ascii_length (s : String) : (ascii s).length ≤ s.length := by
  rw [ascii, rstripBy, List.length_reverse, ← String.length_toList]
  refine (List.dropWhile_suffix _).length_le.trans ?_
  rw [List.length_reverse]
  exact (List.dropWhile_suffix _).length_le.trans (List.length_map _).le

theorem signAndRest_spec (cs : List Char) :
    (signAndRest cs).1.natAbs = 1 ∧ (signAndRest cs).2.length ≤ cs.length := by
  unfold signAndRest
  split
  · exact ⟨rfl, Nat.le_succ _⟩
  · exact ⟨rfl, Nat.le_succ _⟩
  · exact ⟨rfl, le_rfl⟩

/-- An integer has no more digits than its text has characters. -/
theorem int_natAbs_lt {s : String} {n : Int} (h : int s = some n) : n.natAbs < 10 ^ s.length := by
  obtain ⟨hSign, hLength⟩ := signAndRest_spec (ascii s)
  rw [int] at h
  obtain ⟨m, hValue, rfl⟩ := Option.map_eq_some_iff.mp h
  have hAbs : ((signAndRest (ascii s)).1 * (m : Int)).natAbs = m := by
    rw [Int.natAbs_mul, hSign, one_mul, Int.natAbs_natCast]
  have hLt : m < 10 ^ s.length := (groupedValue_lt hValue).trans_le
    (Nat.pow_le_pow_right (by decide) (hLength.trans (ascii_length s)))
  exact hAbs.trans_lt hLt

end Bounds

end PyNumber
