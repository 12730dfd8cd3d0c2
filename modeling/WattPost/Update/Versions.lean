import WattPost.Cloud.CommandDispatch
import WattPost.Lib.SemVer
import Mathlib.Data.List.TakeWhile

/-! Which of two versions is newer: the checker asks before it offers an update, and
the verifier of a download asks whether it would be a downgrade. Both split the text
at its dots, so that a pre-release shares a piece with the patch number and the piece
is no number any more. -/
namespace WattPost.Update

open SemVer

/-- A piece of a version: `(0, n)` or `(1, text)`, in the order of such tuples. -/
abbrev Piece := ℤ ⊕ₗ List Char

/-- `v.lstrip("v").split(".")`. -/
def pieces (s : String) : List (List Char) :=
  PyText.splitChars '.' (s.toList.dropWhile (· = 'v'))

/-- `int(p)`, which takes a sign, or else the text. -/
def semverPiece (cs : List Char) : Piece :=
  match PyText.toInt (String.ofList cs) with
  | some n => toLex (Sum.inl n)
  | none => toLex (Sum.inr cs)

/-- `_semver_tuple`. -/
def semverTuple (s : String) : List Piece := (pieces s).map semverPiece

/-- `int(p) if p.isdigit()`, or else the text. -/
def digitPiece (cs : List Char) : Piece :=
  match PyText.digitsValue cs with
  | some n => toLex (Sum.inl n)
  | none => toLex (Sum.inr cs)

/-- The local `parts` of `_is_downgrade`. -/
def parts (s : String) : List Piece := (pieces s).map digitPiece

/-- `_is_downgrade`, on ASCII texts, for which `parts` does not raise. -/
def isDowngrade (new cur : String) : Bool := decide (parts new < parts cur)

/-- The versions of `UpdateState`. -/
structure UpdateState where
  currentVersion : String
  latestVersion : Option String

/-- `UpdateState.has_update`. -/
def UpdateState.hasUpdate (state : UpdateState) : Bool :=
  match state.latestVersion with
  | none => false
  | some latest =>
      if latest = "" ∨ state.currentVersion = "" then false
      else decide (latest ≠ state.currentVersion) &&
        decide (semverTuple state.currentVersion < semverTuple latest)

/-! ### Versions -/

/-- `[0-9]{1,4}`. -/
def isNumber (cs : List Char) : Bool :=
  cs.all Char.isDigit && decide (1 ≤ cs.length) && decide (cs.length ≤ 4)

/-- `[0-9A-Za-z.\-]`. -/
def isSuffixChar (c : Char) : Bool := c.isAlphanum || c == '.' || c == '-'

/-- `[0-9A-Za-z.\-]{1,16}`. -/
def isSuffix (cs : List Char) : Bool :=
  cs.all isSuffixChar && decide (1 ≤ cs.length) && decide (cs.length ≤ 16)

/-- A text that `_VERSION_RE` takes apart: an optional `v`, three numbers, and a
pre-release or none. Build metadata, and the newline that `$` lets stand at the end,
are no part of it. -/
structure Version where
  v : Bool
  major : List Char
  minor : List Char
  patch : List Char
  pre : Option (List Char)
  major_ok : isNumber major = true
  minor_ok : isNumber minor = true
  patch_ok : isNumber patch = true
  pre_ok : ∀ p ∈ pre, isSuffix p = true

namespace Version

def chars (x : Version) : List Char :=
  (if x.v then ['v'] else []) ++ (x.major ++ '.' :: (x.minor ++ '.' ::
    (x.patch ++ x.pre.elim [] fun p => '-' :: p)))

def text (x : Version) : String := String.ofList x.chars

/-- The value of a number of the version. -/
def value (cs : List Char) : ℕ := (PyText.digitsValue cs).getD 0

/-- The identifiers of the pre-release. -/
def identifiers (x : Version) : Option (List (List Char)) := x.pre.map (PyText.splitChars '.')

def precedence (x : Version) : Precedence :=
  SemVer.precedence (value x.major) (value x.minor) (value x.patch) x.identifiers

end Version

/-! ### Characters -/

theorem suffixChar_range {c : Char} (h : isSuffixChar c = true) :
    45 ≤ c.toNat ∧ c.toNat ≤ 122 := by
  simp only [isSuffixChar, Bool.or_eq_true, beq_iff_eq] at h
  rcases h with ((hWord | rfl) | rfl)
  · have := PyText.alphanum_range hWord
    omega
  · decide
  · decide

theorem digit_ne {c d : Char} (h : c.isDigit = true) (hd : d.isDigit = false) : c ≠ d := by
  rintro rfl
  rw [h] at hd
  cases hd

/-! ### Pieces -/

theorem digits_of_isNumber {cs : List Char} (h : isNumber cs = true) :
    cs ≠ [] ∧ ∀ c ∈ cs, c.isDigit = true := by
  simp only [isNumber, Bool.and_eq_true, List.all_eq_true, decide_eq_true_eq] at h
  refine ⟨?_, h.1.1⟩
  rintro rfl
  exact absurd h.1.2 (by decide)

theorem digitsValue_eq_some_iff {cs : List Char} :
    (∃ n, PyText.digitsValue cs = some n) ↔ cs ≠ [] ∧ ∀ c ∈ cs, c.isDigit = true := by
  unfold PyText.digitsValue
  by_cases hEmpty : cs = []
  · simp [hEmpty]
  · by_cases hDigits : ∀ c ∈ cs, c.isDigit = true
    · rw [if_neg (by simpa [hEmpty] using hDigits)]
      exact ⟨fun _ => ⟨hEmpty, hDigits⟩, fun _ => ⟨_, rfl⟩⟩
    · rw [if_pos (by simpa [hEmpty] using hDigits)]
      exact ⟨fun ⟨_, h⟩ => (nomatch h), fun h => absurd h.2 hDigits⟩

theorem digitsValue_of_isNumber {cs : List Char} (h : isNumber cs = true) :
    PyText.digitsValue cs = some (Version.value cs) := by
  obtain ⟨n, hn⟩ := digitsValue_eq_some_iff.mpr (digits_of_isNumber h)
  rw [Version.value, hn]
  rfl

theorem digitsValue_mixed (number rest : List Char) :
    PyText.digitsValue (number ++ '-' :: rest) = none := by
  cases hValue : PyText.digitsValue (number ++ '-' :: rest) with
  | none => rfl
  | some n =>
      have hDigit := (digitsValue_eq_some_iff.mp ⟨n, hValue⟩).2 '-'
        (List.mem_append_right _ List.mem_cons_self)
      exact absurd hDigit (by decide)

/-- What has no sign in front is read as it stands. -/
theorem toInt_ofList {c : Char} {cs : List Char} (hc : c.isDigit = true)
    (hSpace : ∀ x ∈ cs, PyText.isSpace x = false) :
    PyText.toInt (String.ofList (c :: cs)) =
      (PyText.digitsValue (c :: cs)).map fun n => (n : ℤ) := by
  have hAll : ∀ x ∈ c :: cs, PyText.isSpace x = false := by
    intro x hx
    rcases List.mem_cons.mp hx with rfl | hx
    · have := PyText.digit_range hc
      exact PyText.isSpace_of_range (by omega)
    · exact hSpace x hx
  have hSign : PyText.signAndRest (c :: cs) = (1, c :: cs) := by
    have hMinus := digit_ne hc (show '-'.isDigit = false by decide)
    have hPlus := digit_ne hc (show '+'.isDigit = false by decide)
    unfold PyText.signAndRest
    split
    · next h => exact absurd (List.cons.inj h).1 hMinus
    · next h => exact absurd (List.cons.inj h).1 hPlus
    · rfl
  rw [PyText.toInt, PyText.strip_ofList hAll, String.toList_ofList, hSign]
  simp

/-- Digits are the number they spell, for both comparisons. -/
theorem semverPiece_of_digits {cs : List Char} {n : ℕ} (h : PyText.digitsValue cs = some n) :
    semverPiece cs = toLex (Sum.inl (n : ℤ)) := by
  obtain ⟨hNe, hDigits⟩ := digitsValue_eq_some_iff.mp ⟨n, h⟩
  obtain ⟨c, cs, rfl⟩ := List.exists_cons_of_ne_nil hNe
  have hSpace : ∀ x ∈ cs, PyText.isSpace x = false := by
    intro x hx
    have := PyText.digit_range (hDigits x (List.mem_cons_of_mem _ hx))
    exact PyText.isSpace_of_range (by omega)
  unfold semverPiece
  rw [toInt_ofList (hDigits c List.mem_cons_self) hSpace, h]
  rfl

/-- The patch number and the start of the pre-release are no number together. -/
theorem semverPiece_mixed {number rest : List Char} (hNumber : isNumber number = true)
    (hRest : ∀ c ∈ rest, isSuffixChar c = true) :
    semverPiece (number ++ '-' :: rest) = toLex (Sum.inr (number ++ '-' :: rest)) := by
  obtain ⟨hNe, hDigits⟩ := digits_of_isNumber hNumber
  obtain ⟨c, cs, rfl⟩ := List.exists_cons_of_ne_nil hNe
  have hSpace : ∀ x ∈ cs ++ '-' :: rest, PyText.isSpace x = false := by
    intro x hx
    rcases List.mem_append.mp hx with hx | hx
    · have := PyText.digit_range (hDigits x (List.mem_cons_of_mem _ hx))
      exact PyText.isSpace_of_range (by omega)
    · rcases List.mem_cons.mp hx with rfl | hx
      · rfl
      · exact PyText.isSpace_of_range (suffixChar_range (hRest x hx))
  unfold semverPiece
  rw [List.cons_append, toInt_ofList (hDigits c List.mem_cons_self) hSpace,
    ← List.cons_append, digitsValue_mixed]
  rfl

/-- Numbers of equally many digits are in the order of their texts. -/
theorem value_lt_iff_of_length_eq {xs ys : List Char} (hx : isNumber xs = true)
    (hy : isNumber ys = true) (hLength : xs.length = ys.length) :
    Version.value xs < Version.value ys ↔ xs < ys := by
  have hFold : ∀ (xs ys : List Char) (n m : ℕ), (∀ c ∈ xs, c.isDigit = true) →
      (∀ c ∈ ys, c.isDigit = true) → xs.length = ys.length →
        (xs.foldl (fun n c => n * 10 + (c.toNat - '0'.toNat)) n <
          ys.foldl (fun n c => n * 10 + (c.toNat - '0'.toNat)) m ↔ n < m ∨ n = m ∧ xs < ys) := by
    intro xs
    induction xs with
    | nil =>
        intro ys n m _ _ hLength
        obtain rfl : ys = [] := List.length_eq_zero_iff.mp hLength.symm
        simp
    | cons c cs ih =>
        intro ys n m hxs hys hLength
        cases ys with
        | nil => cases hLength
        | cons d ds =>
            rw [List.forall_mem_cons] at hxs hys
            have hc := PyText.digit_range hxs.1
            have hd := PyText.digit_range hys.1
            have hChar : c < d ↔ c.toNat < d.toNat := Iff.rfl
            have hSame : c = d ↔ c.toNat = d.toNat := Char.toNat_inj.symm
            rw [List.foldl_cons, List.foldl_cons, ih ds _ _ hxs.2 hys.2 (Nat.succ.inj hLength),
              List.cons_lt_cons_iff, hChar, hSame, show '0'.toNat = 48 from rfl]
            constructor
            · rintro (h | ⟨h, hRest⟩)
              · omega
              · exact (by omega : n < m ∨ n = m ∧ c.toNat = d.toNat).imp id
                  fun hEq => ⟨hEq.1, .inr ⟨hEq.2, hRest⟩⟩
            · rintro (h | ⟨rfl, h | ⟨h, hRest⟩⟩)
              · omega
              · omega
              · exact .inr ⟨by omega, hRest⟩
  have hValue (cs : List Char) (h : isNumber cs = true) :
      Version.value cs = cs.foldl (fun n c => n * 10 + (c.toNat - '0'.toNat)) 0 := by
    have hDigits := digitsValue_of_isNumber h
    unfold PyText.digitsValue at hDigits
    split_ifs at hDigits
    exact (Option.some.inj hDigits).symm
  rw [hValue xs hx, hValue ys hy, hFold xs ys 0 0 (digits_of_isNumber hx).2
    (digits_of_isNumber hy).2 hLength]
  simp

/-! ### The pieces of a version -/

namespace Version

/-- The text of the patch number and the first identifier of the pre-release, which
are one piece. -/
def third (x : Version) : List Char :=
  x.patch ++ x.pre.elim [] fun p => '-' :: (PyText.splitChars '.' p).headD []

/-- The other identifiers. -/
def laterIds (x : Version) : List (List Char) := (x.identifiers.getD []).tail

theorem dot_notMem {cs : List Char} (h : isNumber cs = true) : '.' ∉ cs := fun hMem =>
  absurd ((digits_of_isNumber h).2 '.' hMem) (by decide)

theorem pieces_text (x : Version) :
    pieces x.text = x.major :: x.minor :: x.third :: x.laterIds := by
  have hStrip : x.chars.dropWhile (· = 'v') = x.major ++ '.' :: (x.minor ++ '.' ::
      (x.patch ++ x.pre.elim [] fun p => '-' :: p)) := by
    obtain ⟨hNe, hDigits⟩ := digits_of_isNumber x.major_ok
    obtain ⟨c, cs, hMajor⟩ := List.exists_cons_of_ne_nil hNe
    have hc : c ≠ 'v' := digit_ne (hDigits c (hMajor ▸ List.mem_cons_self)) (by decide)
    rw [chars, hMajor]
    cases x.v <;> simp [hc]
  rw [pieces, text, String.toList_ofList, hStrip,
    PyText.splitChars_append_sep (dot_notMem x.major_ok),
    PyText.splitChars_append_sep (dot_notMem x.minor_ok),
    PyText.splitChars_append (dot_notMem x.patch_ok), third, laterIds, identifiers]
  cases x.pre with
  | none => rfl
  | some p =>
      have hDash := PyText.splitChars_append (show '.' ∉ ['-'] by decide) p
      rw [List.singleton_append] at hDash
      simp only [Option.elim_some, hDash, List.headD_cons, List.tail_cons, Option.map_some,
        Option.getD_some, List.singleton_append]

theorem third_of_none {x : Version} (h : x.pre = none) : x.third = x.patch := by
  rw [third, h, Option.elim_none, List.append_nil]

/-- How a comparison reads pieces: digits as their number, and a patch number with a
pre-release as text. -/
structure Reads (read : List Char → Piece) : Prop where
  digits : ∀ cs n, PyText.digitsValue cs = some n → read cs = toLex (Sum.inl (n : ℤ))
  third : ∀ x : Version, x.pre.isSome = true → read x.third = toLex (Sum.inr x.third)

theorem third_mixed {x : Version} (h : x.pre.isSome = true) :
    ∃ first, x.third = x.patch ++ '-' :: first ∧ ∀ c ∈ first, isSuffixChar c = true := by
  obtain ⟨p, hp⟩ := Option.isSome_iff_exists.mp h
  refine ⟨(PyText.splitChars '.' p).headD [], by rw [third, hp]; rfl, fun c hc => ?_⟩
  have hOk := x.pre_ok p hp
  simp only [isSuffix, Bool.and_eq_true, List.all_eq_true] at hOk
  cases hPieces : PyText.splitChars '.' p with
  | nil => exact absurd hPieces (PyText.splitChars_ne_nil '.' p)
  | cons piece rest =>
      rw [hPieces, List.headD_cons] at hc
      exact hOk.1.1 c (PyText.mem_of_mem_splitChars (hPieces ▸ List.mem_cons_self) hc)

theorem reads_semverPiece : Reads semverPiece where
  digits _ _ h := semverPiece_of_digits h
  third x h := by
    obtain ⟨first, hThird, hFirst⟩ := third_mixed h
    rw [hThird]
    exact semverPiece_mixed x.patch_ok hFirst

theorem reads_digitPiece : Reads digitPiece where
  digits cs n h := by rw [digitPiece, h]
  third x h := by
    obtain ⟨first, hThird, _⟩ := third_mixed h
    rw [hThird, digitPiece, digitsValue_mixed]

variable {read : List Char → Piece}

theorem Reads.number (h : Reads read) {cs : List Char} (hNumber : isNumber cs = true) :
    read cs = toLex (Sum.inl (value cs : ℤ)) := h.digits cs _ (digitsValue_of_isNumber hNumber)

/-- The three numbers, or two and the text of the third piece, decide first. -/
theorem Reads.lt_iff (h : Reads read) (a b : Version) :
    (pieces a.text).map read < (pieces b.text).map read ↔
      value a.major < value b.major ∨ value a.major = value b.major ∧
        (value a.minor < value b.minor ∨ value a.minor = value b.minor ∧
          (read a.third < read b.third ∨ read a.third = read b.third ∧
            a.laterIds.map read < b.laterIds.map read)) := by
  rw [pieces_text, pieces_text]
  simp only [List.map_cons, List.cons_lt_cons_iff, h.number a.major_ok, h.number b.major_ok,
    h.number a.minor_ok, h.number b.minor_ok, Sum.Lex.inl_lt_inl_iff, Int.ofNat_lt,
    EmbeddingLike.apply_eq_iff_eq, Sum.inl.injEq, Int.natCast_inj]

theorem precedence_lt_iff (a b : Version) :
    a.precedence < b.precedence ↔
      value a.major < value b.major ∨ value a.major = value b.major ∧
        (value a.minor < value b.minor ∨ value a.minor = value b.minor ∧
          (value a.patch < value b.patch ∨ value a.patch = value b.patch ∧
            preRelease a.identifiers < preRelease b.identifiers)) := SemVer.precedence_lt_iff

end Version

/-! ### What the pattern accepts -/

theorem suffixChar_eq (c : Char) : Cloud.suffixChar c = isSuffixChar c := by
  have hDigit : (decide ('0' ≤ c) && decide (c ≤ '9')) = c.isDigit := rfl
  rw [Cloud.suffixChar, ← PyText.isUpper_eq, ← PyText.isLower_eq, hDigit, isSuffixChar,
    Char.isAlphanum, PyText.isAlpha_eq]
  cases c.isUpper <;> cases c.isLower <;> cases c.isDigit <;> rfl

theorem isNumber_iff {cs : List Char} :
    isNumber cs = true ↔ (∀ c ∈ cs, c.isDigit = true) ∧ 1 ≤ cs.length ∧ cs.length ≤ 4 := by
  rw [isNumber, Bool.and_eq_true, Bool.and_eq_true, List.all_eq_true, decide_eq_true_eq,
    decide_eq_true_eq, and_assoc]

theorem isSuffix_iff {cs : List Char} :
    isSuffix cs = true ↔ (∀ c ∈ cs, isSuffixChar c = true) ∧ 1 ≤ cs.length ∧ cs.length ≤ 16 := by
  rw [isSuffix, Bool.and_eq_true, Bool.and_eq_true, List.all_eq_true, decide_eq_true_eq,
    decide_eq_true_eq, and_assoc]

theorem takeWhile_digits {number rest : List Char} (hDigits : ∀ c ∈ number, c.isDigit = true)
    (hRest : ∀ c ∈ rest.head?, c.isDigit = false) :
    (number ++ rest).takeWhile Char.isDigit = number := by
  rw [List.takeWhile_append_of_pos hDigits]
  cases rest with
  | nil => simp
  | cons c cs => simp [hRest c rfl]

theorem afterNumber_append {number rest : List Char} (h : isNumber number = true)
    (hRest : ∀ c ∈ rest.head?, c.isDigit = false) :
    Cloud.afterNumber (number ++ rest) = some rest := by
  obtain ⟨hDigits, hLength⟩ := isNumber_iff.mp h
  have hTake : (number ++ rest).takeWhile (fun c => decide ('0' ≤ c) && decide (c ≤ '9')) =
      number := takeWhile_digits hDigits hRest
  simp only [Cloud.afterNumber, hTake, if_pos hLength, List.drop_left]

theorem of_afterNumber {cs rest : List Char} (h : Cloud.afterNumber cs = some rest) :
    ∃ number, isNumber number = true ∧ cs = number ++ rest := by
  simp only [Cloud.afterNumber] at h
  split_ifs at h with hLength
  refine ⟨cs.takeWhile Char.isDigit, isNumber_iff.mpr ⟨?_, hLength⟩, ?_⟩
  · intro c hc
    exact List.mem_takeWhile_imp hc
  · rw [← Option.some.inj h]
    exact (List.prefix_iff_eq_append.mp (List.takeWhile_prefix Char.isDigit)).symm

theorem versionTail_iff {cs : List Char} (hPlus : '+' ∉ cs) (hLine : '\n' ∉ cs) :
    Cloud.versionTail cs = true ↔
      ∃ pre : Option (List Char), (∀ p ∈ pre, isSuffix p = true) ∧
        cs = pre.elim [] fun p => '-' :: p := by
  cases cs with
  | nil => exact ⟨fun _ => ⟨none, nofun, rfl⟩, fun _ => rfl⟩
  | cons c cs =>
      have hEnd : ∀ xs : List Char, '\n' ∉ xs → (Cloud.atEnd xs = true ↔ xs = []) := by
        intro xs hxs
        simp only [Cloud.atEnd, Bool.or_eq_true, beq_iff_eq, or_iff_left_iff_imp]
        rintro rfl
        exact absurd List.mem_cons_self hxs
      have hTake : (cs.takeWhile Cloud.suffixChar) = cs.takeWhile isSuffixChar := by
        rw [funext suffixChar_eq]
      have hPlusC : c ≠ '+' := fun h => hPlus (h ▸ List.mem_cons_self)
      have hDrop : '\n' ∉ cs.drop (cs.takeWhile isSuffixChar).length := fun h =>
        hLine (List.mem_cons_of_mem c (List.mem_of_mem_drop h))
      by_cases hDash : c = '-'
      · subst hDash
        simp only [Cloud.versionTail, true_or, if_true, hTake, Bool.and_eq_true,
          decide_eq_true_eq, hEnd _ hDrop]
        constructor
        · rintro ⟨hLength, hRest⟩
          have hWhole : cs.takeWhile isSuffixChar = cs := by
            have hPrefix : cs.takeWhile isSuffixChar <+: cs := List.takeWhile_prefix isSuffixChar
            have hParts := List.prefix_iff_eq_append.mp hPrefix
            rwa [hRest, List.append_nil] at hParts
          rw [hWhole] at hLength
          refine ⟨some cs, fun p hp => ?_, rfl⟩
          cases hp
          exact isSuffix_iff.mpr ⟨List.takeWhile_eq_self_iff.mp hWhole, hLength⟩
        · rintro ⟨pre, hPre, hText⟩
          cases pre with
          | none => cases hText
          | some p =>
              obtain ⟨hChars, hLength⟩ := isSuffix_iff.mp (hPre p rfl)
              rw [(List.cons.inj hText).2, List.takeWhile_eq_self_iff.mpr hChars]
              exact ⟨hLength, List.drop_length⟩
      · rw [Cloud.versionTail, if_neg (by simp [hDash, hPlusC]), hEnd _ hLine]
        refine ⟨fun h => (nomatch h), ?_⟩
        rintro ⟨pre, hPre, hText⟩
        cases pre with
        | none => cases hText
        | some p => exact absurd (List.cons.inj hText).1 hDash

theorem matchesVersion_text (x : Version) (hPlus : '+' ∉ x.chars) (hLine : '\n' ∉ x.chars) :
    Cloud.matchesVersion x.text = true := by
  have hStrip : (if x.chars.head? = some 'v' then x.chars.tail else x.chars) =
      x.major ++ '.' :: (x.minor ++ '.' :: (x.patch ++ x.pre.elim [] fun p => '-' :: p)) := by
    obtain ⟨hNe, hDigits⟩ := digits_of_isNumber x.major_ok
    obtain ⟨c, cs, hMajor⟩ := List.exists_cons_of_ne_nil hNe
    have hc : c ≠ 'v' := digit_ne (hDigits c (hMajor ▸ List.mem_cons_self)) (by decide)
    rw [Version.chars, hMajor]
    cases x.v <;> simp [hc]
  have hDot : ∀ rest : List Char, ∀ c ∈ ('.' :: rest).head?, c.isDigit = false := by
    intro rest c hc
    cases hc
    rfl
  have hTail : ∀ c ∈ (x.pre.elim [] fun p => '-' :: p).head?, c.isDigit = false := by
    cases x.pre with
    | none => exact nofun
    | some p =>
        intro c hc
        cases hc
        rfl
  have hMem : ∀ c ∈ (x.pre.elim [] fun p => '-' :: p), c ∈ x.chars := by
    intro c hc
    simp only [Version.chars, List.mem_append, List.mem_cons, hc, or_true]
  simp only [Cloud.matchesVersion, Version.text, String.toList_ofList, hStrip,
    afterNumber_append x.major_ok (hDot _), afterNumber_append x.minor_ok (hDot _),
    afterNumber_append x.patch_ok hTail, Option.any_some]
  exact (versionTail_iff (fun h => hPlus (hMem _ h)) (fun h => hLine (hMem _ h))).mpr
    ⟨x.pre, x.pre_ok, rfl⟩

/-- The versions are the texts that the pattern accepts, but for build metadata and a
newline at the end. -/
theorem exists_version_iff {s : String} (hPlus : '+' ∉ s.toList) (hLine : '\n' ∉ s.toList) :
    (∃ x : Version, x.text = s) ↔ Cloud.matchesVersion s = true := by
  constructor
  · rintro ⟨x, rfl⟩
    rw [Version.text, String.toList_ofList] at hPlus hLine
    exact matchesVersion_text x hPlus hLine
  · intro h
    have hStrip : ∃ v : Bool, s.toList = (if v then ['v'] else []) ++
        (if s.toList.head? = some 'v' then s.toList.tail else s.toList) := by
      by_cases hv : s.toList.head? = some 'v'
      · exact ⟨true, by rw [if_pos hv]; exact (List.cons_head?_tail hv).symm⟩
      · exact ⟨false, by rw [if_neg hv]; rfl⟩
    obtain ⟨v, hText⟩ := hStrip
    simp only [Cloud.matchesVersion] at h
    split at h
    · next minorOn hMajor =>
        split at h
        · next patchOn hMinor =>
            obtain ⟨tail, hPatch, hTail⟩ := (Option.any_eq_true _ _).mp h
            obtain ⟨major, hMajorOk, hRest⟩ := of_afterNumber hMajor
            obtain ⟨minor, hMinorOk, rfl⟩ := of_afterNumber hMinor
            obtain ⟨patch, hPatchOk, rfl⟩ := of_afterNumber hPatch
            rw [hRest] at hText
            have hMem : ∀ c ∈ tail, c ∈ s.toList := by
              intro c hc
              simp only [hText, List.mem_append, List.mem_cons, hc, or_true]
            obtain ⟨pre, hPre, rfl⟩ := (versionTail_iff (fun h => hPlus (hMem _ h))
              (fun h => hLine (hMem _ h))).mp hTail
            refine ⟨⟨v, major, minor, patch, pre, hMajorOk, hMinorOk, hPatchOk, hPre⟩, ?_⟩
            rw [Version.text, Version.chars, ← hText, String.ofList_toList]
        · cases h
    · cases h

/-! ### Where the comparisons agree with the precedence -/

/-- The digits of an identifier such as "-5", which `int` takes for a negative number. -/
def signed : List Char → Option ℕ
  | '-' :: cs => PyText.digitsValue cs
  | _ => none

/-- Two identifiers of different values, and whether the rest is in descending order. Without
a sign they compare right. A signed one comes before every number, where it should come after,
unless both are zero and the rest decides; before every other text; and before a signed one of
a smaller value, where the texts should decide. -/
def SignAgrees (x y : List Char) (rest : Prop) : Prop :=
  match signed x, signed y with
  | none, none => True
  | some n, none =>
      match PyText.digitsValue y with
      | some m => n = 0 ∧ m = 0 ∧ rest
      | none => x < y
  | none, some m =>
      match PyText.digitsValue x with
      | some n => n = 0 ∧ m = 0 ∧ ¬ rest
      | none => y < x
  | some n, some m => if n = m then rest ↔ y < x else n < m ↔ y < x

/-- The later identifiers, at the first one of a different value. -/
def SignsAgree : List (List Char) → List (List Char) → Prop
  | x :: xs, y :: ys =>
      if identifier x = identifier y then SignsAgree xs ys
      else SignAgrees x y (ys.map semverPiece < xs.map semverPiece)
  | _, _ => True

/-- The first identifier of the pre-release. -/
def Version.firstId (x : Version) : List Char := (x.identifiers.getD []).headD []

/-- Two pre-releases that differ in their patch numbers or first identifiers, the earlier
one first, in an order that the comparisons get right. The patch number or the number that
decides has to be the smaller one and to come first as a text, which 10 does before 9; a
number has to come before the other's text, which 2 does not before "1a". Numbers that differ
in their leading zeros alone have to be in the order of what follows. -/
inductive InOrder (a b : Version) : Prop where
  | patch (hValue : Version.value a.patch < Version.value b.patch) (hText : a.patch < b.patch)
  | patchZeros (hValue : Version.value a.patch = Version.value b.patch)
      (hText : a.patch < b.patch) (hRest : preRelease a.identifiers < preRelease b.identifiers)
  | number (n m : ℕ) (hPatch : a.patch = b.patch)
      (hFirst : PyText.digitsValue a.firstId = some n)
      (hFirst' : PyText.digitsValue b.firstId = some m) (hValue : n < m)
      (hText : a.firstId < b.firstId)
  | numberZeros (n : ℕ) (hPatch : a.patch = b.patch)
      (hFirst : PyText.digitsValue a.firstId = some n)
      (hFirst' : PyText.digitsValue b.firstId = some n) (hText : a.firstId < b.firstId)
      (hRest : a.laterIds.map identifier < b.laterIds.map identifier)
  | numberText (n : ℕ) (hPatch : a.patch = b.patch)
      (hFirst : PyText.digitsValue a.firstId = some n)
      (hFirst' : PyText.digitsValue b.firstId = none) (hText : a.firstId < b.firstId)
  | texts (hPatch : a.patch = b.patch) (hFirst : PyText.digitsValue a.firstId = none)
      (hFirst' : PyText.digitsValue b.firstId = none) (hText : a.firstId < b.firstId)

/-- Versions of different major or minor numbers compare right, and so do releases.
A release has to have the smaller patch number than a pre-release it meets, as if the
pre-release came after it. Two pre-releases have to be in an order that the comparisons get
right; with the same patch number and first identifier, only identifiers that look like
signed numbers can be in the wrong one. -/
def OrderedAlike (a b : Version) : Prop :=
  Version.value a.major = Version.value b.major → Version.value a.minor = Version.value b.minor →
    match a.pre, b.pre with
    | none, none => True
    | none, some _ => Version.value a.patch < Version.value b.patch
    | some _, none => Version.value b.patch < Version.value a.patch
    | some _, some _ =>
        if a.patch = b.patch ∧ a.firstId = b.firstId then SignsAgree a.laterIds b.laterIds
        else InOrder a b ∨ InOrder b a

theorem digitPiece_eq_iff {x y : List Char} :
    digitPiece x = digitPiece y ↔ identifier x = identifier y := by
  unfold digitPiece identifier
  cases PyText.digitsValue x with
  | none => cases PyText.digitsValue y <;> simp
  | some n =>
      cases PyText.digitsValue y with
      | none => simp
      | some m => simp only [EmbeddingLike.apply_eq_iff_eq, Sum.inl.injEq, Int.natCast_inj]

theorem digitPiece_lt_iff {x y : List Char} :
    digitPiece x < digitPiece y ↔ identifier x < identifier y := by
  unfold digitPiece identifier
  cases PyText.digitsValue x <;> cases PyText.digitsValue y <;> simp

/-- The verifier's pieces are in the order of the identifiers. -/
theorem map_digitPiece_lt_iff (xs ys : List (List Char)) :
    xs.map digitPiece < ys.map digitPiece ↔ xs.map identifier < ys.map identifier := by
  induction xs generalizing ys with
  | nil => cases ys <;> simp
  | cons x xs ih =>
      cases ys with
      | nil => simp
      | cons y ys =>
          simp only [List.map_cons, List.cons_lt_cons_iff, digitPiece_lt_iff, digitPiece_eq_iff, ih]

/-- What is one identifier is one piece. -/
theorem semverPiece_of_identifier {x y : List Char} (h : identifier x = identifier y) :
    semverPiece x = semverPiece y := by
  unfold identifier at h
  cases hx : PyText.digitsValue x with
  | some n =>
      cases hy : PyText.digitsValue y with
      | some m =>
          rw [hx, hy] at h
          have hValue : n = m := Sum.inl.inj (toLex.injective h)
          rw [semverPiece_of_digits hx, semverPiece_of_digits hy, hValue]
      | none =>
          rw [hx, hy] at h
          cases h
  | none =>
      cases hy : PyText.digitsValue y with
      | some m =>
          rw [hx, hy] at h
          cases h
      | none =>
          rw [hx, hy] at h
          exact congrArg semverPiece (Sum.inr.inj (toLex.injective h))

/-- Digits after a dash are a negative number for `int`; what is neither digits nor that is
a text. -/
theorem semverPiece_of_signed {cs : List Char} {n : ℕ} (h : signed cs = some n) :
    semverPiece cs = toLex (Sum.inl (-(n : ℤ))) := by
  unfold signed at h
  split at h
  · next digits =>
      have hDigits := (digitsValue_eq_some_iff.mp ⟨n, h⟩).2
      have hSpace : ∀ c ∈ '-' :: digits, PyText.isSpace c = false := by
        intro c hc
        rcases List.mem_cons.mp hc with rfl | hc
        · rfl
        · have := PyText.digit_range (hDigits c hc)
          exact PyText.isSpace_of_range (by omega)
      have hInt : PyText.toInt (String.ofList ('-' :: digits)) = some (-(n : ℤ)) := by
        rw [PyText.toInt, PyText.strip_ofList hSpace, String.toList_ofList]
        simp [PyText.signAndRest, h]
      rw [semverPiece, hInt]
  · cases h

theorem semverPiece_of_text {cs : List Char} (hChars : ∀ c ∈ cs, isSuffixChar c = true)
    (hSigned : signed cs = none) (hDigits : PyText.digitsValue cs = none) :
    semverPiece cs = toLex (Sum.inr cs) := by
  have hSpace : ∀ c ∈ cs, PyText.isSpace c = false := fun c hc =>
    PyText.isSpace_of_range (suffixChar_range (hChars c hc))
  have hNone : PyText.toInt (String.ofList cs) = none := by
    have hRest : PyText.digitsValue (PyText.signAndRest cs).2 = none := by
      unfold PyText.signAndRest
      split
      · exact hSigned
      · exact absurd (hChars '+' List.mem_cons_self) (by decide)
      · exact hDigits
    rw [PyText.toInt, PyText.strip_ofList hSpace, String.toList_ofList]
    simp [hRest]
  rw [semverPiece, hNone]

/-- Without a sign in front, both comparisons read the same. -/
theorem semverPiece_of_unsigned {cs : List Char} (hChars : ∀ c ∈ cs, isSuffixChar c = true)
    (hSigned : signed cs = none) : semverPiece cs = digitPiece cs := by
  cases hValue : PyText.digitsValue cs with
  | some n => rw [semverPiece_of_digits hValue, digitPiece, hValue]
  | none => rw [semverPiece_of_text hChars hSigned hValue, digitPiece, hValue]

theorem identifier_of_signed {cs : List Char} {n : ℕ} (h : signed cs = some n) :
    identifier cs = toLex (Sum.inr cs) := by
  have hDigits : PyText.digitsValue cs = none := by
    unfold signed at h
    split at h
    · exact digitsValue_mixed [] _
    · cases h
  rw [identifier, hDigits]

theorem signAgrees_iff {x y : List Char} (hx : ∀ c ∈ x, isSuffixChar c = true)
    (hy : ∀ c ∈ y, isSuffixChar c = true) (h : identifier x ≠ identifier y) (rest : Prop) :
    SignAgrees x y rest ↔
      ((semverPiece y < semverPiece x ∨ semverPiece y = semverPiece x ∧ rest) ↔
        identifier y < identifier x) := by
  unfold SignAgrees
  cases hSigned : signed x with
  | none =>
      cases hSigned' : signed y with
      | none =>
          rw [semverPiece_of_unsigned hx hSigned, semverPiece_of_unsigned hy hSigned',
            digitPiece_lt_iff, digitPiece_eq_iff]
          simp [h.symm]
      | some m =>
          rw [semverPiece_of_signed hSigned', identifier_of_signed hSigned']
          cases hValue : PyText.digitsValue x with
          | some n =>
              rw [semverPiece_of_digits hValue, identifier, hValue]
              simp only [Sum.Lex.toLex_lt_toLex, Sum.lex_inl_inl, EmbeddingLike.apply_eq_iff_eq,
                Sum.inl.injEq, Sum.lex_inr_inl, iff_false, not_or, not_and, not_lt]
              constructor
              · rintro ⟨rfl, rfl, hRest⟩
                exact ⟨le_refl 0, fun _ => hRest⟩
              · rintro ⟨hLe, hRest⟩
                obtain ⟨rfl, rfl⟩ : n = 0 ∧ m = 0 := by omega
                exact ⟨rfl, rfl, hRest rfl⟩
          | none =>
              rw [semverPiece_of_text hx hSigned hValue, identifier, hValue]
              simp
  | some n =>
      rw [identifier_of_signed hSigned] at h ⊢
      rw [semverPiece_of_signed hSigned]
      cases hSigned' : signed y with
      | none =>
          cases hValue : PyText.digitsValue y with
          | some m =>
              rw [semverPiece_of_digits hValue, identifier, hValue]
              simp only [Sum.Lex.toLex_lt_toLex, Sum.lex_inl_inl, EmbeddingLike.apply_eq_iff_eq,
                Sum.inl.injEq, Sum.Lex.sep, iff_true]
              constructor
              · rintro ⟨rfl, rfl, hRest⟩
                exact .inr ⟨rfl, hRest⟩
              · rintro (hLt | ⟨hEq, hRest⟩)
                · omega
                · obtain ⟨rfl, rfl⟩ : n = 0 ∧ m = 0 := by omega
                  exact ⟨rfl, rfl, hRest⟩
          | none =>
              have hNe : x ≠ y := fun hEq => h (by rw [identifier, hValue, hEq])
              rw [semverPiece_of_text hy hSigned' hValue, identifier, hValue]
              simp only [Sum.Lex.toLex_lt_toLex, Sum.lex_inr_inl, EmbeddingLike.apply_eq_iff_eq,
                reduceCtorEq, false_and, or_self, Sum.lex_inr_inr, false_iff, not_lt]
              exact ⟨le_of_lt, fun hLe => lt_of_le_of_ne hLe hNe⟩
      | some m =>
          rw [semverPiece_of_signed hSigned', identifier_of_signed hSigned']
          simp only [Sum.Lex.toLex_lt_toLex, Sum.lex_inl_inl, Int.neg_lt_neg_iff, Int.ofNat_lt,
            EmbeddingLike.apply_eq_iff_eq, Sum.inl.injEq, Int.neg_inj, Sum.lex_inr_inr]
          split_ifs with hEq
          · simp [hEq]
          · have hCast : (m : ℤ) ≠ n := fun hEq' => hEq (Int.ofNat_inj.mp hEq').symm
            simp [hCast]

theorem signsAgree_iff {xs ys : List (List Char)}
    (hxs : ∀ x ∈ xs, ∀ c ∈ x, isSuffixChar c = true)
    (hys : ∀ y ∈ ys, ∀ c ∈ y, isSuffixChar c = true) :
    SignsAgree xs ys ↔
      (ys.map semverPiece < xs.map semverPiece ↔ ys.map identifier < xs.map identifier) := by
  induction xs generalizing ys with
  | nil => cases ys <;> simp [SignsAgree]
  | cons x xs ih =>
      cases ys with
      | nil => simp [SignsAgree]
      | cons y ys =>
          rw [List.forall_mem_cons] at hxs hys
          rw [SignsAgree, List.map_cons, List.map_cons, List.map_cons, List.map_cons,
            List.cons_lt_cons_iff, List.cons_lt_cons_iff]
          split_ifs with hIdentifier
          · simp [semverPiece_of_identifier hIdentifier, hIdentifier, ih hxs.2 hys.2]
          · rw [signAgrees_iff hxs.1 hys.1 hIdentifier]
            simp [Ne.symm hIdentifier]

namespace Version

variable {a b : Version}

theorem laterIds_of_none {x : Version} (h : x.pre = none) : x.laterIds = [] := by
  rw [laterIds, identifiers, h]
  rfl

theorem identifiers_of_some {x : Version} {p : List Char} (h : x.pre = some p) :
    x.identifiers = some ((PyText.splitChars '.' p).headD [] :: x.laterIds) := by
  rw [laterIds, identifiers, h, Option.map_some, Option.getD_some]
  cases hPieces : PyText.splitChars '.' p with
  | nil => exact absurd hPieces (PyText.splitChars_ne_nil '.' p)
  | cons piece rest => rfl

theorem takeWhile_number {number rest : List Char} (h : isNumber number = true) :
    (number ++ '-' :: rest).takeWhile (· ≠ '-') = number := by
  have hDigits : ∀ c ∈ number, decide (c ≠ '-') = true := by
    intro c hc
    exact decide_eq_true (digit_ne ((digits_of_isNumber h).2 c hc) (by decide))
  rw [List.takeWhile_append_of_pos hDigits]
  simp

/-- The third piece of a pre-release tells its patch number and its first identifier. -/
theorem of_third_eq {p q : List Char} (ha : a.pre = some p) (hb : b.pre = some q)
    (h : a.third = b.third) :
    a.patch = b.patch ∧
      (PyText.splitChars '.' p).headD [] = (PyText.splitChars '.' q).headD [] := by
  rw [third, third, ha, hb, Option.elim_some, Option.elim_some] at h
  have hPatch : a.patch = b.patch := by
    rw [← takeWhile_number a.patch_ok, h, takeWhile_number b.patch_ok]
  rw [hPatch] at h
  exact ⟨hPatch, (List.cons.inj (List.append_cancel_left h)).2⟩

theorem text_ne_empty (x : Version) : x.text ≠ "" := by
  intro h
  have hChars : x.chars = [] := String.ofList_injective h
  simp [chars] at hChars

theorem hasUpdate_iff (a b : Version) :
    (⟨b.text, some a.text⟩ : UpdateState).hasUpdate = true ↔
      semverTuple b.text < semverTuple a.text := by
  have hNe : ¬ (a.text = "" ∨ b.text = "") := by
    rintro (h | h)
    · exact a.text_ne_empty h
    · exact b.text_ne_empty h
  simp only [UpdateState.hasUpdate, if_neg hNe, Bool.and_eq_true, decide_eq_true_eq]
  refine ⟨And.right, fun h => ⟨fun hText => ?_, h⟩⟩
  rw [hText] at h
  exact lt_irrefl _ h

/-- What the third pieces and those after them decide, under `read`. -/
def ThirdBefore (read : List Char → Piece) (a b : Version) : Prop :=
  match a.pre, b.pre with
  | none, none => value a.patch < value b.patch
  | none, some _ => True
  | some _, none => False
  | some _, some _ => a.third < b.third ∨ a.third = b.third ∧
      a.laterIds.map read < b.laterIds.map read

theorem Reads.third_lt_iff {read : List Char → Piece} (h : Reads read) (a b : Version) :
    (read a.third < read b.third ∨ read a.third = read b.third ∧
      a.laterIds.map read < b.laterIds.map read) ↔ ThirdBefore read a b := by
  have hNumber : ∀ x : Version, x.pre = none →
      read x.third = toLex (Sum.inl (value x.patch : ℤ)) := by
    intro x hx
    rw [third_of_none hx, h.number x.patch_ok]
  have hText : ∀ x : Version, ∀ p, x.pre = some p → read x.third = toLex (Sum.inr x.third) := by
    intro x p hx
    exact h.third x (by rw [hx]; rfl)
  unfold ThirdBefore
  cases ha : a.pre with
  | none =>
      cases hb : b.pre with
      | none =>
          rw [hNumber a ha, hNumber b hb, laterIds_of_none ha, laterIds_of_none hb]
          simp
      | some q => simp [hNumber a ha, hText b q hb]
  | some p =>
      cases hb : b.pre with
      | none => simp [hText a p ha, hNumber b hb]
      | some q => simp [hText a p ha, hText b q hb]

theorem third_of_some {x : Version} {p : List Char} (h : x.pre = some p) :
    x.third = x.patch ++ '-' :: x.firstId := by
  rw [third, firstId, identifiers, h]
  rfl

theorem firstId_of_some {x : Version} {p : List Char} (h : x.pre = some p) :
    (PyText.splitChars '.' p).headD [] = x.firstId := by
  rw [firstId, identifiers, h]
  rfl

theorem third_eq_iff {p q : List Char} (ha : a.pre = some p) (hb : b.pre = some q) :
    a.third = b.third ↔ a.patch = b.patch ∧ a.firstId = b.firstId := by
  constructor
  · intro h
    rw [← firstId_of_some ha, ← firstId_of_some hb]
    exact of_third_eq ha hb h
  · rintro ⟨hPatch, hFirst⟩
    rw [third_of_some ha, third_of_some hb, hPatch, hFirst]

theorem suffixChar_of_mem_laterIds (x : Version) :
    ∀ cs ∈ x.laterIds, ∀ c ∈ cs, isSuffixChar c = true := by
  intro cs hcs c hc
  rw [laterIds, identifiers] at hcs
  cases hPre : x.pre with
  | none =>
      rw [hPre] at hcs
      cases hcs
  | some p =>
      rw [hPre] at hcs
      have hPiece : cs ∈ PyText.splitChars '.' p := List.mem_of_mem_tail hcs
      exact (isSuffix_iff.mp (x.pre_ok p hPre)).1 c (PyText.mem_of_mem_splitChars hPiece hc)

/-- A dash comes before every digit, so that the third pieces of pre-releases are in the order
of their patch numbers as texts, and then of their first identifiers. -/
theorem number_dash_lt_iff {number number' rest rest' : List Char}
    (h : ∀ c ∈ number, c.isDigit = true) (h' : ∀ c ∈ number', c.isDigit = true) :
    number ++ '-' :: rest < number' ++ '-' :: rest' ↔
      number < number' ∨ number = number' ∧ rest < rest' := by
  have hDash : ∀ c : Char, c.isDigit = true → '-' < c := by
    intro c hc
    have hRange := PyText.digit_range hc
    exact Char.lt_def.mpr (UInt32.lt_iff_toNat_lt.mpr (show 45 < c.toNat by omega))
  induction number generalizing number' with
  | nil =>
      cases number' with
      | nil => simp
      | cons c cs => simp [List.cons_lt_cons_iff, hDash c (h' c List.mem_cons_self)]
  | cons c cs ih =>
      cases number' with
      | nil =>
          have hLt := hDash c (h c List.mem_cons_self)
          simp [List.cons_lt_cons_iff, hLt.not_gt, hLt.ne']
      | cons c' cs' =>
          rw [List.forall_mem_cons] at h h'
          have hRest : cs ++ '-' :: rest < cs' ++ '-' :: rest' ↔
              cs < cs' ∨ cs = cs' ∧ rest < rest' := ih h.2 h'.2
          rw [List.cons_append, List.cons_append, List.cons_lt_cons_iff, List.cons_lt_cons_iff,
            hRest, List.cons.injEq, and_or_left, or_assoc, and_assoc]

/-- The pairs that compare right: those whose third pieces are in the order of their patch
numbers and identifiers. -/
theorem inOrder_iff {p q : List Char} (ha : a.pre = some p) (hb : b.pre = some q) :
    InOrder a b ↔ a.third < b.third ∧
      (value a.patch < value b.patch ∨ value a.patch = value b.patch ∧
        preRelease a.identifiers < preRelease b.identifiers) := by
  have hDigits := (digits_of_isNumber a.patch_ok).2
  have hDigits' := (digits_of_isNumber b.patch_ok).2
  rw [third_of_some ha, third_of_some hb, number_dash_lt_iff hDigits hDigits']
  have hRest : preRelease a.identifiers < preRelease b.identifiers ↔
      identifier a.firstId < identifier b.firstId ∨ identifier a.firstId = identifier b.firstId ∧
        a.laterIds.map identifier < b.laterIds.map identifier := by
    rw [identifiers_of_some ha, identifiers_of_some hb, preRelease_some_lt_some, List.map_cons,
      List.map_cons, List.cons_lt_cons_iff, firstId_of_some ha, firstId_of_some hb]
  constructor
  · intro h
    cases h with
    | patch hValue hText => exact ⟨.inl hText, .inl hValue⟩
    | patchZeros hValue hText hRest => exact ⟨.inl hText, .inr ⟨hValue, hRest⟩⟩
    | number n m hPatch hFirst hFirst' hValue hText =>
        refine ⟨.inr ⟨hPatch, hText⟩, .inr ⟨congrArg value hPatch, hRest.mpr (.inl ?_)⟩⟩
        simp [identifier, hFirst, hFirst', hValue]
    | numberZeros n hPatch hFirst hFirst' hText hLater =>
        refine ⟨.inr ⟨hPatch, hText⟩, .inr ⟨congrArg value hPatch, hRest.mpr (.inr ⟨?_, hLater⟩)⟩⟩
        simp [identifier, hFirst, hFirst']
    | numberText n hPatch hFirst hFirst' hText =>
        refine ⟨.inr ⟨hPatch, hText⟩, .inr ⟨congrArg value hPatch, hRest.mpr (.inl ?_)⟩⟩
        simp [identifier, hFirst, hFirst']
    | texts hPatch hFirst hFirst' hText =>
        refine ⟨.inr ⟨hPatch, hText⟩, .inr ⟨congrArg value hPatch, hRest.mpr (.inl ?_)⟩⟩
        simp [identifier, hFirst, hFirst', hText]
  · rintro ⟨hText | ⟨hPatch, hText⟩, hValue | ⟨hValue, hPre⟩⟩
    · exact .patch hValue hText
    · exact .patchZeros hValue hText hPre
    · exact absurd hValue (by rw [hPatch]; exact lt_irrefl _)
    · rw [hRest] at hPre
      unfold identifier at hPre
      cases hFirst : PyText.digitsValue a.firstId with
      | some n =>
          cases hFirst' : PyText.digitsValue b.firstId with
          | some m =>
              simp only [hFirst, hFirst', Sum.Lex.inl_lt_inl_iff, EmbeddingLike.apply_eq_iff_eq,
                Sum.inl.injEq] at hPre
              rcases hPre with hLt | ⟨rfl, hLater⟩
              · exact .number n m hPatch hFirst hFirst' hLt hText
              · exact .numberZeros n hPatch hFirst hFirst' hText hLater
          | none => exact .numberText n hPatch hFirst hFirst' hText
      | none =>
          cases hFirst' : PyText.digitsValue b.firstId with
          | some m => simp [hFirst, hFirst'] at hPre
          | none => exact .texts hPatch hFirst hFirst' hText

/-- Two pre-releases with the same third piece are in the order of their other
identifiers. -/
theorem precedence_lt_of_third {p q : List Char} (ha : a.pre = some p) (hb : b.pre = some q)
    (hThird : a.third = b.third) :
    (value a.patch < value b.patch ∨ value a.patch = value b.patch ∧
      preRelease a.identifiers < preRelease b.identifiers) ↔
      a.laterIds.map identifier < b.laterIds.map identifier := by
  obtain ⟨hPatch, hFirst⟩ := of_third_eq ha hb hThird
  rw [identifiers_of_some ha, identifiers_of_some hb, preRelease_some_lt_some, hPatch, hFirst,
    List.map_cons, List.map_cons, List.cons_lt_cons_iff]
  simp

end Version

theorem ordered_patches_iff (a b : Version)
    (hMajor : Version.value a.major = Version.value b.major)
    (hMinor : Version.value a.minor = Version.value b.minor) :
    ((Version.ThirdBefore semverPiece b a ↔ b.precedence < a.precedence) ∧
      (Version.ThirdBefore digitPiece a b ↔ a.precedence < b.precedence)) ↔
      OrderedAlike a b := by
  rw [Version.precedence_lt_iff b a, Version.precedence_lt_iff a b]
  simp only [hMajor, hMinor, lt_self_iff_false, false_or, true_and]
  unfold OrderedAlike Version.ThirdBefore
  cases ha : a.pre with
  | none =>
      have haIds : a.identifiers = none := by rw [Version.identifiers, ha]; rfl
      cases hb : b.pre with
      | none =>
          have hbIds : b.identifiers = none := by rw [Version.identifiers, hb]; rfl
          simp [haIds, hbIds]
      | some q =>
          rw [haIds, Version.identifiers_of_some hb]
          simp only [preRelease_none_not_lt, preRelease_some_lt_none, and_true, and_false, or_false,
            hMajor, hMinor, forall_const, true_iff, false_iff]
          omega
  | some p =>
      cases hb : b.pre with
      | none =>
          have hbIds : b.identifiers = none := by rw [Version.identifiers, hb]; rfl
          rw [hbIds, Version.identifiers_of_some ha]
          simp only [preRelease_none_not_lt, preRelease_some_lt_none, and_true, and_false, or_false,
            hMajor, hMinor, forall_const, true_iff, false_iff]
          omega
      | some q =>
          simp only [hMajor, hMinor, forall_const]
          by_cases hThird : a.third = b.third
          · rw [if_pos ((Version.third_eq_iff ha hb).mp hThird),
              Version.precedence_lt_of_third ha hb hThird,
              Version.precedence_lt_of_third hb ha hThird.symm,
              signsAgree_iff a.suffixChar_of_mem_laterIds b.suffixChar_of_mem_laterIds]
            simp [hThird, map_digitPiece_lt_iff]
          · rw [if_neg (mt (Version.third_eq_iff ha hb).mpr hThird), Version.inOrder_iff ha hb,
              Version.inOrder_iff hb ha]
            simp only [hThird, Ne.symm hThird, false_and, or_false]
            have hRests : ¬ (preRelease a.identifiers < preRelease b.identifiers ∧
                preRelease b.identifiers < preRelease a.identifiers) := fun h => lt_asymm h.1 h.2
            rcases lt_or_gt_of_ne hThird with hText | hText
            · simp only [hText, hText.not_gt, true_and, false_and, or_false, true_iff, false_iff]
              refine and_iff_right_of_imp ?_
              rintro (hLt | ⟨hEq, hLt⟩) (hLt' | ⟨hEq', hLt'⟩)
              · omega
              · omega
              · omega
              · exact hRests ⟨hLt, hLt'⟩
            · simp only [hText, hText.not_gt, true_and, false_and, false_or, true_iff, false_iff]
              refine and_iff_left_of_imp ?_
              rintro (hLt | ⟨hEq, hLt⟩) (hLt' | ⟨hEq', hLt'⟩)
              · omega
              · omega
              · omega
              · exact hRests ⟨hLt', hLt⟩

/-- The two comparisons follow the precedence exactly on versions that are ordered
alike. -/
theorem comparisons_agree_iff (a b : Version) :
    (((⟨b.text, some a.text⟩ : UpdateState).hasUpdate = true ↔ b.precedence < a.precedence) ∧
      (isDowngrade a.text b.text = true ↔ a.precedence < b.precedence)) ↔ OrderedAlike a b := by
  rw [Version.hasUpdate_iff, isDowngrade, decide_eq_true_eq, semverTuple, semverTuple, parts, parts,
    Version.reads_semverPiece.lt_iff, Version.reads_digitPiece.lt_iff,
    Version.reads_semverPiece.third_lt_iff, Version.reads_digitPiece.third_lt_iff]
  by_cases hMajor : Version.value a.major = Version.value b.major
  · by_cases hMinor : Version.value a.minor = Version.value b.minor
    · rw [← ordered_patches_iff a b hMajor hMinor]
      simp [hMajor, hMinor]
    · rw [Version.precedence_lt_iff b a, Version.precedence_lt_iff a b]
      simp [hMajor, hMinor, Ne.symm hMinor, OrderedAlike]
  · rw [Version.precedence_lt_iff b a, Version.precedence_lt_iff a b]
    simp [hMajor, Ne.symm hMajor, OrderedAlike]

def release : Version :=
  ⟨false, ['1'], ['2'], ['3'], none, by decide, by decide, by decide, by decide⟩

def candidate : Version :=
  ⟨false, ['1'], ['2'], ['3'], some ['r', 'c', '.', '1'], by decide, by decide, by decide,
    by decide⟩

/-- A box on the release candidate stays on it: its release is not offered, and would
be refused as a downgrade. -/
theorem release_refused_after_candidate :
    ¬ ∀ a b : Version,
      ((⟨b.text, some a.text⟩ : UpdateState).hasUpdate = true ↔ b.precedence < a.precedence) ∧
        (isDowngrade a.text b.text = true ↔ a.precedence < b.precedence) := by
  intro hAll
  have hLower : candidate.precedence < release.precedence := by
    rw [Version.precedence_lt_iff]
    exact Or.inr ⟨rfl, Or.inr ⟨rfl, Or.inr ⟨rfl, preRelease_some_lt_none _⟩⟩⟩
  have hOffered := (hAll release candidate).1.mpr hLower
  exact absurd hOffered (by decide +kernel)

end WattPost.Update
