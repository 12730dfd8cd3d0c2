import Mathlib.Data.List.Nodup
import WattPost.Lib.PyText

/-! The text exposition format of a metrics page: comment lines, lines that give the type
of a metric, and samples with at most one label. -/
namespace Exposition

/-! ### Lines -/

def isNameChar (c : Char) : Bool := c.isAlphanum || c = '_' || c = ':'

/-- A metric or label name. -/
structure IsName (name : List Char) : Prop where
  chars : ∀ c ∈ name, isNameChar c = true
  start : ∃ c rest, name = c :: rest ∧ c.isDigit = false

/-- A line of a page. -/
inductive Line where
  | comment
  | type (name : List Char)
  | sample (name : List Char) (label : Option (List Char × List Char)) (value : List Char)
deriving DecidableEq

def escapeChar (c : Char) : List Char :=
  if c = '\\' then ['\\', '\\'] else if c = '"' then ['\\', '"']
  else if c = '\n' then ['\\', 'n'] else [c]

/-- A label value between its quotes. -/
def escape (value : List Char) : List Char := value.flatMap escapeChar

/-- A label value and what stands behind its closing quote. -/
def readQuoted : List Char → Option (List Char × List Char)
  | [] => none
  | '"' :: rest => some ([], rest)
  | '\\' :: '\\' :: rest => (readQuoted rest).map fun r => ('\\' :: r.1, r.2)
  | '\\' :: '"' :: rest => (readQuoted rest).map fun r => ('"' :: r.1, r.2)
  | '\\' :: 'n' :: rest => (readQuoted rest).map fun r => ('\n' :: r.1, r.2)
  | '\\' :: _ => none
  | c :: rest => (readQuoted rest).map fun r => (c :: r.1, r.2)

/-- A name, and what stands behind it. -/
def readName (cs : List Char) : Option (List Char × List Char) :=
  match cs.takeWhile isNameChar with
  | [] => none
  | c :: rest => if c.isDigit then none else some (c :: rest, cs.dropWhile isNameChar)

/-- The label of a sample and its value, behind the opening brace. -/
def readLabelled (name cs : List Char) : Option Line := do
  let (key, behind) ← readName cs
  match behind with
  | '=' :: '"' :: quoted =>
      let (label, behind) ← readQuoted quoted
      match behind with
      | '\x7d' :: ' ' :: value => some (.sample name (some (key, label)) value)
      | _ => none
  | _ => none

def readSample (cs : List Char) : Option Line := do
  let (name, behind) ← readName cs
  match behind with
  | ' ' :: value => some (.sample name none value)
  | '\x7b' :: labels => readLabelled name labels
  | _ => none

/-- A type line, another comment, or a sample. -/
def readLine (cs : List Char) : Option Line :=
  if "# TYPE ".toList.isPrefixOf cs then
    (readName (cs.drop 7)).map fun r => .type r.1
  else if ['#'].isPrefixOf cs then some .comment
  else readSample cs

/-- A page: every line ends in a line feed. -/
def readPage (text : List Char) : Option (List Line) :=
  let pieces := PyText.splitChars '\n' text
  if pieces.getLast? = some [] then pieces.dropLast.mapM readLine else none

/-! ### Well-formed pages -/

def typeNames (lines : List Line) : List (List Char) :=
  lines.filterMap fun line => match line with
    | .type name => some name
    | _ => none

/-- What tells one sample from another: its name and its label. -/
def sampleIds (lines : List Line) : List (List Char × Option (List Char × List Char)) :=
  lines.filterMap fun line => match line with
    | .sample name label _ => some (name, label)
    | _ => none

/-- Every metric has one type line, and no two samples are of the same series. -/
structure WellFormed (lines : List Line) : Prop where
  types : (typeNames lines).Nodup
  typed : ∀ id ∈ sampleIds lines, id.1 ∈ typeNames lines
  series : (sampleIds lines).Nodup

theorem typeNames_append (xs ys : List Line) :
    typeNames (xs ++ ys) = typeNames xs ++ typeNames ys := List.filterMap_append

theorem sampleIds_append (xs ys : List Line) :
    sampleIds (xs ++ ys) = sampleIds xs ++ sampleIds ys := List.filterMap_append

/-! ### Reading what was written -/

theorem readQuoted_escape (label rest : List Char) :
    readQuoted (escape label ++ '"' :: rest) = some (label, rest) := by
  induction label with
  | nil => rfl
  | cons c cs ih =>
      rw [escape, List.flatMap_cons, List.append_assoc]
      change readQuoted (escapeChar c ++ (escape cs ++ '"' :: rest)) = _
      by_cases hSlash : c = '\\'
      · subst hSlash
        simp [escapeChar, readQuoted, ih]
      by_cases hQuote : c = '"'
      · subst hQuote
        simp [escapeChar, readQuoted, ih]
      by_cases hFeed : c = '\n'
      · subst hFeed
        simp [escapeChar, readQuoted, ih]
      simp [escapeChar, hSlash, hQuote, hFeed, readQuoted, ih]

theorem escape_noFeed (label : List Char) : '\n' ∉ escape label := by
  intro hMem
  obtain ⟨c, _, hc⟩ := List.mem_flatMap.mp hMem
  unfold escapeChar at hc
  split_ifs at hc with _ _ hFeed
  · simp at hc
  · simp at hc
  · simp at hc
  · exact hFeed (List.mem_singleton.mp hc).symm

/-- A name that ends where another character follows. -/
theorem readName_append {name : List Char} (h : IsName name) {c : Char}
    (hStop : isNameChar c = false) (rest : List Char) :
    readName (name ++ c :: rest) = some (name, c :: rest) := by
  obtain ⟨first, more, rfl, hDigit⟩ := h.start
  have hTake : ((first :: more) ++ c :: rest).takeWhile isNameChar = first :: more := by
    rw [List.takeWhile_append_of_pos h.chars, List.takeWhile_cons_of_neg (by simp [hStop]),
      List.append_nil]
  have hDrop : ((first :: more) ++ c :: rest).dropWhile isNameChar = c :: rest := by
    rw [List.dropWhile_append_of_pos h.chars, List.dropWhile_cons_of_neg (by simp [hStop])]
  unfold readName
  rw [hTake, hDrop]
  simp [hDigit]

/-- A name goes on with name characters. -/
theorem IsName.append {name more : List Char} (h : IsName name)
    (hMore : ∀ c ∈ more, isNameChar c = true) : IsName (name ++ more) := by
  obtain ⟨c, rest, rfl, hDigit⟩ := h.start
  refine ⟨fun x hx => ?_, c, rest ++ more, rfl, hDigit⟩
  exact (List.mem_append.mp hx).elim (h.chars x) (hMore x)

theorem IsName.noFeed {name : List Char} (h : IsName name) : '\n' ∉ name := by
  intro hMem
  exact absurd (h.chars _ hMem) (by decide)

theorem IsName.ne_hash {name : List Char} (h : IsName name) (rest : List Char) :
    ['#'].isPrefixOf (name ++ rest) = false ∧
      "# TYPE ".toList.isPrefixOf (name ++ rest) = false := by
  obtain ⟨first, more, rfl, _⟩ := h.start
  have hFirst := h.chars first List.mem_cons_self
  have hNe : ('#' == first) = false := by
    rw [beq_eq_false_iff_ne]
    rintro rfl
    revert hFirst
    decide
  constructor
  · simp [List.isPrefixOf, hNe]
  · simp [List.isPrefixOf, hNe]

theorem readLine_bare {name : List Char} (h : IsName name) (value : List Char) :
    readLine (name ++ ' ' :: value) = some (.sample name none value) := by
  obtain ⟨hComment, hType⟩ := h.ne_hash (' ' :: value)
  rw [readLine, hType, hComment, readSample, readName_append h (by decide)]
  rfl

theorem readLine_labelled {name key : List Char} (h : IsName name) (hKey : IsName key)
    (label value : List Char) :
    readLine (name ++ '\x7b' :: (key ++ '=' :: '"' ::
      (escape label ++ '"' :: '\x7d' :: ' ' :: value))) =
      some (.sample name (some (key, label)) value) := by
  obtain ⟨hComment, hType⟩ := h.ne_hash ('\x7b' :: (key ++ '=' :: '"' ::
    (escape label ++ '"' :: '\x7d' :: ' ' :: value)))
  rw [readLine, hType, hComment, readSample, readName_append h (by decide)]
  change readLabelled name _ = _
  rw [readLabelled, readName_append hKey (by decide)]
  change (readQuoted (escape label ++ '"' :: '\x7d' :: ' ' :: value)).bind _ = _
  rw [readQuoted_escape]
  rfl

theorem readLine_type {name : List Char} (h : IsName name) (rest : List Char) :
    readLine ("# TYPE ".toList ++ (name ++ ' ' :: rest)) = some (.type name) := by
  have hPrefix : "# TYPE ".toList.isPrefixOf ("# TYPE ".toList ++ (name ++ ' ' :: rest)) = true :=
    List.isPrefixOf_iff_prefix.mpr (List.prefix_append _ _)
  rw [readLine, hPrefix, if_pos rfl, List.drop_left' (by decide), readName_append h (by decide)]
  rfl

/-- A page is read line by line. -/
theorem readPage_lines {lines : List (List Char)} (h : ∀ line ∈ lines, '\n' ∉ line) :
    readPage (lines.flatMap fun line => line ++ ['\n']) = lines.mapM readLine := by
  rw [readPage, PyText.splitChars_lines h, List.getLast?_concat, List.dropLast_concat]
  exact if_pos rfl

end Exposition
