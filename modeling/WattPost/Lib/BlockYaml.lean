import Mathlib.Data.List.TakeWhile
import WattPost.Lib.MapM
import WattPost.Lib.PyText

/-! YAML in block style: mappings and sequences by indentation, with plain and quoted scalars
that stay on their line. A document is the list of its nodes in order, each under the keys and
items that enclose it. Flow style, block scalars, anchors, tags, escapes in a quoted scalar and
keys with other characters than those of a plain word are not read. -/
namespace BlockYaml

/-! ### Lines -/

/-- What stands at a column of a line. -/
inductive Mark where
  | item
  | key (name : List Char) (value : Option (List Char))
  | scalar (value : List Char)
deriving DecidableEq

def isBlank (c : Char) : Bool := c == ' '

def isKeyChar (c : Char) : Bool := c.isAlphanum || c = '_' || c = '-' || c = '.' || c = '/'

/-- A key, and what stands behind its colon. -/
def splitKey (cs : List Char) : Option (List Char × List Char) :=
  match cs.takeWhile isKeyChar, cs.dropWhile isKeyChar with
  | [], _ => none
  | key, [':'] => some (key, [])
  | key, ':' :: ' ' :: raw => some (key, ' ' :: raw)
  | _, _ => none

/-- A plain scalar goes on to the end of the line or to a comment. -/
def plainText : List Char → List Char
  | [] => []
  | ' ' :: '#' :: _ => []
  | c :: cs => c :: plainText cs

/-- The characters that no plain scalar begins with. -/
def isIndicator (c : Char) : Bool := "|>\x7b\x7d[]&*!%@\x60,?#\"'".toList.contains c

/-- Nothing but blanks, or a comment behind them. -/
def endsLine (cs : List Char) : Bool :=
  match cs.dropWhile isBlank with
  | [] => true
  | '#' :: _ => cs.head? == some ' '
  | _ => false

def isQuote (c : Char) : Bool := c == '"' || c == '\''

def readScalar : List Char → Option (List Char)
  | [] => none
  | c :: cs =>
      if isQuote c then
        match cs.dropWhile (· != c) with
        | [] => none
        | _ :: behind =>
            if endsLine behind ∧ '\\' ∉ cs.takeWhile (· != c) then some (cs.takeWhile (· != c))
            else none
      else if isIndicator c then none
      else
        let text := PyText.rstripBy isBlank (plainText (c :: cs))
        if text.all fun d => !PyText.isSpace d || d == ' ' then some text else none

/-- What stands behind the colon of a key: nothing, or its value. -/
def readValue (raw : List Char) : Option (Option (List Char)) :=
  match raw.dropWhile isBlank with
  | [] => some none
  | '#' :: _ => some none
  | cs => (readScalar cs).map some

def readKey (col : Nat) (cs : List Char) : Option (Nat × Mark) :=
  (splitKey cs).bind fun entry => (readValue entry.2).map fun value => (col, .key entry.1 value)

/-- The content of an item. -/
def readContent (col : Nat) (cs : List Char) : Option (Nat × Mark) :=
  match splitKey cs with
  | some _ => readKey col cs
  | none => (readScalar cs).map fun value => (col, .scalar value)

/-- The marks of a line without its line end. -/
def readBody (col : Nat) (cs : List Char) : Option (List (Nat × Mark)) :=
  match cs with
  | [] => some []
  | '#' :: _ => some []
  | ['-'] => some [(col, .item)]
  | '-' :: ' ' :: more =>
      match more.dropWhile isBlank with
      | [] => some [(col, .item)]
      | '#' :: _ => some [(col, .item)]
      | inner =>
          (readContent (col + 2 + (more.length - inner.length)) inner).map fun mark =>
            [(col, .item), mark]
  | cs => (readKey col cs).map fun mark => [mark]

def readLine (line : List Char) : Option (List (Nat × Mark)) :=
  let body := line.takeWhile (· != '\n')
  readBody (body.takeWhile isBlank).length (body.dropWhile isBlank)

/-! ### Documents -/

/-- A step from a node to one inside it. -/
inductive Step where
  | item
  | key (name : List Char)
deriving DecidableEq

structure Node where
  path : List Step
  value : Option (List Char)
deriving DecidableEq

/-- The steps that are open, with their columns, the innermost first. -/
abbrev Stack := List (Nat × Step)

/-- The steps that enclose a mark. An item may stand in the column of its key. -/
def enclosing (stack : Stack) (col : Nat) : Mark → Stack
  | .item => stack.dropWhile fun o => col < o.1 || (col = o.1 && o.2 = .item)
  | _ => stack.dropWhile fun o => col ≤ o.1

def pathOf (stack : Stack) : List Step := (stack.map Prod.snd).reverse

def nodeAt (stack : Stack) (mark : Nat × Mark) : Node :=
  let path := pathOf (enclosing stack mark.1 mark.2)
  match mark.2 with
  | .item => { path := path ++ [.item], value := none }
  | .key name value => { path := path ++ [.key name], value := value }
  | .scalar value => { path := path, value := some value }

def advance (stack : Stack) (mark : Nat × Mark) : Stack :=
  let outer := enclosing stack mark.1 mark.2
  match mark.2 with
  | .item => (mark.1, .item) :: outer
  | .key name _ => (mark.1, .key name) :: outer
  | .scalar _ => outer

/-- The nodes of marks in order. -/
def listAll : Stack → List (Nat × Mark) → List Node
  | _, [] => []
  | stack, mark :: marks => nodeAt stack mark :: listAll (advance stack mark) marks

def document (lines : List (List Char)) : Option (List Node) :=
  (lines.mapM readLine).map fun marks => listAll [] marks.flatten

/-- The steps that are open behind some lines. -/
def stackAfter (lines : List (List Char)) : Stack :=
  (((lines.mapM readLine).getD []).flatten).foldl advance []

/-- The path of a key that stands in a column behind some lines. -/
def keyPath (lines : List (List Char)) (col : Nat) (name : List Char) : List Step :=
  (nodeAt (stackAfter lines) (col, .key name none)).path

/-! ### A line in its document -/

theorem listAll_append (stack : Stack) (xs ys : List (Nat × Mark)) :
    listAll stack (xs ++ ys) = listAll stack xs ++ listAll (xs.foldl advance stack) ys := by
  induction xs generalizing stack with
  | nil => rfl
  | cons x xs ih =>
      rw [List.cons_append, listAll, ih, listAll, List.foldl_cons]
      rfl

theorem mapM_split {above below : List (List Char)} {line : List Char}
    {marks : List (List (Nat × Mark))} (h : (above ++ line :: below).mapM readLine = some marks) :
    ∃ as ms bs, above.mapM readLine = some as ∧ readLine line = some ms ∧
      below.mapM readLine = some bs ∧ marks = as ++ ms :: bs := by
  rw [List.mapM_append, List.mapM_cons] at h
  obtain ⟨as, hAbove, h⟩ := Option.bind_eq_some_iff.mp h
  obtain ⟨rest, hRest, h⟩ := Option.bind_eq_some_iff.mp h
  obtain ⟨ms, hLine, hRest⟩ := Option.bind_eq_some_iff.mp hRest
  obtain ⟨bs, hBelow, hRest⟩ := Option.bind_eq_some_iff.mp hRest
  cases hRest
  cases h
  exact ⟨as, ms, bs, hAbove, hLine, hBelow, rfl⟩

theorem mapM_replace {above below : List (List Char)} {line : List Char}
    {as bs : List (List (Nat × Mark))} {ms : List (Nat × Mark)}
    (hAbove : above.mapM readLine = some as) (hBelow : below.mapM readLine = some bs)
    (hLine : readLine line = some ms) :
    (above ++ line :: below).mapM readLine = some (as ++ ms :: bs) := by
  rw [List.mapM_append, List.mapM_cons, hAbove, hLine, hBelow]
  rfl

/-- The line of a key is one node of the document; with another value of the key the other
nodes stay, and a line that is not read spoils the document. -/
theorem document_key {above below : List (List Char)} {line : List Char} {doc : List Node}
    {col : Nat} {name : List Char} {value : Option (List Char)}
    (h : document (above ++ line :: below) = some doc)
    (hLine : readLine line = some [(col, .key name value)]) :
    ∃ before after, doc = before ++ { path := keyPath above col name, value := value } :: after ∧
      ∀ line',
        (∀ value', readLine line' = some [(col, .key name value')] →
          document (above ++ line' :: below) =
            some (before ++ { path := keyPath above col name, value := value' } :: after)) ∧
        (readLine line' = none → document (above ++ line' :: below) = none) := by
  obtain ⟨marks, hMarks, rfl⟩ := Option.map_eq_some_iff.mp h
  obtain ⟨as, ms, bs, hAbove, hSame, hBelow, rfl⟩ := mapM_split hMarks
  obtain rfl := Option.some.inj (hSame.symm.trans hLine)
  have hStack : stackAfter above = as.flatten.foldl advance [] := by
    rw [stackAfter, hAbove, Option.getD_some]
  have hList : ∀ v, listAll [] (as ++ [(col, Mark.key name v)] :: bs).flatten =
      listAll [] as.flatten ++ { path := keyPath above col name, value := v } ::
        listAll (advance (stackAfter above) (col, .key name value)) bs.flatten := by
    intro v
    rw [List.flatten_append, List.flatten_cons, listAll_append, ← hStack]
    rfl
  refine ⟨_, _, hList value, fun line' => ⟨fun value' hLine' => ?_, fun hNone => ?_⟩⟩
  · rw [document, mapM_replace hAbove hBelow hLine', Option.map_some, hList]
  · rw [document, Option.map_eq_none_iff]
    cases hAll : (above ++ line' :: below).mapM readLine with
    | none => rfl
    | some marks =>
        obtain ⟨_, _, _, _, hRead, _, _⟩ := mapM_split hAll
        rw [hNone] at hRead
        cases hRead

/-! ### Words -/

/-- A word that stands for itself as a plain scalar. -/
structure IsWord (w : List Char) : Prop where
  noSpace : ∀ c ∈ w, PyText.isSpace c = false
  start : ∃ c rest, w = c :: rest ∧ isQuote c = false ∧ isIndicator c = false

theorem isSpace_of_isBlank {c : Char} (h : isBlank c = true) : PyText.isSpace c = true := by
  obtain rfl : c = ' ' := by simpa [isBlank] using h
  decide

theorem blank_notMem {w : List Char} (h : ∀ c ∈ w, PyText.isSpace c = false) : ' ' ∉ w :=
  fun hMem => absurd (h _ hMem) (by decide)

/-- Only a comment cuts a plain scalar. -/
theorem plainText_spec (cs : List Char) :
    ∃ rest, cs = plainText cs ++ rest ∧ (rest = [] ∨ ∃ more, rest = ' ' :: '#' :: more) := by
  induction cs using plainText.induct with
  | case1 => exact ⟨[], rfl, Or.inl rfl⟩
  | case2 more => exact ⟨_, rfl, Or.inr ⟨more, rfl⟩⟩
  | case3 c cs hNot ih =>
      obtain ⟨rest, hEq, hRest⟩ := ih
      refine ⟨rest, ?_, hRest⟩
      rw [plainText, List.cons_append, ← hEq]
      exact hNot

theorem plainText_append {w : List Char} (h : ' ' ∉ w) (cs : List Char) :
    plainText (w ++ cs) = w ++ plainText cs := by
  induction w with
  | nil => rfl
  | cons c w ih =>
      rw [List.mem_cons, not_or] at h
      rw [List.cons_append, plainText, ih h.2, List.cons_append]
      intro more hEq _
      exact h.1 hEq.symm

/-- Behind the last word of a line stand blanks, and a comment behind a blank. -/
theorem endsLine_cases {cs : List Char} (h : endsLine cs = true) :
    (∀ c ∈ cs, c = ' ') ∨
      ∃ blanks more, cs = blanks ++ ' ' :: '#' :: more ∧ ∀ c ∈ blanks, c = ' ' := by
  have hBlanks : ∀ c ∈ cs.takeWhile isBlank, c = ' ' := fun c hc => by
    simpa [isBlank] using List.mem_takeWhile_imp hc
  have hSplit : cs.takeWhile isBlank ++ cs.dropWhile isBlank = cs := List.takeWhile_append_dropWhile
  unfold endsLine at h
  split at h
  case h_1 hDrop =>
    rw [hDrop, List.append_nil] at hSplit
    rw [hSplit] at hBlanks
    exact Or.inl hBlanks
  case h_2 more hDrop =>
    right
    rcases List.eq_nil_or_concat (cs.takeWhile isBlank) with hNil | ⟨blanks, b, hLast⟩
    · rw [hNil, List.nil_append, hDrop] at hSplit
      rw [← hSplit] at h
      exact absurd h (by simp)
    · rw [List.concat_eq_append] at hLast
      rw [hLast] at hBlanks hSplit
      obtain rfl : b = ' ' := hBlanks b (by simp)
      refine ⟨blanks, more, ?_, fun c hc => hBlanks c (List.mem_append_left _ hc)⟩
      rw [← hSplit, hDrop]
      simp
  case h_3 => cases h

theorem endsLine_of_blanks {cs : List Char} (h : ∀ c ∈ cs, c = ' ') : endsLine cs = true := by
  have hDrop : cs.dropWhile isBlank = [] :=
    List.dropWhile_eq_nil_iff.mpr fun c hc => by rw [h c hc]; rfl
  rw [endsLine, hDrop]

theorem endsLine_of_comment {blanks : List Char} (h : ∀ c ∈ blanks, c = ' ') (more : List Char) :
    endsLine (blanks ++ ' ' :: '#' :: more) = true := by
  have hDrop : (blanks ++ ' ' :: '#' :: more).dropWhile isBlank = '#' :: more := by
    rw [List.dropWhile_append_of_pos fun c hc => by rw [h c hc]; rfl]
    rfl
  rw [endsLine, hDrop]
  cases blanks with
  | nil => rfl
  | cons b blanks =>
      obtain rfl := h b List.mem_cons_self
      rfl

theorem plainText_blanks {cs : List Char} (h : ∀ c ∈ cs, c = ' ') : plainText cs = cs := by
  induction cs with
  | nil => rfl
  | cons c cs ih =>
      rw [plainText, ih fun d hd => h d (List.mem_cons_of_mem _ hd)]
      intro more _ hEq
      rw [hEq] at h
      exact absurd (h '#' (by simp)) (by decide)

theorem plainText_comment {blanks : List Char} (h : ∀ c ∈ blanks, c = ' ') (more : List Char) :
    plainText (blanks ++ ' ' :: '#' :: more) = blanks := by
  induction blanks with
  | nil => rfl
  | cons b blanks ih =>
      rw [List.cons_append, plainText, ih fun d hd => h d (List.mem_cons_of_mem _ hd)]
      intro more' _ hEq
      cases blanks with
      | nil => cases hEq
      | cons d blanks =>
          obtain rfl : d = '#' := (List.cons.inj hEq).1
          exact absurd (h '#' (by simp)) (by decide)

/-- A word is read as itself. -/
theorem readScalar_word {w cs : List Char} (hWord : IsWord w) (h : endsLine cs = true) :
    readScalar (w ++ cs) = some w := by
  obtain ⟨c, rest, rfl, hQuote, hIndicator⟩ := hWord.start
  have hPlain : PyText.rstripBy isBlank (plainText (c :: rest ++ cs)) = c :: rest := by
    have hBlanks : ∀ d ∈ plainText cs, isBlank d = true := by
      rcases endsLine_cases h with hAll | ⟨blanks, more, rfl, hAll⟩
      · rw [plainText_blanks hAll]
        exact fun d hd => by rw [hAll d hd]; rfl
      · rw [plainText_comment hAll]
        exact fun d hd => by rw [hAll d hd]; rfl
    rw [plainText_append (blank_notMem hWord.noSpace)]
    apply PyText.rstripBy_append _ hBlanks
    intro d hd
    cases hBlank : isBlank d with
    | false => rfl
    | true => exact absurd (isSpace_of_isBlank hBlank) (by simp [hWord.noSpace d hd])
  have hSpaces : (c :: rest).all (fun d => !PyText.isSpace d || d == ' ') = true :=
    List.all_eq_true.mpr fun d hd => by rw [hWord.noSpace d hd]; rfl
  rw [List.cons_append] at hPlain
  rw [List.cons_append, readScalar, if_neg (by simp [hQuote]), if_neg (by simp [hIndicator])]
  simp only [hPlain]
  rw [if_pos hSpaces]

/-- What is read as a word without quotes is that word. -/
theorem word_of_readScalar {c : Char} {cs w : List Char} (h : readScalar (c :: cs) = some w)
    (hQuote : isQuote c = false) : ∃ behind, c :: cs = w ++ behind ∧ endsLine behind = true := by
  obtain ⟨rest, hRest, hCut⟩ := plainText_spec (c :: cs)
  obtain ⟨blanks, hText, hBlanks⟩ := PyText.rstripBy_spec isBlank (plainText (c :: cs))
  have hSpaces : ∀ d ∈ blanks, d = ' ' := fun d hd => by simpa [isBlank] using hBlanks d hd
  have hw : PyText.rstripBy isBlank (plainText (c :: cs)) = w := by
    rw [readScalar, if_neg (by simp [hQuote])] at h
    dsimp only at h
    split_ifs at h
    exact Option.some.inj h
  rw [hw] at hText
  refine ⟨blanks ++ rest, ?_, ?_⟩
  · rw [← List.append_assoc, ← hText, ← hRest]
  · rcases hCut with rfl | ⟨more, rfl⟩
    · rw [List.append_nil]
      exact endsLine_of_blanks hSpaces
    · exact endsLine_of_comment hSpaces more

/-- A quoted scalar goes to its closing quote. -/
theorem quoted_of_readScalar {q : Char} {cs v : List Char} (h : readScalar (q :: cs) = some v)
    (hQuote : isQuote q = true) :
    ∃ behind, cs = v ++ q :: behind ∧ endsLine behind = true ∧ q ∉ v := by
  have hSplit : cs.takeWhile (· != q) ++ cs.dropWhile (· != q) = cs :=
    List.takeWhile_append_dropWhile
  rw [readScalar, if_pos hQuote] at h
  split at h
  case h_1 => cases h
  case h_2 d behind hDrop =>
    have hClose : d = q := by
      have hHead := List.head?_dropWhile_not (· != q) cs
      rw [hDrop] at hHead
      simpa using hHead
    split_ifs at h with hEnds
    obtain rfl := Option.some.inj h
    refine ⟨behind, ?_, hEnds.1, fun hMem => ?_⟩
    · rw [← hClose, ← hDrop, hClose, hSplit]
    · have hNe := List.mem_takeWhile_imp hMem
      simp at hNe

/-! ### Where values come from -/

def Mark.value : Mark → Option (List Char)
  | .item => none
  | .key _ value => value
  | .scalar value => some value

theorem nodeAt_value (stack : Stack) (mark : Nat × Mark) :
    (nodeAt stack mark).value = mark.2.value := by
  obtain ⟨col, mark⟩ := mark
  cases mark <;> rfl

theorem mem_of_dropWhile {p : Char → Bool} {cs rest : List Char} (h : cs.dropWhile p = rest)
    {c : Char} (hc : c ∈ rest) : c ∈ cs := by
  rw [← h] at hc
  exact (List.dropWhile_sublist p).mem hc

theorem readScalar_subset {cs v : List Char} (h : readScalar cs = some v) : v ⊆ cs := by
  intro d hd
  cases cs with
  | nil => cases h
  | cons c cs =>
      by_cases hQuote : isQuote c = true
      · obtain ⟨behind, hEq, -, -⟩ := quoted_of_readScalar h hQuote
        rw [hEq]
        exact List.mem_cons_of_mem _ (List.mem_append_left _ hd)
      · obtain ⟨behind, hEq, -⟩ := word_of_readScalar h (by simpa using hQuote)
        rw [hEq]
        exact List.mem_append_left _ hd

theorem readValue_subset {raw v : List Char} (h : readValue raw = some (some v)) : v ⊆ raw := by
  intro d hd
  unfold readValue at h
  split at h
  case h_1 => cases h
  case h_2 => cases h
  case h_3 =>
    obtain ⟨w, hScalar, hEq⟩ := Option.map_eq_some_iff.mp h
    obtain rfl := Option.some.inj hEq
    exact (List.dropWhile_sublist _).mem (readScalar_subset hScalar hd)

theorem splitKey_subset {cs key raw : List Char} (h : splitKey cs = some (key, raw)) :
    raw ⊆ cs := by
  intro d hd
  unfold splitKey at h
  split at h
  case h_1 => cases h
  case h_2 =>
    cases h
    cases hd
  case h_3 hDrop _ =>
    cases h
    exact mem_of_dropWhile hDrop (List.mem_cons_of_mem _ hd)
  case h_4 => cases h

theorem readKey_subset {col : Nat} {cs v : List Char} {mark : Nat × Mark}
    (h : readKey col cs = some mark) (hValue : mark.2.value = some v) : v ⊆ cs := by
  obtain ⟨entry, hKey, h⟩ := Option.bind_eq_some_iff.mp h
  obtain ⟨value, hRead, rfl⟩ := Option.map_eq_some_iff.mp h
  obtain rfl : value = some v := hValue
  exact fun d hd => splitKey_subset hKey (readValue_subset hRead hd)

theorem readContent_subset {col : Nat} {cs v : List Char} {mark : Nat × Mark}
    (h : readContent col cs = some mark) (hValue : mark.2.value = some v) : v ⊆ cs := by
  unfold readContent at h
  split at h
  · exact readKey_subset h hValue
  · obtain ⟨w, hScalar, rfl⟩ := Option.map_eq_some_iff.mp h
    obtain rfl : w = v := Option.some.inj hValue
    exact readScalar_subset hScalar

theorem readBody_subset {col : Nat} {cs v : List Char} {marks : List (Nat × Mark)}
    (h : readBody col cs = some marks) {mark : Nat × Mark} (hMark : mark ∈ marks)
    (hValue : mark.2.value = some v) : v ⊆ cs := by
  have hItem : ∀ {c : Nat}, mark = (c, .item) → v ⊆ cs := by
    rintro c rfl
    cases hValue
  unfold readBody at h
  split at h
  case h_1 =>
    cases h
    cases hMark
  case h_2 =>
    cases h
    cases hMark
  case h_3 =>
    cases h
    exact hItem (List.mem_singleton.mp hMark)
  case h_4 more =>
    split at h
    case h_1 =>
      cases h
      exact hItem (List.mem_singleton.mp hMark)
    case h_2 =>
      cases h
      exact hItem (List.mem_singleton.mp hMark)
    case h_3 =>
      obtain ⟨content, hContent, rfl⟩ := Option.map_eq_some_iff.mp h
      rcases List.mem_cons.mp hMark with hEq | hMark
      · exact hItem hEq
      · rw [List.mem_singleton.mp hMark] at hValue
        intro d hd
        have hMore := (List.dropWhile_sublist _).mem (readContent_subset hContent hValue hd)
        exact List.mem_cons_of_mem _ (List.mem_cons_of_mem _ hMore)
  case h_5 =>
    obtain ⟨key, hKey, rfl⟩ := Option.map_eq_some_iff.mp h
    rw [List.mem_singleton.mp hMark] at hValue
    exact readKey_subset hKey hValue

theorem feed_notMem_value {line v : List Char} {marks : List (Nat × Mark)}
    (h : readLine line = some marks) {mark : Nat × Mark} (hMark : mark ∈ marks)
    (hValue : mark.2.value = some v) : '\n' ∉ v := by
  intro hFeed
  have hBody := (List.dropWhile_sublist _).mem (readBody_subset h hMark hValue hFeed)
  have hNe := List.mem_takeWhile_imp hBody
  simp at hNe

theorem mark_of_mem_listAll {stack : Stack} {marks : List (Nat × Mark)} {node : Node}
    (h : node ∈ listAll stack marks) : ∃ mark ∈ marks, node.value = mark.2.value := by
  induction marks generalizing stack with
  | nil => cases h
  | cons mark marks ih =>
      rcases List.mem_cons.mp h with rfl | h
      · exact ⟨mark, List.mem_cons_self, nodeAt_value _ _⟩
      · obtain ⟨other, hMem, hValue⟩ := ih h
        exact ⟨other, List.mem_cons_of_mem _ hMem, hValue⟩

/-- No value goes over a line end. -/
theorem feed_notMem_document {lines : List (List Char)} {doc : List Node}
    (h : document lines = some doc) {node : Node} (hNode : node ∈ doc) {v : List Char}
    (hValue : node.value = some v) : '\n' ∉ v := by
  obtain ⟨all, hAll, rfl⟩ := Option.map_eq_some_iff.mp h
  obtain ⟨mark, hMark, hSame⟩ := mark_of_mem_listAll hNode
  obtain ⟨marks, hMarks, hIn⟩ := List.mem_flatten.mp hMark
  obtain ⟨line, -, hLine⟩ := (WattPost.mem_mapM hAll).mp hMarks
  exact feed_notMem_value hLine hIn (hSame ▸ hValue)

end BlockYaml
