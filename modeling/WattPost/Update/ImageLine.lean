import WattPost.Lib.BlockYaml
import WattPost.Update.PinTag

/-! An image line of a compose file, as the updater matches it and as YAML reads it. -/
namespace WattPost.Update

open BlockYaml PyText

/-! ### The shape of the line -/

/-- What stands before the reference. -/
def imageHead (col gap : Nat) : List Char :=
  List.replicate col ' ' ++ (imageKey ++ ' ' :: List.replicate gap ' ')

def imageLine (col gap : Nat) (ref behind feed : List Char) : List Char :=
  imageHead col gap ++ (ref ++ (behind ++ feed))

/-- A word that is no comment. -/
structure IsToken (ref : List Char) : Prop where
  ne : ref ≠ []
  noSpace : ∀ c ∈ ref, isSpace c = false
  noHash : '#' ∉ ref

/-- The line ends in at most one line feed. -/
def IsFeed (feed : List Char) : Prop := feed = [] ∨ feed = ['\n']

theorem feed_notMem_of_noSpace {cs : List Char} (h : ∀ c ∈ cs, isSpace c = false) : '\n' ∉ cs :=
  fun hMem => absurd (h _ hMem) (by decide)

theorem feed_notMem_imageHead (col gap : Nat) : '\n' ∉ imageHead col gap := by
  have hKey : '\n' ∉ imageKey := by decide
  simp [imageHead, hKey]

section Shape

variable {col gap : Nat} {ref behind feed : List Char}

theorem isSpace_feed (hFeed : IsFeed feed) : ∀ c ∈ feed, isSpace c = true := by
  rcases hFeed with rfl | rfl
  · exact fun c hc => nomatch hc
  · intro c hc
    obtain rfl := List.mem_singleton.mp hc
    decide

theorem isSpace_replicate (n : Nat) : ∀ c ∈ List.replicate n ' ', isSpace c = true := by
  intro c hc
  obtain rfl := List.eq_of_mem_replicate hc
  decide

theorem takeWhile_spaces {spaces rest : List Char} (h : ∀ c ∈ spaces, isSpace c = true)
    (hRest : ∀ c more, rest = c :: more → isSpace c = false) :
    (spaces ++ rest).takeWhile isSpace = spaces ∧ (spaces ++ rest).dropWhile isSpace = rest := by
  rw [List.takeWhile_append_of_pos h, List.dropWhile_append_of_pos h]
  cases rest with
  | nil => exact ⟨List.append_nil _, rfl⟩
  | cons c more =>
      have hc := hRest c more rfl
      rw [List.takeWhile_cons, List.dropWhile_cons, hc]
      exact ⟨List.append_nil _, rfl⟩

/-! ### What the updater matches -/

/-- Behind the reference the line is matched to its end, which the rewritten line gets back. -/
theorem matchTail_behind (hEnds : endsLine behind = true) (hBehind : '\n' ∉ behind)
    (hFeed : IsFeed feed) :
    ∃ tail, matchTail (behind ++ feed) = some tail ∧
      (if tail.getLast? = some '\n' then tail else tail ++ ['\n']) = behind ++ ['\n'] := by
  have hWhole : (if (behind ++ feed).getLast? = some '\n' then behind ++ feed
      else behind ++ feed ++ ['\n']) = behind ++ ['\n'] := by
    rcases hFeed with rfl | rfl
    · rw [List.append_nil, if_neg fun hLast => hBehind (List.mem_of_getLast? hLast)]
    · rw [if_pos (by simp)]
  rcases endsLine_cases hEnds with hBlanks | ⟨blanks, more, rfl, hBlanks⟩
  · refine ⟨behind ++ feed, ?_, hWhole⟩
    have hDrop : (behind ++ feed).dropWhile isSpace = [] := by
      rw [List.dropWhile_eq_nil_iff]
      intro c hc
      rcases List.mem_append.mp hc with hc | hc
      · rw [hBlanks c hc]
        decide
      · exact isSpace_feed hFeed c hc
    rw [matchTail, hDrop]
  · have hSpaces : ∀ c ∈ blanks ++ [' '], isSpace c = true := by
      intro c hc
      rcases List.mem_append.mp hc with hc | hc
      · rw [hBlanks c hc]
        decide
      · rw [List.mem_singleton.mp hc]
        decide
    have hHash : ∀ c rest, '#' :: (more ++ feed) = c :: rest → isSpace c = false := by
      rintro c rest hEq
      obtain rfl := (List.cons.inj hEq).1
      decide
    have hEq : blanks ++ ' ' :: '#' :: more ++ feed = blanks ++ [' '] ++ '#' :: (more ++ feed) := by
      simp
    obtain ⟨hTake, hDrop⟩ := takeWhile_spaces hSpaces hHash
    have hMore : ∀ c ∈ more, (c != '\n') = true :=
      bne_of_notMem fun hMem => hBehind (by simp [hMem])
    rcases hFeed with rfl | rfl
    · refine ⟨_, ?_, hWhole⟩
      have hAll : more.dropWhile (· != '\n') = [] := List.dropWhile_eq_nil_iff.mpr hMore
      rw [matchTail, hEq, hDrop]
      simp only [List.append_nil, hAll]
    · refine ⟨blanks ++ ' ' :: '#' :: more, ?_, ?_⟩
      · have hRest : (more ++ ['\n']).dropWhile (· != '\n') = ['\n'] := by
          rw [List.dropWhile_append_of_pos hMore]
          rfl
        have hText : (more ++ ['\n']).takeWhile (· != '\n') = more := by
          rw [List.takeWhile_append_of_pos hMore]
          simp
        rw [matchTail, hEq, hTake, hDrop]
        simp only [hRest, hText]
        simp
      · rw [if_neg fun hLast => hBehind (List.mem_of_getLast? hLast)]

theorem matchTail_none {c : Char} (hSpace : isSpace c = false) (hHash : c ≠ '#')
    (cs : List Char) : matchTail (c :: cs) = none := by
  have hDrop : (c :: cs).dropWhile isSpace = c :: cs := by rw [List.dropWhile_cons, hSpace]; rfl
  unfold matchTail
  rw [hDrop]
  split
  case h_1 hNil => cases hNil
  case h_2 hCons => exact absurd (List.cons.inj hCons).1 hHash
  case h_3 => rfl

theorem matchRef_token {cs tail : List Char} (hRef : IsToken ref)
    (hTail : matchTail cs = some tail) : matchRef (ref ++ cs) = some (ref, tail) := by
  obtain ⟨hNe, hSpace, hHash⟩ := hRef
  induction ref with
  | nil => exact absurd rfl hNe
  | cons c ref ih =>
      rw [List.mem_cons, not_or] at hHash
      have hRest : ∀ d ∈ ref, isSpace d = false := fun d hd => hSpace d (List.mem_cons_of_mem _ hd)
      rw [List.cons_append, matchRef, if_neg (by simp [hSpace c List.mem_cons_self])]
      cases ref with
      | nil => rw [List.nil_append, hTail]
      | cons d ref =>
          have hHashD : d ≠ '#' := fun hEq => hHash.2 (by simp [hEq])
          have hNone := matchTail_none (hRest d List.mem_cons_self) hHashD (ref ++ cs)
          rw [List.cons_append] at ih ⊢
          rw [hNone, ih (List.cons_ne_nil _ _) hRest hHash.2]
          rfl

theorem IsToken.start (h : IsToken ref) (rest : List Char) :
    ∀ c more, ref ++ rest = c :: more → isSpace c = false := by
  intro c more hEq
  cases hRef : ref with
  | nil => exact absurd hRef h.ne
  | cons d ds =>
      rw [hRef, List.cons_append] at hEq
      obtain rfl := (List.cons.inj hEq).1
      exact h.noSpace d (hRef ▸ List.mem_cons_self)

theorem imageLine_split :
    (imageLine col gap ref behind feed).takeWhile isSpace = List.replicate col ' ' ∧
      (imageLine col gap ref behind feed).dropWhile isSpace =
        imageKey ++ (' ' :: List.replicate gap ' ' ++ (ref ++ (behind ++ feed))) := by
  have hKey : ∀ c more, imageKey ++ (' ' :: List.replicate gap ' ' ++ (ref ++ (behind ++ feed))) =
      c :: more → isSpace c = false := by
    intro c more hEq
    obtain rfl : 'i' = c := (List.cons.inj hEq).1
    decide
  have hSplit := takeWhile_spaces (isSpace_replicate col) hKey
  rw [imageLine, imageHead]
  simpa only [List.append_assoc] using hSplit

theorem indentOf_imageLine : indentOf (imageLine col gap ref behind feed) = col := by
  rw [indentOf, imageLine_split.1, List.length_replicate]

/-- The updater matches the line, and rewrites nothing of it but its reference. -/
theorem matchImage_imageLine (gap : Nat) (hCol : 0 < col) (hRef : IsToken ref)
    (hEnds : endsLine behind = true) (hBehind : '\n' ∉ behind) (hFeed : IsFeed feed) :
    ∃ m, matchImage (imageLine col gap ref behind feed) = some m ∧ m.ref = ref ∧
      ∀ version, m.rewrite version =
        imageLine col gap (newRef version ref) behind ['\n'] := by
  obtain ⟨tail, hTail, hEnd⟩ := matchTail_behind hEnds hBehind hFeed
  have hSpaces : ∀ c ∈ ' ' :: List.replicate gap ' ', isSpace c = true :=
    isSpace_replicate (gap + 1)
  obtain ⟨hGap, hRest⟩ := takeWhile_spaces hSpaces (hRef.start (behind ++ feed))
  have hIndent : List.replicate col ' ' ≠ [] := by
    intro hNil
    rw [List.replicate_eq_nil_iff] at hNil
    omega
  refine ⟨{ head := imageHead col gap, ref := ref, tail := tail }, ?_, rfl, fun version => ?_⟩
  · unfold matchImage
    dsimp only
    rw [imageLine_split.1, imageLine_split.2, if_pos ⟨hIndent, List.prefix_append _ _⟩,
      List.drop_left, hGap, hRest, matchRef_token hRef hTail, Option.map_some, imageHead,
      List.append_assoc]
  · rw [imageLine, ← hEnd, ImageLine.rewrite]
    dsimp only
    split_ifs
    · rw [List.append_assoc]
    · simp only [List.append_assoc]

/-! ### What YAML reads -/

theorem readLine_body {body : List Char} (hBody : '\n' ∉ body) (hFeed : IsFeed feed) :
    readLine (body ++ feed) =
      readBody (body.takeWhile isBlank).length (body.dropWhile isBlank) := by
  have hTake : (body ++ feed).takeWhile (· != '\n') = body := by
    rw [List.takeWhile_append_of_pos (bne_of_notMem hBody)]
    rcases hFeed with rfl | rfl <;> simp
  rw [readLine, hTake]

theorem isSpace_of_isKeyChar {c : Char} (h : isKeyChar c = true) : isSpace c = false := by
  simp only [isKeyChar, Bool.or_eq_true, decide_eq_true_eq] at h
  rcases h with (((hWord | rfl) | rfl) | rfl) | rfl
  · have hRange := alphanum_range hWord
    exact isSpace_of_range (by omega)
  · decide
  · decide
  · decide
  · decide

/-- A line that goes on with another blank than a space is not read. -/
theorem readBody_space {c : Char} (hSpace : isSpace c = true) (col : Nat) (cs : List Char) :
    readBody col (c :: cs) = none := by
  have hKeyChar : isKeyChar c = false := by
    cases hKey : isKeyChar c with
    | false => rfl
    | true => exact absurd hSpace (by simp [isSpace_of_isKeyChar hKey])
  have hKey : splitKey (c :: cs) = none := by
    have hTake : (c :: cs).takeWhile isKeyChar = [] := by rw [List.takeWhile_cons, hKeyChar]; rfl
    rw [splitKey, hTake]
  have hRead : readKey col (c :: cs) = none := by rw [readKey, hKey, Option.bind_none]
  unfold readBody
  split
  case h_1 hNil => cases hNil
  case h_2 hHash =>
    obtain rfl := (List.cons.inj hHash).1
    exact absurd hSpace (by decide)
  case h_3 hDash =>
    obtain rfl := (List.cons.inj hDash).1
    exact absurd hSpace (by decide)
  case h_4 hDash =>
    obtain rfl := (List.cons.inj hDash).1
    exact absurd hSpace (by decide)
  case h_5 => rw [hRead, Option.map_none]

theorem splitKey_image (more : List Char) :
    splitKey (imageKey ++ more) =
      match more with
      | [] => some ("image".toList, [])
      | ' ' :: raw => some ("image".toList, ' ' :: raw)
      | _ => none := by
  have hTake : (imageKey ++ more).takeWhile isKeyChar = "image".toList := rfl
  have hDrop : (imageKey ++ more).dropWhile isKeyChar = ':' :: more := rfl
  unfold splitKey
  rw [hTake, hDrop]
  cases more with
  | nil => rfl
  | cons d ds =>
      by_cases hSpace : d = ' '
      · subst hSpace
        rfl
      · simp [hSpace]

theorem readBody_image (col : Nat) (more : List Char) :
    readBody col (imageKey ++ more) = (readKey col (imageKey ++ more)).map fun mark => [mark] := rfl

theorem isBlank_replicate (n : Nat) : ∀ c ∈ List.replicate n ' ', isBlank c = true := by
  intro c hc
  obtain rfl := List.eq_of_mem_replicate hc
  rfl

theorem readValue_gap {c : Char} (hBlank : isBlank c = false) (hHash : c ≠ '#') (gap : Nat)
    (cs : List Char) :
    readValue (List.replicate gap ' ' ++ c :: cs) = (readScalar (c :: cs)).map some := by
  have hDrop : (List.replicate gap ' ' ++ c :: cs).dropWhile isBlank = c :: cs := by
    rw [List.dropWhile_append_of_pos (isBlank_replicate gap), List.dropWhile_cons, hBlank]
    rfl
  unfold readValue
  rw [hDrop]
  split
  case h_1 hNil => cases hNil
  case h_2 hCons => exact absurd (List.cons.inj hCons).1 hHash
  case h_3 => rfl

/-- YAML reads the line as the image key with the scalar that stands behind it. -/
theorem readLine_imageLine (col gap : Nat) (hRef : IsToken ref) (hBehind : '\n' ∉ behind)
    (hFeed : IsFeed feed) :
    readLine (imageLine col gap ref behind feed) =
      (readScalar (ref ++ behind)).map fun v => [(col, .key "image".toList (some v))] := by
  obtain ⟨c, cs, rfl⟩ := List.exists_cons_of_ne_nil hRef.ne
  have hSpace : isSpace c = false := hRef.noSpace c List.mem_cons_self
  have hBlank : isBlank c = false := by
    cases h : isBlank c with
    | false => rfl
    | true => exact absurd (isSpace_of_isBlank h) (by simp [hSpace])
  have hHash : c ≠ '#' := fun hEq => hRef.noHash (by simp [hEq])
  have hBody : '\n' ∉ imageHead col gap ++ (c :: cs ++ behind) := by
    rw [List.mem_append, List.mem_append, not_or, not_or]
    exact ⟨feed_notMem_imageHead col gap, feed_notMem_of_noSpace hRef.noSpace, hBehind⟩
  have hLine : imageLine col gap (c :: cs) behind feed =
      imageHead col gap ++ (c :: cs ++ behind) ++ feed := by
    simp only [imageLine, List.append_assoc]
  have hSplit : imageHead col gap ++ (c :: cs ++ behind) = List.replicate col ' ' ++
      (imageKey ++ (' ' :: (List.replicate gap ' ' ++ c :: (cs ++ behind)))) := by
    simp [imageHead]
  have hDrop : (List.replicate col ' ' ++
      (imageKey ++ (' ' :: (List.replicate gap ' ' ++ c :: (cs ++ behind))))).dropWhile isBlank =
        imageKey ++ (' ' :: (List.replicate gap ' ' ++ c :: (cs ++ behind))) := by
    rw [List.dropWhile_append_of_pos (isBlank_replicate col)]
    rfl
  have hTake : (List.replicate col ' ' ++
      (imageKey ++ (' ' :: (List.replicate gap ' ' ++ c :: (cs ++ behind))))).takeWhile isBlank =
        List.replicate col ' ' := by
    rw [List.takeWhile_append_of_pos (isBlank_replicate col)]
    exact List.append_nil _
  rw [hLine, readLine_body hBody hFeed, hSplit, hDrop, hTake, List.length_replicate,
    readBody_image, readKey, splitKey_image]
  simp only [Option.bind_some]
  rw [show ' ' :: (List.replicate gap ' ' ++ c :: (cs ++ behind)) =
      List.replicate (gap + 1) ' ' ++ c :: (cs ++ behind) from rfl,
    readValue_gap hBlank hHash, List.cons_append, Option.map_map, Option.map_map]
  rfl

end Shape

/-! ### References -/

def isRefChar (c : Char) : Bool :=
  c.isAlphanum || c = '.' || c = '/' || c = ':' || c = '_' || c = '@' || c = '-'

/-- The characters of an image reference. -/
structure IsReference (v : List Char) : Prop where
  chars : ∀ c ∈ v, isRefChar c = true
  start : ∃ c rest, v = c :: rest ∧ c.isAlphanum = true

/-- A value stands in the line as it is, or in quotes. -/
inductive Written (v : List Char) : List Char → Prop where
  | plain : Written v v
  | quoted {q : Char} (hQuote : isQuote q = true) : Written v (q :: (v ++ [q]))

theorem Written.eq_or {v ref : List Char} (h : Written v ref) :
    ref = v ∨ ∃ q, isQuote q = true ∧ ref = q :: (v ++ [q]) := by
  cases h with
  | plain => exact Or.inl rfl
  | @quoted q hQuote => exact Or.inr ⟨q, hQuote, rfl⟩

theorem refChar_range {c : Char} (h : isRefChar c = true) : 45 ≤ c.toNat ∧ c.toNat ≤ 122 := by
  simp only [isRefChar, Bool.or_eq_true, decide_eq_true_eq] at h
  rcases h with (((((hWord | rfl) | rfl) | rfl) | rfl) | rfl) | rfl
  · have hRange := alphanum_range hWord
    omega
  · decide
  · decide
  · decide
  · decide
  · decide
  · decide

theorem notMem_of_range {cs : List Char} (h : ∀ c ∈ cs, isRefChar c = true) {d : Char}
    (hd : d.toNat < 45) : d ∉ cs := by
  intro hMem
  have hRange := refChar_range (h d hMem)
  omega

theorem IsReference.isToken {v : List Char} (h : IsReference v) : IsToken v where
  ne := by
    obtain ⟨c, rest, rfl, -⟩ := h.start
    exact List.cons_ne_nil _ _
  noSpace := fun c hc => isSpace_of_range (refChar_range (h.chars c hc))
  noHash := notMem_of_range h.chars (by decide)

theorem quote_range {q : Char} (h : isQuote q = true) : q.toNat < 45 := by
  simp only [isQuote, Bool.or_eq_true, beq_iff_eq] at h
  rcases h with rfl | rfl <;> decide

theorem Written.isToken {v ref : List Char} (h : Written v ref) (hv : IsReference v) :
    IsToken ref := by
  have hToken := hv.isToken
  cases h with
  | plain => exact hToken
  | @quoted q hQuote =>
      have hRange := quote_range hQuote
      have hChar : isSpace q = false ∧ q ≠ '#' := by
        simp only [isQuote, Bool.or_eq_true, beq_iff_eq] at hQuote
        rcases hQuote with rfl | rfl <;> decide
      refine ⟨List.cons_ne_nil _ _, fun c hc => ?_, ?_⟩
      · simp only [List.mem_cons, List.mem_append, List.not_mem_nil, or_false] at hc
        rcases hc with rfl | hc | rfl
        · exact hChar.1
        · exact hToken.noSpace c hc
        · exact hChar.1
      · simp only [List.mem_cons, List.mem_append, List.not_mem_nil, or_false, not_or]
        exact ⟨hChar.2.symm, hToken.noHash, hChar.2.symm⟩

/-- What is read as a reference is written with or without quotes. -/
theorem written_of_readScalar {cs v : List Char} (h : readScalar cs = some v) :
    ∃ ref behind, cs = ref ++ behind ∧ Written v ref ∧ endsLine behind = true := by
  cases cs with
  | nil => cases h
  | cons c cs =>
      cases hQuote : isQuote c with
      | true =>
          obtain ⟨behind, rfl, hEnds, -⟩ := quoted_of_readScalar h hQuote
          exact ⟨c :: (v ++ [c]), behind, by simp, .quoted hQuote, hEnds⟩
      | false =>
          obtain ⟨behind, hEq, hEnds⟩ := word_of_readScalar h hQuote
          exact ⟨v, behind, hEq, .plain, hEnds⟩

/-- The line of an image, as the updater finds it in a compose file. -/
structure IsImageLine (ln : List Char) (m : ImageLine) (col gap : Nat) (v behind feed : List Char) :
    Prop where
  line : ln = imageLine col gap m.ref behind feed
  indented : 0 < col
  isReference : IsReference v
  written : Written v m.ref
  ends : endsLine behind = true
  behindFeed : '\n' ∉ behind
  isFeed : IsFeed feed

theorem replicate_takeWhile_isBlank (cs : List Char) :
    cs.takeWhile isBlank = List.replicate (cs.takeWhile isBlank).length ' ' :=
  List.eq_replicate_of_mem fun c hc => by simpa [isBlank] using List.mem_takeWhile_imp hc

/-- The indentation of a line that is matched and read is one of spaces. -/
theorem imageKey_of_match {body feed : List Char} {m : ImageLine} {ms : List (Nat × Mark)}
    (hBody : '\n' ∉ body) (hFeed : IsFeed feed) (hMatch : matchImage (body ++ feed) = some m)
    (hRead : readLine (body ++ feed) = some ms) :
    ∃ col more, 0 < col ∧ body = List.replicate col ' ' ++ (imageKey ++ more) ∧
      readBody col (imageKey ++ more) = some ms := by
  have hSplit : body.takeWhile isBlank ++ body.dropWhile isBlank = body :=
    List.takeWhile_append_dropWhile
  rw [readLine_body hBody hFeed] at hRead
  rw [replicate_takeWhile_isBlank] at hSplit
  generalize hCol : (body.takeWhile isBlank).length = col at hRead hSplit
  unfold matchImage at hMatch
  dsimp only at hMatch
  split_ifs at hMatch with hImage
  obtain ⟨hIndent, hPrefix⟩ := hImage
  cases hRest : body.dropWhile isBlank with
  | nil =>
      rw [hRest, List.append_nil] at hSplit
      have hAll : (body ++ feed).dropWhile isSpace = [] := by
        rw [← hSplit, List.dropWhile_eq_nil_iff]
        intro c hc
        rcases List.mem_append.mp hc with hc | hc
        · exact isSpace_replicate col c hc
        · exact isSpace_feed hFeed c hc
      rw [hAll] at hPrefix
      exact absurd (List.prefix_nil.mp hPrefix) (by decide)
  | cons c rest =>
      rw [hRest] at hRead hSplit
      have hSpace : isSpace c = false := by
        cases h : isSpace c with
        | false => rfl
        | true => rw [readBody_space h] at hRead; cases hRead
      have hStart : ∀ d more, c :: rest ++ feed = d :: more → isSpace d = false := by
        rintro d more hEq
        obtain rfl := (List.cons.inj hEq).1
        exact hSpace
      have hLine : body ++ feed = List.replicate col ' ' ++ (c :: rest ++ feed) := by
        rw [← List.append_assoc, hSplit]
      obtain ⟨hTake, hDrop⟩ := takeWhile_spaces (isSpace_replicate col) hStart
      rw [hLine, hTake] at hIndent
      rw [hLine, hDrop] at hPrefix
      have hKey : imageKey <+: c :: rest := by
        rcases hFeed with rfl | rfl
        · rwa [List.append_nil] at hPrefix
        · rcases List.prefix_concat_iff.mp hPrefix with hEq | hKey
          · have hFeedKey : '\n' ∈ imageKey := by
              rw [hEq]
              exact List.mem_append_right _ (List.mem_singleton.mpr rfl)
            exact absurd hFeedKey (by decide)
          · exact hKey
      obtain ⟨more, hMore⟩ := hKey
      refine ⟨col, more, Nat.pos_of_ne_zero fun hZero => hIndent (by rw [hZero]; rfl), ?_, ?_⟩
      · rw [hMore, hSplit]
      · rw [hMore]
        exact hRead

theorem readScalar_of_readValue {raw v : List Char} (h : readValue (' ' :: raw) = some (some v)) :
    ∃ cs, readScalar cs = some v ∧ ∃ gap, ' ' :: raw = List.replicate (gap + 1) ' ' ++ cs := by
  have hSplit : (' ' :: raw).takeWhile isBlank ++ (' ' :: raw).dropWhile isBlank = ' ' :: raw :=
    List.takeWhile_append_dropWhile
  have hFirst : (' ' :: raw).takeWhile isBlank = ' ' :: raw.takeWhile isBlank := rfl
  unfold readValue at h
  split at h
  case h_1 => cases h
  case h_2 => cases h
  case h_3 =>
    obtain ⟨w, hScalar, hEq⟩ := Option.map_eq_some_iff.mp h
    obtain rfl := Option.some.inj hEq
    refine ⟨_, hScalar, (raw.takeWhile isBlank).length, ?_⟩
    rw [List.replicate_succ, ← replicate_takeWhile_isBlank raw, ← hFirst, hSplit]

theorem isImageLine_of_match {body feed : List Char} {m : ImageLine} {ms : List (Nat × Mark)}
    (hBody : '\n' ∉ body) (hFeed : IsFeed feed) (hMatch : matchImage (body ++ feed) = some m)
    (hRead : readLine (body ++ feed) = some ms)
    (hValue : ∀ col value, ms = [(col, .key "image".toList value)] →
      ∃ v, value = some v ∧ IsReference v) :
    ∃ col gap v behind, ms = [(col, .key "image".toList (some v))] ∧
      IsImageLine (body ++ feed) m col gap v behind feed := by
  obtain ⟨col, more, hCol, rfl, hKey⟩ := imageKey_of_match hBody hFeed hMatch hRead
  rw [readBody_image, readKey, splitKey_image] at hKey
  split at hKey
  case h_1 =>
    obtain rfl : [(col, Mark.key "image".toList none)] = ms := Option.some.inj hKey
    obtain ⟨v, hNone, -⟩ := hValue col none rfl
    cases hNone
  case h_2 raw =>
    rw [Option.bind_some, Option.map_map] at hKey
    obtain ⟨value, hScalar, rfl⟩ := Option.map_eq_some_iff.mp hKey
    obtain ⟨v, rfl, hReference⟩ := hValue col value rfl
    obtain ⟨cs, hCs, hRaw⟩ := readScalar_of_readValue hScalar
    obtain ⟨ref, behind, rfl, hWritten, hEnds⟩ := written_of_readScalar hCs
    obtain ⟨gap, hGap⟩ := hRaw
    have hToken := hWritten.isToken hReference
    have hBehind : '\n' ∉ behind := by
      intro hMem
      apply hBody
      rw [hGap]
      simp [hMem]
    have hLine : List.replicate col ' ' ++ (imageKey ++ ' ' :: raw) ++ feed =
        imageLine col gap ref behind feed := by
      rw [hGap, imageLine, imageHead, List.replicate_succ]
      simp only [List.append_assoc, List.cons_append]
    rw [hLine] at hMatch ⊢
    obtain ⟨m', hSame, hRef, -⟩ := matchImage_imageLine gap hCol hToken hEnds hBehind hFeed
    obtain rfl : m' = m := Option.some.inj (hSame.symm.trans hMatch)
    exact ⟨col, gap, v, behind, rfl, hRef ▸ rfl, hCol, hReference, hRef ▸ hWritten, hEnds, hBehind,
      hFeed⟩
  case h_3 => cases hKey

/-! ### The line in the loop -/

section Loop

variable {col gap : Nat} {ref behind feed : List Char}

theorem isHeader_imageLine {name : List Char} (hName : ':' ∉ name) (hRef : IsToken ref) :
    isHeader name (imageLine col gap ref behind feed) = false := by
  obtain ⟨c, cs, rfl⟩ := List.exists_cons_of_ne_nil hRef.ne
  unfold isHeader
  dsimp only
  rw [imageLine_split.2]
  cases hPrefix : (name ++ [':']).isPrefixOf
      (imageKey ++ (' ' :: List.replicate gap ' ' ++ (c :: cs ++ (behind ++ feed)))) with
  | false => rw [Bool.and_false, Bool.false_and]
  | true =>
      -- the name before the colon is `image`, and the reference comes behind it
      obtain ⟨rest, hEq⟩ := List.isPrefixOf_iff_prefix.mp hPrefix
      have hKey : imageKey = "image".toList ++ [':'] := by decide
      have hNoColon : ':' ∉ "image".toList := by decide
      rw [hKey, List.append_assoc, List.append_assoc, List.singleton_append,
        List.singleton_append] at hEq
      have hPieces := congrArg (splitChars ':') hEq
      rw [splitChars_append_sep hName, splitChars_append_sep hNoColon] at hPieces
      obtain rfl := (List.cons.inj hPieces).1
      have hBad : (' ' :: List.replicate gap ' ' ++ (c :: cs ++ (behind ++ feed))).all isSpace =
          false := by
        rw [List.all_eq_false]
        exact ⟨c, by simp, by simp [hRef.noSpace c List.mem_cons_self]⟩
      have hDrop : ∀ more, (imageKey ++ more).drop ("image".toList.length + 1) = more :=
        fun _ => rfl
      rw [hDrop, hBad, Bool.and_false]

theorem isPrefixOf_imageHead (n col gap : Nat) (rest : List Char) :
    (List.replicate n ' ').isPrefixOf (imageHead col gap ++ rest) = decide (n ≤ col) := by
  rw [imageHead, List.append_assoc]
  induction n generalizing col with
  | zero => simp
  | succ n ih =>
      cases col with
      | zero => rfl
      | succ col =>
          rw [List.replicate_succ, List.replicate_succ, List.cons_append, List.isPrefixOf_cons_cons,
            ih col]
          simp

theorem bails_imageLine (k : Nat) (hRef : IsToken ref) (hBehind : '\n' ∉ behind)
    (hFeed : IsFeed feed) :
    bails k (imageLine col gap ref behind feed) =
      (!decide (k + 2 ≤ col) && decide (k ≤ col) && (ref ++ behind).getLast? == some ':') := by
  have hBody : ∀ c ∈ imageHead col gap ++ (ref ++ behind), (c == '\n') = false := by
    intro c hc
    have hNe : c ≠ '\n' := by
      rintro rfl
      rcases List.mem_append.mp hc with hc | hc
      · exact feed_notMem_imageHead col gap hc
      · rcases List.mem_append.mp hc with hc | hc
        · exact feed_notMem_of_noSpace hRef.noSpace hc
        · exact hBehind hc
    simpa using hNe
  have hEnd : ∀ c ∈ feed, (c == '\n') = true := by
    rcases hFeed with rfl | rfl
    · exact fun c hc => nomatch hc
    · exact fun c hc => by rw [List.mem_singleton.mp hc]; rfl
  have hStrip : rstripBy (· == '\n') (imageLine col gap ref behind feed) =
      imageHead col gap ++ (ref ++ behind) := by
    rw [imageLine, ← List.append_assoc ref, ← List.append_assoc, rstripBy_append hBody hEnd]
  have hEmpty : (imageHead col gap ++ (ref ++ behind)).isEmpty = false := by
    cases hHead : imageHead col gap with
    | nil => simp [imageHead] at hHead
    | cons c cs => rfl
  have hLast : (imageHead col gap ++ (ref ++ behind)).getLast? = (ref ++ behind).getLast? :=
    List.getLast?_append_of_ne_nil _ (by simp [hRef.ne])
  rw [bails, hStrip, hEmpty, isPrefixOf_imageHead, isPrefixOf_imageHead, hLast]
  rfl

/-- The rewritten line ends the service only where the line did. -/
theorem bails_rewritten {k : Nat} {ref' : List Char} (hRef : IsToken ref) (hRef' : IsToken ref')
    (hBehind : '\n' ∉ behind) (hFeed : IsFeed feed) (hLast : ref'.getLast? ≠ some ':')
    (h : bails k (imageLine col gap ref behind feed) = false) :
    bails k (imageLine col gap ref' behind ['\n']) = false := by
  rw [bails_imageLine k hRef hBehind hFeed] at h
  rw [bails_imageLine k hRef' hBehind (Or.inr rfl)]
  cases behind with
  | nil =>
      rw [List.append_nil] at h ⊢
      simp [hLast]
  | cons c cs => simpa using h

end Loop

end WattPost.Update
