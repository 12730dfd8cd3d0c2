import WattPost.Update.ImageLine

/-! Image references with another tag. The updater cuts a reference at its last colon, which
begins its tag only if no slash comes behind it: else it is the port of the registry. -/
namespace WattPost.Update

open BlockYaml PyText

/-! ### Repositories -/

/-- A reference without its digest. -/
def nameOf (ref : List Char) : List Char := ref.takeWhile (· != '@')

/-- The repository that a reference names. The tag begins at a colon behind the last slash. -/
def repository (ref : List Char) : List Char :=
  match (nameOf ref).reverse.dropWhile (fun c => c != ':' && c != '/') with
  | ':' :: more => more.reverse
  | _ => nameOf ref

/-- The same repository with another tag. -/
def retag (version ref : List Char) : List Char := repository ref ++ ':' :: version

/-- The last colon of the reference belongs to the port of the registry. -/
def PortOnly (ref : List Char) : Prop :=
  ∃ host rest, nameOf ref = host ++ ':' :: rest ∧ ':' ∉ rest ∧ '/' ∈ rest

theorem last_split {c : Char} {cs : List Char} (h : c ∈ cs) :
    ∃ before behind, cs = before ++ c :: behind ∧ c ∉ behind := by
  obtain ⟨xs, ys, hEq, hNot⟩ := List.eq_append_cons_of_mem (List.mem_reverse.mpr h)
  refine ⟨ys.reverse, xs.reverse, ?_, fun hMem => hNot (List.mem_reverse.mp hMem)⟩
  rw [← List.reverse_reverse cs, hEq]
  simp

theorem rsplitColon_append {host rest : List Char} (h : ':' ∉ rest) :
    rsplitColon (host ++ ':' :: rest) = host := by
  have hRest : ':' ∉ rest.reverse := fun hMem => h (List.mem_reverse.mp hMem)
  have hDrop : (host ++ ':' :: rest).reverse.dropWhile (· != ':') = ':' :: host.reverse := by
    rw [List.reverse_append, List.reverse_cons, List.append_assoc]
    exact (takeWhile_sep hRest host.reverse).2
  rw [rsplitColon, hDrop]
  exact List.reverse_reverse host

theorem rsplitColon_of_notMem {cs : List Char} (h : ':' ∉ cs) : rsplitColon cs = cs := by
  have hDrop : cs.reverse.dropWhile (· != ':') = [] := by
    rw [List.dropWhile_eq_nil_iff]
    exact bne_of_notMem fun hMem => h (List.mem_reverse.mp hMem)
  rw [rsplitColon, hDrop]

theorem nameOf_of_notMem {ref : List Char} (h : '@' ∉ ref) : nameOf ref = ref := by
  rw [nameOf, List.takeWhile_eq_self_iff]
  exact bne_of_notMem h

theorem at_notMem_nameOf (ref : List Char) : '@' ∉ nameOf ref := by
  intro hMem
  have hNe := List.mem_takeWhile_imp hMem
  simp at hNe

theorem repoOf_eq (ref : List Char) : repoOf ref = rsplitColon (nameOf ref) := by
  unfold repoOf
  split_ifs with hAt hColon
  · rfl
  · rw [nameOf_of_notMem hAt]
  · rw [nameOf_of_notMem hAt, rsplitColon_of_notMem hColon]

theorem rsplitColon_start (cs : List Char) : rsplitColon cs <+: cs := by
  by_cases h : ':' ∈ cs
  · obtain ⟨host, rest, rfl, hRest⟩ := last_split h
    rw [rsplitColon_append hRest]
    exact List.prefix_append _ _
  · rw [rsplitColon_of_notMem h]

theorem repoOf_start (ref : List Char) : repoOf ref <+: ref := by
  rw [repoOf_eq]
  exact (rsplitColon_start _).trans (List.takeWhile_prefix _)

/-- What is cut off is not at the beginning. -/
theorem repoOf_cons {c : Char} (hColon : c ≠ ':') (hAt : c ≠ '@') (cs : List Char) :
    ∃ more, repoOf (c :: cs) = c :: more ∧ more <+: cs := by
  have hPrefix := repoOf_start (c :: cs)
  have hName : nameOf (c :: cs) = c :: nameOf cs := by
    rw [nameOf, List.takeWhile_cons, if_pos (by simpa using hAt)]
    rfl
  cases hRepo : repoOf (c :: cs) with
  | nil =>
      rw [repoOf_eq, hName] at hRepo
      by_cases h : ':' ∈ c :: nameOf cs
      · obtain ⟨host, rest, hEq, hRest⟩ := last_split h
        rw [hEq, rsplitColon_append hRest] at hRepo
        rw [hRepo] at hEq
        exact absurd (List.cons.inj hEq).1 hColon
      · rw [rsplitColon_of_notMem h] at hRepo
        cases hRepo
  | cons d more =>
      rw [hRepo, List.cons_prefix_cons] at hPrefix
      exact ⟨more, by rw [hPrefix.1], hPrefix.2⟩

theorem repository_subset (ref : List Char) : repository ref ⊆ ref := by
  intro c hc
  have hName : ∀ d ∈ nameOf ref, d ∈ ref := fun d hd => (List.takeWhile_sublist _).mem hd
  unfold repository at hc
  split at hc
  case h_1 more hDrop =>
    have hMem : c ∈ (nameOf ref).reverse := by
      apply (List.dropWhile_sublist _).mem
      rw [hDrop]
      exact List.mem_cons_of_mem _ (List.mem_reverse.mp hc)
    exact hName c (List.mem_reverse.mp hMem)
  case h_2 => exact hName c hc

/-- A name is cut at its last colon or slash. -/
theorem dropWhile_mark {host rest : List Char} {mark : Char} (hMark : mark = ':' ∨ mark = '/')
    (hColon : ':' ∉ rest) (hSlash : '/' ∉ rest) :
    (host ++ mark :: rest).reverse.dropWhile (fun c => c != ':' && c != '/') =
      mark :: host.reverse := by
  have hAll : ∀ c ∈ rest.reverse, (c != ':' && c != '/') = true := by
    intro c hc
    have hMem := List.mem_reverse.mp hc
    rw [Bool.and_eq_true]
    exact ⟨bne_of_notMem hColon c hMem, bne_of_notMem hSlash c hMem⟩
  rw [List.reverse_append, List.reverse_cons, List.append_assoc,
    List.dropWhile_append_of_pos hAll]
  rcases hMark with rfl | rfl <;> rfl

/-- The updater keeps the repository unless the last colon is that of a port. -/
theorem repoOf_eq_repository {ref : List Char} (h : ¬ PortOnly ref) :
    repoOf ref = repository ref := by
  rw [repoOf_eq]
  unfold repository
  by_cases hColon : ':' ∈ nameOf ref
  · obtain ⟨host, rest, hEq, hRest⟩ := last_split hColon
    have hSlash : '/' ∉ rest := fun hMem => h ⟨host, rest, hEq, hRest, hMem⟩
    rw [hEq, dropWhile_mark (Or.inl rfl) hRest hSlash, rsplitColon_append hRest]
    exact (List.reverse_reverse host).symm
  · rw [rsplitColon_of_notMem hColon]
    split
    case h_1 more hDrop =>
      have hMem : ':' ∈ (nameOf ref).reverse := by
        apply (List.dropWhile_sublist _).mem
        rw [hDrop]
        exact List.mem_cons_self
      exact absurd (List.mem_reverse.mp hMem) hColon
    case h_2 => rfl

/-- A port is cut off, and with it the repository. -/
theorem repoOf_ne_repository {ref : List Char} (h : PortOnly ref) :
    repoOf ref ≠ repository ref := by
  obtain ⟨host, rest, hEq, hRest, hSlash⟩ := h
  obtain ⟨dir, last, rfl, hNoSlash⟩ := last_split hSlash
  have hNoColon : ':' ∉ last := fun hMem => hRest (by simp [hMem])
  have hName : nameOf ref = host ++ ':' :: dir ++ '/' :: last := by
    rw [hEq]
    simp
  have hRepository : repository ref = host ++ ':' :: (dir ++ '/' :: last) := by
    rw [repository, hName, dropWhile_mark (Or.inr rfl) hNoColon hNoSlash]
    simp
  rw [repoOf_eq, hEq, rsplitColon_append hRest, hRepository]
  intro hSame
  have hLength := congrArg List.length hSame
  simp at hLength

theorem newRef_eq_retag_iff (version ref : List Char) :
    newRef version ref = retag version ref ↔ ¬ PortOnly ref := by
  rw [newRef, retag, List.append_left_inj]
  exact ⟨fun hSame hPort => repoOf_ne_repository hPort hSame, repoOf_eq_repository⟩

/-! ### Versions -/

/-- A version that is a tag. -/
structure IsTag (version : List Char) : Prop where
  ne : version ≠ []
  chars : ∀ c ∈ version, isTagChar c = true

theorem tagChar_range {c : Char} (h : isTagChar c = true) :
    45 ≤ c.toNat ∧ c.toNat ≤ 122 ∧ c ≠ ':' ∧ c ≠ '@' := by
  simp only [isTagChar, Bool.or_eq_true, decide_eq_true_eq] at h
  rcases h with ((hWord | rfl) | rfl) | rfl
  · have hRange := alphanum_range hWord
    refine ⟨by omega, hRange.2, ?_, ?_⟩
    · rintro rfl
      exact absurd hWord (by decide)
    · rintro rfl
      exact absurd hWord (by decide)
  · decide
  · decide
  · decide

theorem isRefChar_of_isTagChar {c : Char} (h : isTagChar c = true) : isRefChar c = true := by
  simp only [isTagChar, Bool.or_eq_true, decide_eq_true_eq] at h
  rcases h with ((hWord | rfl) | rfl) | rfl
  · simp [isRefChar, hWord]
  · decide
  · decide
  · decide

/-- A version that matches is a tag, or a tag with a line feed. -/
theorem isTag_of_versionMatches {version : List Char} (h : versionMatches version = true) :
    ∃ tag, IsTag tag ∧ (version = tag ∨ version = tag ++ ['\n']) := by
  have hSplit : version.takeWhile isTagChar ++ version.dropWhile isTagChar = version :=
    List.takeWhile_append_dropWhile
  simp only [versionMatches, Bool.and_eq_true, Bool.or_eq_true, decide_eq_true_eq, beq_iff_eq] at h
  obtain ⟨⟨hLength, -⟩, hRest⟩ := h
  refine ⟨version.takeWhile isTagChar, ⟨?_, fun c hc => List.mem_takeWhile_imp hc⟩, ?_⟩
  · intro hNil
    rw [hNil] at hLength
    exact absurd hLength (by decide)
  · rcases hRest with hNil | hFeed
    · rw [hNil, List.append_nil] at hSplit
      exact Or.inl hSplit.symm
    · rw [hFeed] at hSplit
      exact Or.inr hSplit.symm

theorem IsTag.notMem {version : List Char} (h : IsTag version) {d : Char}
    (hd : d.toNat < 45 ∨ d = ':' ∨ d = '@') : d ∉ version := by
  intro hMem
  obtain ⟨hLow, -, hColon, hAt⟩ := tagChar_range (h.chars d hMem)
  rcases hd with hRange | rfl | rfl
  · omega
  · exact hColon rfl
  · exact hAt rfl

/-- A reference that was rewritten stays when it is rewritten again. -/
theorem newRef_newRef {version : List Char} (h : IsTag version) (ref : List Char) :
    newRef version (newRef version ref) = newRef version ref := by
  have hColon : ':' ∉ version := h.notMem (Or.inr (Or.inl rfl))
  have hAt : '@' ∉ repoOf ref ++ ':' :: version := by
    rw [List.mem_append, List.mem_cons, not_or, not_or]
    refine ⟨fun hMem => ?_, by decide, h.notMem (Or.inr (Or.inr rfl))⟩
    rw [repoOf_eq] at hMem
    exact at_notMem_nameOf ref ((rsplitColon_start _).subset hMem)
  have hRepo : repoOf (newRef version ref) = repoOf ref := by
    rw [repoOf_eq, newRef, nameOf_of_notMem hAt, rsplitColon_append hColon]
  rw [newRef, hRepo]
  rfl

/-! ### The rewritten line -/

section Rewritten

variable {version v : List Char}

theorem isToken_newRef {ref : List Char} (h : IsTag version) (hRef : IsToken ref) :
    IsToken (newRef version ref) where
  ne := by simp [newRef]
  noSpace := by
    intro c hc
    rcases List.mem_append.mp hc with hc | hc
    · exact hRef.noSpace c ((repoOf_start ref).subset hc)
    · rcases List.mem_cons.mp hc with rfl | hc
      · decide
      · obtain ⟨hLow, hHigh, -, -⟩ := tagChar_range (h.chars c hc)
        exact isSpace_of_range ⟨hLow, hHigh⟩
  noHash := by
    rw [newRef, List.mem_append, List.mem_cons, not_or, not_or]
    exact ⟨fun hMem => hRef.noHash ((repoOf_start ref).subset hMem), by decide,
      h.notMem (Or.inl (by decide))⟩

theorem newRef_last (h : IsTag version) (ref : List Char) :
    (newRef version ref).getLast? ≠ some ':' := by
  intro hLast
  rw [newRef, List.getLast?_append_of_ne_nil _ (List.cons_ne_nil _ _),
    List.getLast?_cons_of_ne_nil h.ne] at hLast
  exact h.notMem (Or.inr (Or.inl rfl)) (List.mem_of_getLast? hLast)

theorem newRef_chars (h : IsTag version) (hv : IsReference v) :
    ∀ c ∈ newRef version v, isRefChar c = true := by
  intro c hc
  rcases List.mem_append.mp hc with hc | hc
  · exact hv.chars c ((repoOf_start v).subset hc)
  · rcases List.mem_cons.mp hc with rfl | hc
    · decide
    · exact isRefChar_of_isTagChar (h.chars c hc)

theorem newRef_start (hv : IsReference v) (version : List Char) :
    ∃ c rest, newRef version v = c :: rest ∧ c.isAlphanum = true := by
  obtain ⟨c, rest, rfl, hWord⟩ := hv.start
  have hColon : c ≠ ':' := by
    rintro rfl
    exact absurd hWord (by decide)
  have hAt : c ≠ '@' := by
    rintro rfl
    exact absurd hWord (by decide)
  obtain ⟨more, hRepo, -⟩ := repoOf_cons hColon hAt rest
  exact ⟨c, more ++ ':' :: version, by rw [newRef, hRepo]; rfl, hWord⟩

theorem isReference_newRef (h : IsTag version) (hv : IsReference v) :
    IsReference (newRef version v) :=
  ⟨newRef_chars h hv, newRef_start hv version⟩

theorem IsReference.isWord (hv : IsReference v) : IsWord v where
  noSpace := hv.isToken.noSpace
  start := by
    obtain ⟨c, rest, hEq, hWord⟩ := hv.start
    refine ⟨c, rest, hEq, ?_, ?_⟩
    · cases hQuote : isQuote c with
      | false => rfl
      | true =>
          have hLow := quote_range hQuote
          have hRange := alphanum_range hWord
          omega
    · cases hIndicator : isIndicator c with
      | false => rfl
      | true =>
          have hAll : "|>\x7b\x7d[]&*!%@\x60,?#\"'".toList.all (fun d => !d.isAlphanum) = true := by
            decide
          have hNot := List.all_eq_true.mp hAll c (by simpa [isIndicator] using hIndicator)
          rw [hWord] at hNot
          cases hNot

/-- A start without the separator is before it. -/
theorem append_eq_split {q : Char} {start cs x rest : List Char} (hq : q ∉ start)
    (h : start ++ cs = x ++ q :: rest) : ∃ more, x = start ++ more ∧ cs = more ++ q :: rest := by
  induction start generalizing x with
  | nil => exact ⟨x, rfl, h⟩
  | cons c start ih =>
      rw [List.mem_cons, not_or] at hq
      cases x with
      | nil => exact absurd (List.cons.inj h).1.symm hq.1
      | cons d x =>
          obtain ⟨rfl, hTail⟩ := List.cons.inj h
          obtain ⟨more, rfl, hCs⟩ := ih hq.2 hTail
          exact ⟨more, rfl, hCs⟩

/-- A quoted reference loses its closing quote: what is read then has a comment in it. -/
theorem hash_of_quoted {q : Char} {behind x : List Char} (h : IsTag version)
    (hv : IsReference v) (hQuote : isQuote q = true) (hEnds : endsLine behind = true)
    (hRead : readScalar (newRef version (q :: (v ++ [q])) ++ behind) = some x) : '#' ∈ x := by
  have hLow := quote_range hQuote
  have hColon : q ≠ ':' := by
    rintro rfl
    exact absurd hQuote (by decide)
  have hAt : q ≠ '@' := by
    rintro rfl
    exact absurd hQuote (by decide)
  obtain ⟨more, hRepo, hMore⟩ := repoOf_cons hColon hAt (v ++ [q])
  have hNew : newRef version (q :: (v ++ [q])) ++ behind =
      q :: (more ++ (':' :: (version ++ behind))) := by
    rw [newRef, hRepo]
    simp
  rw [hNew] at hRead
  obtain ⟨rest, hEq, hRest, hx⟩ := quoted_of_readScalar hRead hQuote
  have hValue : q ∉ v := notMem_of_range hv.chars hLow
  rcases List.prefix_concat_iff.mp hMore with rfl | hMore
  · -- the quotes are whole, and the tag comes behind them
    rw [List.append_assoc] at hEq
    obtain ⟨x', rfl, hBehind⟩ := append_eq_split hValue hEq
    cases x' with
    | nil =>
        obtain rfl := (List.cons.inj hBehind).2
        cases hRest
    | cons d x' =>
        obtain rfl := (List.cons.inj hBehind).1
        exact absurd hx (by simp)
  · -- a quote behind the tag is one of the comment
    have hStart : q ∉ more ++ ':' :: version := by
      rw [List.mem_append, List.mem_cons, not_or, not_or]
      exact ⟨fun hMem => hValue (hMore.subset hMem), hColon, h.notMem (Or.inl hLow)⟩
    have hSplit : more ++ ':' :: version ++ behind = x ++ q :: rest := by
      rw [← hEq]
      simp
    obtain ⟨x', rfl, hBehind⟩ := append_eq_split hStart hSplit
    rcases endsLine_cases hEnds with hBlanks | ⟨blanks, comment, rfl, hBlanks⟩
    · have hSpace := hBlanks q (by rw [hBehind]; simp)
      rw [hSpace] at hQuote
      cases hQuote
    · have hBefore : q ∉ blanks ++ [' ', '#'] := by
        intro hMem
        rcases List.mem_append.mp hMem with hMem | hMem
        · rw [hBlanks q hMem] at hQuote
          cases hQuote
        · simp only [List.mem_cons, List.not_mem_nil, or_false] at hMem
          rcases hMem with rfl | rfl <;> cases hQuote
      have hComment : blanks ++ [' ', '#'] ++ comment = x' ++ q :: rest := by
        rw [← hBehind]
        simp
      obtain ⟨x'', rfl, -⟩ := append_eq_split hBefore hComment
      simp

end Rewritten

end WattPost.Update
